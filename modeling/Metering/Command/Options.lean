/-!
# Options on a command line

Options come before the first word that is none. An option has a long name and
perhaps a letter; its value follows it or is attached to it. No option may be
given twice, and a value that is not attached must not look like an option.
Options are taken in order, so that one that asks for help outdoes every
mistake after it. A value that stands apart from its option is judged when the
next option comes, or when what follows the options has been read.
-/

namespace Metering.Command

/-- Why a command line was not carried out. -/
inductive ArgumentIssue where
  /-- It is not a valid command line. -/
  | misuse
  /-- It asks for help and not for a query. -/
  | help
deriving DecidableEq, Repr

/-- What an option takes. -/
inductive OptionKind where
  /-- A value that meets a condition. -/
  | value (accepts : String → Bool)
  /-- Nothing. -/
  | switch
  /-- Nothing, and the rest of the line does not matter. -/
  | help

/-- Whether an option asks for help. -/
def OptionKind.isHelp : OptionKind → Bool
  | .help => true
  | _ => false

/-- An option of a command. -/
structure OptionSpec where
  /-- The name after two dashes. -/
  name : String
  /-- The letter after one dash. -/
  letter : Option Char
  /-- What the option takes. -/
  kind : OptionKind

/-- Options with their values, a switch with the value of being on. -/
abbrev Chosen := List (String × String)

/-- The value of a switch that is on. -/
def switchedOn : String := "true"

/-- Whether an argument cannot be the value of an option before it. -/
def looksLikeOption (argument : String) : Bool :=
  argument.startsWith "-" && argument ≠ "-"

/-- Adds the value of an option, refused when it has one already or the value is not accepted. -/
def choose (accepts : String → Bool) (name value : String) (chosen : Chosen) :
    Except ArgumentIssue Chosen :=
  if (chosen.lookup name).isSome || !accepts value then
    .error .misuse
  else
    .ok ((name, value) :: chosen)

/-- An option as it stands in an argument: what it is, and the value attached to it. Nothing is
attached to a letter that asks for help. -/
def splitOption? (options : List OptionSpec) (argument : String) :
    Option (OptionSpec × Option String) :=
  match argument.toList with
  | '-' :: '-' :: rest =>
    let name := String.ofList (rest.takeWhile fun char => char ≠ '=')
    let attached :=
      match rest.dropWhile fun char => char ≠ '=' with
      | _ :: value => some (String.ofList value)
      | [] => none
    (options.find? fun option => option.name = name).map fun option => (option, attached)
  | '-' :: letter :: rest =>
    let attached :=
      match rest with
      | [] => none
      | '=' :: value => some (String.ofList value)
      | value => some (String.ofList value)
    (options.find? fun option => option.letter = some letter).map fun option =>
      (option, if option.kind.isHelp then none else attached)
  | _ => none

/-- Reads options onto those chosen so far, up to the first word that is none, or up to two dashes
alone. Nothing may come after two dashes. A value that stands apart from its option is judged when
the next option comes; that of the last one is still to be judged in the result. -/
def readOptions (options : List OptionSpec) (sofar : Except ArgumentIssue Chosen) :
    List String → Except ArgumentIssue (Except ArgumentIssue Chosen × List String)
  | [] => .ok (sofar, [])
  | argument :: rest =>
    if argument = "--" then
      if rest.isEmpty then .ok (sofar, []) else .error .misuse
    else if !looksLikeOption argument then
      .ok (sofar, argument :: rest)
    else
      match sofar, splitOption? options argument with
      | .error issue, _ => .error issue
      | .ok _, none => .error .misuse
      | .ok _, some (⟨_, _, .help⟩, none) => .error .help
      | .ok _, some (⟨_, _, .help⟩, some _) => .error .misuse
      | .ok chosen, some (⟨name, _, .switch⟩, none) =>
        match choose (fun _ => true) name switchedOn chosen with
        | .ok chosen => readOptions options (.ok chosen) rest
        | .error issue => .error issue
      | .ok _, some (⟨_, _, .switch⟩, some _) => .error .misuse
      | .ok chosen, some (⟨name, _, .value accepts⟩, some value) =>
        match choose accepts name value chosen with
        | .ok chosen => readOptions options (.ok chosen) rest
        | .error issue => .error issue
      | .ok chosen, some (⟨name, _, .value accepts⟩, none) =>
        match rest with
        | [] => .error .misuse
        | value :: rest =>
          if looksLikeOption value then
            .error .misuse
          else
            readOptions options (choose accepts name value chosen) rest

end Metering.Command
