import Metering.Json.Basic
import Metering.Time.Text

/-!
# Layers of settings

Settings form a tree of tables and lists. A layer names single settings by
their paths and is laid over what is there: a table is laid over a table value
by value, and anything else takes the place of what it meets. What a path
leads through is made where it is missing, and replaced where it is neither a
table nor a list as the path says. Names are in lower case, whatever the case
they were given in; a list that is laid down is taken as it was written.
-/

namespace Metering.Command

/-- A tree of settings. -/
abbrev Setting := Json (Numeral Float)

namespace Settings

/-! ## Tables -/

/-- The members of a setting, none unless it is a table. -/
def membersOf : Setting → List (String × Setting)
  | .object members => members
  | _ => []

/-- The items of a setting, none unless it is a list. -/
def itemsOf : Setting → List Setting
  | .array items => items
  | _ => []

/-- Gives a name a setting in a table, in the place of the one it has. -/
def put (table : List (String × Setting)) (name : String) (value : Setting) :
    List (String × Setting) :=
  (name, value) :: table.filter fun pair => pair.1 ≠ name

mutual

/-- A table with one setting laid over it. A table is laid over what is there value by value. -/
def layOne (table : List (String × Setting)) (name : String) : Setting → List (String × Setting)
  | .object members =>
    let name := name.toLower
    match table.lookup name, members with
    | some below, [] => put table name below
    | some below, members => put table name (.object (layAll (membersOf below) members))
    | none, members => put table name (.object (layAll [] members))
  | value => put table name.toLower value

/-- A table with the members of another laid over it. -/
def layAll (table : List (String × Setting)) : List (String × Setting) → List (String × Setting)
  | [] => table
  | (name, value) :: rest => layAll (layOne table name value) rest

end

/-! ## Paths -/

/-- A step on the way to a setting. -/
inductive PathStep where
  /-- To a name in a table. -/
  | name (name : String)
  /-- To a position in a list, from its end when it is negative. -/
  | position (position : Int)
deriving DecidableEq, Repr

/-- Whether a character may stand in a name on a path. -/
def isNameChar (char : Char) : Bool :=
  char.isAlphanum || char = '_' || char = '-' || char = ' '

/-- Whether a character may stand around a position. -/
def isPadding (char : Char) : Bool := char = ' ' || char = '\t'

/-- A position of a signed 64-bit word in decimal, perhaps with a minus sign. -/
def position? (text : List Char) : Option Int :=
  let text := text.dropWhile isPadding
  let (sign, magnitude) : Int × List Char :=
    match text with
    | '-' :: rest => (-1, rest)
    | rest => (1, rest)
  let digits := magnitude.takeWhile Char.isDigit
  if digits.isEmpty || !(magnitude.dropWhile Char.isDigit).all isPadding then
    none
  else
    let value := sign * (Instant.digitsValue digits : Int)
    if -(Numeral.signedLimit : Int) ≤ value ∧ value < Numeral.signedLimit then some value
    else none

/-- What is left after leading characters of a kind is no longer than before. -/
theorem length_dropWhile_le (keep : Char → Bool) (text : List Char) :
    (text.dropWhile keep).length ≤ text.length :=
  (List.dropWhile_sublist keep).length_le

/-- The steps after the first: a point and a name, or a position in square brackets. -/
def moreSteps? (text : List Char) : Option (List PathStep) :=
  match text with
  | [] => some []
  | '.' :: rest =>
    match rest.takeWhile isNameChar with
    | [] => none
    | name =>
      (moreSteps? (rest.dropWhile isNameChar)).map fun steps =>
        .name (String.ofList name) :: steps
  | '[' :: rest =>
    match rest.elem ']', position? (rest.takeWhile (· ≠ ']')) with
    | true, some position =>
      (moreSteps? ((rest.dropWhile (· ≠ ']')).drop 1)).map fun steps =>
        .position position :: steps
    | _, _ => none
  | _ => none
termination_by text.length
decreasing_by
  · have := length_dropWhile_le isNameChar rest
    simp only [List.length_cons]
    omega
  · have := length_dropWhile_le (· ≠ ']') rest
    simp only [List.length_cons, List.length_drop]
    omega

/-- The path that a name spells; a name that does not come apart is one step. -/
def pathOf (name : String) : List PathStep :=
  match moreSteps? ('.' :: name.toList) with
  | some steps => steps
  | none => [.name name]

/-- The longest list that a position makes. -/
def maxLength : Nat := 10000000

/-- The place that a position stands for among some items, none before the first of them. -/
def place? (length : Nat) (position : Int) : Option Nat :=
  let place := if 0 ≤ position then position else (length : Int) + position
  if 0 ≤ place ∧ place < (maxLength : Int) then some place.toNat else none

/-- A setting with a value laid down at the end of a path. A list is filled up with nulls as far as
the path needs it. -/
def layAt (value : Setting) : List PathStep → Setting → Option Setting
  | [], _ => some value
  | [.name name], below => some (.object (layOne (membersOf below) name value))
  | .name name :: rest, below =>
    let table := membersOf below
    let name := name.toLower
    (layAt value rest ((table.lookup name).getD .null)).map fun inner =>
      .object (put table name inner)
  | .position position :: rest, below =>
    let items := itemsOf below
    match place? items.length position with
    | none => none
    | some place =>
      let items := items ++ List.replicate (place + 1 - items.length) .null
      (layAt value rest ((items[place]?).getD .null)).map fun inner =>
        .array (items.set place inner)

/-- Settings with a layer over them, whose names spell paths. -/
def lay (settings : Setting) (layer : List (String × Setting)) : Option Setting :=
  layer.foldlM (fun below (name, value) => layAt value (pathOf name) below) settings

end Settings

end Metering.Command
