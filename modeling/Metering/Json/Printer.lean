import Metering.Json.Basic

/-!
# Writing JSON text

A value is written on one line, or on several with two blanks of indentation
per level. Strings keep every character but the quote, the backslash and the
control characters. A double is written with the fewest digits that read back:
in full while its point is at most sixteen digits after or four before the
first of them, and with a power of ten otherwise. What cannot be read is
written as null, like the doubles that are no numbers.
-/

namespace Metering

namespace Json

/-! ## Strings -/

/-- A hexadecimal digit in lower case. -/
def hexChar (value : Nat) : Char := ("0123456789abcdef".toList)[value]?.getD '0'

/-- A character inside a string. -/
def escapeChar (char : Char) : List Char :=
  match char with
  | '"' => ['\\', '"']
  | '\\' => ['\\', '\\']
  | '\n' => ['\\', 'n']
  | '\r' => ['\\', 'r']
  | '\t' => ['\\', 't']
  | '\x08' => ['\\', 'b']
  | '\x0c' => ['\\', 'f']
  | _ =>
    if char.toNat < 0x20 then
      ['\\', 'u', '0', '0', hexChar (char.toNat / 16), hexChar (char.toNat % 16)]
    else
      [char]

/-- A string in quotes. -/
def quoted (text : String) : String :=
  String.ofList ('"' :: text.toList.flatMap escapeChar ++ ['"'])

/-! ## Numbers -/

/-- A decimal in full with at least one digit after the point, or with a power of ten. -/
def decimalText (decimal : Decimal) : String :=
  let point := decimal.exponent + (decimal.digitList.length : Int)
  if 0 ≤ decimal.exponent && point ≤ 16 then
    decimal.positional ++ ".0"
  else if -5 < point && point ≤ 16 then
    decimal.positional
  else
    decimal.scientific

/-- A double as a number, or null when it is none or infinite. -/
def doubleText (value : Float) : String :=
  if value.isFinite then
    let sign := if Binary.isNegative value.toBits then "-" else ""
    let double := Binary.ofBits value.toBits
    if double.significand = 0 then sign ++ "0.0" else sign ++ decimalText double.shortest
  else
    "null"

/-- The text of a numeral. -/
def numeralText : Numeral Float → String
  | .natural value => toString value
  | .negative magnitude => "-" ++ toString magnitude
  | .real value => doubleText value

/-! ## Values -/

variable {ν : Type}

mutual

/-- A value on one line. -/
def compact (numberText : ν → String) : Json ν → String
  | .null => "null"
  | .unreadable => "null"
  | .bool truth => if truth then "true" else "false"
  | .number numeral => numberText numeral
  | .string text => quoted text
  | .array items => "[" ++ String.intercalate "," (compactItems numberText items) ++ "]"
  | .object members =>
    "\x7b" ++ String.intercalate "," (compactMembers numberText members) ++ "\x7d"

/-- The items of an array, each on one line. -/
def compactItems (numberText : ν → String) : List (Json ν) → List String
  | [] => []
  | item :: rest => compact numberText item :: compactItems numberText rest

/-- The members of an object, each on one line. -/
def compactMembers (numberText : ν → String) : List (String × Json ν) → List String
  | [] => []
  | (key, value) :: rest =>
    (quoted key ++ ":" ++ compact numberText value) :: compactMembers numberText rest

end

/-- The start of a line at a level of indentation. -/
def lineStart (level : Nat) : String := "\n" ++ String.ofList (List.replicate (2 * level) ' ')

/-- Parts between brackets, each on a line of its own. -/
def block (opening closing : String) (level : Nat) (parts : List String) : String :=
  if parts.isEmpty then
    opening ++ closing
  else
    opening ++ String.intercalate "," (parts.map fun part => lineStart (level + 1) ++ part) ++
      lineStart level ++ closing

mutual

/-- A value on several lines, from a level of indentation. -/
def pretty (numberText : ν → String) (level : Nat) : Json ν → String
  | .null => "null"
  | .unreadable => "null"
  | .bool truth => if truth then "true" else "false"
  | .number numeral => numberText numeral
  | .string text => quoted text
  | .array items => block "[" "]" level (prettyItems numberText (level + 1) items)
  | .object members =>
    block "\x7b" "\x7d" level (prettyMembers numberText (level + 1) members)

/-- The items of an array on several lines. -/
def prettyItems (numberText : ν → String) (level : Nat) : List (Json ν) → List String
  | [] => []
  | item :: rest => pretty numberText level item :: prettyItems numberText level rest

/-- The members of an object on several lines. -/
def prettyMembers (numberText : ν → String) (level : Nat) :
    List (String × Json ν) → List String
  | [] => []
  | (key, value) :: rest =>
    (quoted key ++ ": " ++ pretty numberText level value) :: prettyMembers numberText level rest

end

end Json

end Metering
