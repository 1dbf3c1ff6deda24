import Metering.Json.Basic

/-!
# Reading JSON text

The reader takes the whole text as one value. It refuses control characters in
strings and leading zeros, and it keeps repeated keys. What is well written but
has no value stays in its place as unreadable: a string with an unpaired
surrogate escape, an object with such a key, a container nested beyond a fixed
depth, and a number beyond every double. A number is first taken as its
literal.
-/

namespace Metering

/-- A number as written: `digits * 10 ^ exponent` with a sign. -/
structure NumberLiteral where
  /-- Whether a minus sign stands in front. -/
  isNegative : Bool
  /-- The digits of the whole part and the fraction, as one number. -/
  digits : Nat
  /-- The power of ten of the last digit. -/
  exponent : Int
  /-- Whether there is neither a fraction nor an exponent. -/
  isWhole : Bool
deriving DecidableEq, Repr

namespace Json

/-- The greatest depth of nesting. -/
def maxDepth : Nat := 127

/-- Whether a character may stand between tokens. -/
def isBlank (char : Char) : Bool := char = ' ' || char = '\n' || char = '\t' || char = '\r'

/-- The input from its first character that is not blank. -/
def skipBlanks (input : List Char) : List Char := input.dropWhile isBlank

/-! ## Strings -/

/-- The value of a hexadecimal digit. -/
def hexDigit? (char : Char) : Option Nat :=
  if char.isDigit then
    some (char.toNat - '0'.toNat)
  else if 'a' ≤ char && char ≤ 'f' then
    some (char.toNat - 'a'.toNat + 10)
  else if 'A' ≤ char && char ≤ 'F' then
    some (char.toNat - 'A'.toNat + 10)
  else
    none

/-- The value of four hexadecimal digits. -/
def hexWord? (first second third fourth : Char) : Option Nat := do
  let high ← hexDigit? first
  let upper ← hexDigit? second
  let lower ← hexDigit? third
  let low ← hexDigit? fourth
  return ((high * 16 + upper) * 16 + lower) * 16 + low

/-- The character after a backslash that stands for a character by itself. -/
def simpleEscape? (char : Char) : Option Char :=
  match char with
  | '"' => some '"'
  | '\\' => some '\\'
  | '/' => some '/'
  | 'b' => some '\x08'
  | 'f' => some '\x0c'
  | 'n' => some '\n'
  | 'r' => some '\r'
  | 't' => some '\t'
  | _ => none

/-- Whether a code unit is the first half of a surrogate pair. -/
def isHighSurrogate (unit : Nat) : Bool := 0xD800 ≤ unit && unit ≤ 0xDBFF

/-- Whether a code unit is the second half of a surrogate pair. -/
def isLowSurrogate (unit : Nat) : Bool := 0xDC00 ≤ unit && unit ≤ 0xDFFF

/-- What a string is made of. -/
inductive StringPiece where
  /-- A character. -/
  | char (char : Char)
  /-- Half of a surrogate pair. -/
  | half (unit : Nat)
deriving DecidableEq, Repr

/-- The piece that a code unit stands for. -/
def StringPiece.ofUnit (unit : Nat) : StringPiece :=
  if isHighSurrogate unit || isLowSurrogate unit then .half unit else .char (Char.ofNat unit)

/-- The characters of some pieces before those read so far, the last piece first, none unless every
half is one of a pair. -/
def charsOfPieces? (sofar : List Char) : List StringPiece → Option (List Char)
  | [] => some sofar
  | .char char :: rest => charsOfPieces? (char :: sofar) rest
  | .half low :: .half high :: rest =>
    if isHighSurrogate high && isLowSurrogate low then
      let code := 0x10000 + (high - 0xD800) * 0x400 + (low - 0xDC00)
      charsOfPieces? (Char.ofNat code :: sofar) rest
    else
      none
  | .half _ :: _ => none

/-- The text of some pieces, the last piece first. -/
def textOfPieces? (pieces : List StringPiece) : Option String :=
  (charsOfPieces? [] pieces).map String.ofList

/-- The rest of a string after its opening quote, read onto the pieces so far. A string with an
unpaired half has no text. -/
def stringRest? (sofar : List StringPiece) : List Char → Option (Option String × List Char)
  | '"' :: rest => some (textOfPieces? sofar, rest)
  | '\\' :: 'u' :: a :: b :: c :: d :: rest =>
    match hexWord? a b c d with
    | some unit => stringRest? (.ofUnit unit :: sofar) rest
    | none => none
  | '\\' :: char :: rest =>
    match simpleEscape? char with
    | some meant => stringRest? (.char meant :: sofar) rest
    | none => none
  | char :: rest =>
    if char.toNat < 0x20 then none else stringRest? (.char char :: sofar) rest
  | [] => none

/-! ## Numbers -/

/-- The number that digits stand for, read onto a number so far. -/
def extendDigits (sofar : Nat) (digits : List Char) : Nat :=
  digits.foldl (fun value digit => 10 * value + (digit.toNat - '0'.toNat)) sofar

/-- The whole part of a number: a zero alone, or digits without a leading zero. -/
def wholePart? (input : List Char) : Option (List Char × List Char) :=
  match input.takeWhile Char.isDigit with
  | [] => none
  | '0' :: _ :: _ => none
  | digits => some (digits, input.dropWhile Char.isDigit)

/-- The digits after a point, none without one. -/
def fractionPart? (input : List Char) : Option (List Char × List Char) :=
  match input with
  | '.' :: rest =>
    match rest.takeWhile Char.isDigit with
    | [] => none
    | digits => some (digits, rest.dropWhile Char.isDigit)
  | _ => some ([], input)

/-- The digits of an exponent after its sign. -/
def signedDigits? (sign : Int) (input : List Char) : Option (Option Int × List Char) :=
  match input.takeWhile Char.isDigit with
  | [] => none
  | digits => some (some (sign * (extendDigits 0 digits : Int)), input.dropWhile Char.isDigit)

/-- The exponent of a number, if it has one. -/
def exponentPart? (input : List Char) : Option (Option Int × List Char) :=
  match input with
  | mark :: rest =>
    if mark = 'e' || mark = 'E' then
      match rest with
      | '+' :: rest => signedDigits? 1 rest
      | '-' :: rest => signedDigits? (-1) rest
      | _ => signedDigits? 1 rest
    else
      some (none, input)
  | [] => some (none, input)

/-- A number without its sign. -/
def magnitude? (isNegative : Bool) (input : List Char) : Option (NumberLiteral × List Char) := do
  let (whole, rest) ← wholePart? input
  let (fraction, rest) ← fractionPart? rest
  let (power, rest) ← exponentPart? rest
  let digits := extendDigits (extendDigits 0 whole) fraction
  let exponent := power.getD 0 - (fraction.length : Int)
  return (⟨isNegative, digits, exponent, fraction.isEmpty && power.isNone⟩, rest)

/-- A number with an optional minus sign. -/
def number? (input : List Char) : Option (NumberLiteral × List Char) :=
  match input with
  | '-' :: rest => magnitude? true rest
  | _ => magnitude? false input

/-! ## Values -/

/-- A value that holds no others. -/
def plain? (input : List Char) : Option (Json NumberLiteral × List Char) :=
  match input with
  | 'n' :: 'u' :: 'l' :: 'l' :: rest => some (.null, rest)
  | 't' :: 'r' :: 'u' :: 'e' :: rest => some (.bool true, rest)
  | 'f' :: 'a' :: 'l' :: 's' :: 'e' :: rest => some (.bool false, rest)
  | '"' :: rest =>
    (stringRest? [] rest).map fun (text, rest) =>
      ((text.map Json.string).getD .unreadable, rest)
  | rest => (number? rest).map fun (literal, rest) => (.number literal, rest)

/-- A key, after any blanks, and the colon after it. -/
def key? (input : List Char) : Option (Option String × List Char) :=
  match skipBlanks input with
  | '"' :: rest =>
    match stringRest? [] rest with
    | none => none
    | some (key, rest) =>
      match skipBlanks rest with
      | ':' :: rest => some (key, rest)
      | _ => none
  | _ => none

/-- What a value stands in. -/
inductive Enclosure where
  /-- Square brackets. -/
  | array
  /-- Braces. -/
  | object
deriving DecidableEq, Repr

/-- What comes next in a value that is passed over. -/
inductive Expected where
  /-- A value. -/
  | value
  /-- An item or a member. -/
  | entry
  /-- An entry, or the end of an enclosure that has none. -/
  | firstEntry
  /-- A comma and an entry, or the end of an enclosure. -/
  | more
deriving DecidableEq, Repr

/-- Passes over a value up to the end of its outermost enclosure. The first argument bounds the
steps; the enclosures are given from the innermost. -/
def passOver? : Nat → Expected → List Enclosure → List Char → Option (List Char)
  | _, .more, [], input => some input
  | 0, _, _, _ => none
  | steps + 1, expected, enclosures, input =>
    match expected, enclosures, skipBlanks input with
    | .value, _, '[' :: rest => passOver? steps .firstEntry (.array :: enclosures) rest
    | .value, _, '{' :: rest => passOver? steps .firstEntry (.object :: enclosures) rest
    | .value, _, rest =>
      match plain? rest with
      | some (_, rest) => passOver? steps .more enclosures rest
      | none => none
    | .entry, .object :: _, rest =>
      match key? rest with
      | some (_, rest) => passOver? steps .value enclosures rest
      | none => none
    | .entry, _, rest => passOver? steps .value enclosures rest
    | .more, _, ',' :: rest => passOver? steps .entry enclosures rest
    | .firstEntry, .array :: outer, ']' :: rest => passOver? steps .more outer rest
    | .firstEntry, .object :: outer, '}' :: rest => passOver? steps .more outer rest
    | .more, .array :: outer, ']' :: rest => passOver? steps .more outer rest
    | .more, .object :: outer, '}' :: rest => passOver? steps .more outer rest
    | .firstEntry, _, rest => passOver? steps .entry enclosures rest
    | .more, _, _ => none

mutual

/-- A value, after any blanks. The first argument bounds the steps and the second the nesting. -/
def value? : Nat → Nat → List Char → Option (Json NumberLiteral × List Char)
  | 0, _, _ => none
  | steps + 1, depth, input =>
    match depth, skipBlanks input with
    | 0, '[' :: rest =>
      (passOver? steps .firstEntry [.array] rest).map fun rest => (.unreadable, rest)
    | 0, '{' :: rest =>
      (passOver? steps .firstEntry [.object] rest).map fun rest => (.unreadable, rest)
    | depth + 1, '[' :: rest =>
      match skipBlanks rest with
      | ']' :: rest => some (.array [], rest)
      | rest => items? steps depth [] rest
    | depth + 1, '{' :: rest =>
      match skipBlanks rest with
      | '}' :: rest => some (.object [], rest)
      | rest => pairs? steps depth (some []) rest
    | _, rest => plain? rest

/-- The items of an array up to its end, read onto the items so far. -/
def items? : Nat → Nat → List (Json NumberLiteral) → List Char →
    Option (Json NumberLiteral × List Char)
  | 0, _, _, _ => none
  | steps + 1, depth, sofar, input =>
    match value? steps depth input with
    | none => none
    | some (item, rest) =>
      match skipBlanks rest with
      | ',' :: rest => items? steps depth (item :: sofar) rest
      | ']' :: rest => some (.array (item :: sofar).reverse, rest)
      | _ => none

/-- The members of an object up to its end, read onto the members so far. They are none from the
first key on that cannot be read. -/
def pairs? : Nat → Nat → Option (List (String × Json NumberLiteral)) → List Char →
    Option (Json NumberLiteral × List Char)
  | 0, _, _, _ => none
  | steps + 1, depth, sofar, input =>
    match key? input with
    | none => none
    | some (key, rest) =>
      match value? steps depth rest with
      | none => none
      | some (value, rest) =>
        let sofar := key.bind fun key => sofar.map fun members => (key, value) :: members
        match skipBlanks rest with
        | ',' :: rest => pairs? steps depth sofar rest
        | '}' :: rest =>
          some ((sofar.map fun members => Json.object members.reverse).getD .unreadable, rest)
        | _ => none

end

/-- Reads a text as one value. Every four steps take at least one character. -/
def parseLiterals? (text : String) : Option (Json NumberLiteral) :=
  let input := text.toList
  match value? (4 * input.length + 4) maxDepth input with
  | some (value, rest) => if (skipBlanks rest).isEmpty then some value else none
  | none => none

end Json

namespace NumberLiteral

/-- Bounds of the binary logarithm of a literal that is not zero. A factor of ten is more than three
doublings and less than four. -/
def logBounds (literal : NumberLiteral) : Int × Int :=
  let bits : Int := literal.digits.log2
  if 0 ≤ literal.exponent then
    (bits + 3 * literal.exponent, bits + 1 + 4 * literal.exponent)
  else
    (bits + 4 * literal.exponent, bits + 1 + 3 * literal.exponent)

/-- The double nearest to the magnitude of a literal, none when it is beyond every double.
Magnitudes far outside the range of doubles are settled by their logarithm alone. -/
def magnitudeFloat? (literal : NumberLiteral) : Option Float :=
  let (low, high) := literal.logBounds
  if literal.digits = 0 || high < -1200 then
    some 0
  else if 1100 < low then
    none
  else
    let value :=
      Float.ofScientific literal.digits (literal.exponent < 0) literal.exponent.natAbs
    if value.isFinite then some value else none

/-- The numeral a literal stands for, none when it is beyond every double. Whole numbers stay whole
while they fit a 64-bit word, and a negative zero is never whole. -/
def toNumeral? (literal : NumberLiteral) : Option (Numeral Float) :=
  if literal.isWhole && !literal.isNegative && literal.digits < Numeral.wordLimit then
    some (.natural literal.digits)
  else if literal.isWhole && literal.isNegative && 0 < literal.digits &&
      literal.digits ≤ Numeral.signedLimit then
    some (.negative literal.digits)
  else
    literal.magnitudeFloat?.map fun value =>
      .real (if literal.isNegative then -value else value)

end NumberLiteral

namespace Json

mutual

/-- A value with every number read by a function, unreadable where it reads none. -/
def mapNumbers {ν μ : Type} (read : ν → Option μ) : Json ν → Json μ
  | .null => .null
  | .bool truth => .bool truth
  | .number numeral => ((read numeral).map Json.number).getD .unreadable
  | .string text => .string text
  | .array items => .array (mapItems read items)
  | .object members => .object (mapMembers read members)
  | .unreadable => .unreadable

/-- The items of an array with every number read by a function. -/
def mapItems {ν μ : Type} (read : ν → Option μ) : List (Json ν) → List (Json μ)
  | [] => []
  | item :: rest => mapNumbers read item :: mapItems read rest

/-- The members of an object with every number read by a function. -/
def mapMembers {ν μ : Type} (read : ν → Option μ) :
    List (String × Json ν) → List (String × Json μ)
  | [] => []
  | (key, value) :: rest => (key, mapNumbers read value) :: mapMembers read rest

end

/-- Reads a text as one value with doubles for its numbers. -/
def parse? (text : String) : Option (Json (Numeral Float)) :=
  (parseLiterals? text).map (mapNumbers NumberLiteral.toNumeral?)

end Json

end Metering
