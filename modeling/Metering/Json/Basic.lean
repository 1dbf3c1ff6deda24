import Metering.Scalar

/-!
# JSON values

A JSON value keeps its members in the order written, repeated keys included,
so that each reader decides what a repeated key means. Numbers are numerals:
whole numbers of up to 64 bits stay whole, and every other number is a value
of the scalar type. What is well written but has no value here is kept as
unreadable: it can be passed over and nothing else.
-/

namespace Metering

/-- A JSON value with numbers of type `ν`. -/
inductive Json (ν : Type) where
  | null
  | bool (truth : Bool)
  | number (numeral : ν)
  | string (text : String)
  | array (items : List (Json ν))
  | object (members : List (String × Json ν))
  /-- A value that is well written but cannot be read. -/
  | unreadable
deriving Repr

/-- A number as a document holds it. -/
inductive Numeral (σ : Type) where
  /-- A whole number from 0. -/
  | natural (value : Nat)
  /-- A whole number below 0. -/
  | negative (magnitude : Nat)
  /-- Any other number. -/
  | real (value : σ)
deriving Repr

namespace Numeral

/-- The first natural number beyond a 64-bit word. -/
def wordLimit : Nat := 18446744073709551616

/-- The first natural number beyond a signed 64-bit word. -/
def signedLimit : Nat := 9223372036854775808

variable {σ : Type} [Scalar σ]

/-- The scalar a numeral stands for. -/
def toScalar : Numeral σ → σ
  | .natural value => Scalar.ofInt value
  | .negative magnitude => Scalar.ofInt (-magnitude)
  | .real value => value

end Numeral

namespace Json

variable {ν σ : Type}

/-! ## Reading members -/

/-- The value of the first member with a key. -/
def member? (key : String) (members : List (String × Json ν)) : Option (Json ν) :=
  members.lookup key

/-- Whether one of the given keys is repeated. -/
def repeatsAny (keys : List String) (members : List (String × Json ν)) : Bool :=
  keys.any fun key => 1 < (members.filter fun pair => pair.1 == key).length

/-- The members of an object in which none of the given keys is repeated. -/
def members? (keys : List String) : Json ν → Option (List (String × Json ν))
  | .object members => if repeatsAny keys members then none else some members
  | _ => none

/-- A member that has to be there. -/
def required? {α : Type} (read : Json ν → Option α) (key : String)
    (members : List (String × Json ν)) : Option α :=
  (member? key members).bind read

/-- A member with a value of its own when absent. -/
def defaulted? {α : Type} (read : Json ν → Option α) (default : α) (key : String)
    (members : List (String × Json ν)) : Option α :=
  match member? key members with
  | some value => read value
  | none => some default

/-- A value that may be null. -/
def nullable? {α : Type} (read : Json ν → Option α) : Json ν → Option (Option α)
  | .null => some none
  | value => (read value).map some

/-! ## Reading values -/

/-- A string. -/
def string? : Json ν → Option String
  | .string text => some text
  | _ => none

/-- A truth value. -/
def bool? : Json ν → Option Bool
  | .bool truth => some truth
  | _ => none

/-- A list of values of one kind. -/
def list? {α : Type} (read : Json ν → Option α) : Json ν → Option (List α)
  | .array items => items.mapM read
  | _ => none

/-- One of a set of names, given as a string or as the only key of an object, with null. -/
def choice? {α : Type} (ofName? : String → Option α) : Json ν → Option α
  | .string name => ofName? name
  | .object [(name, .null)] => ofName? name
  | _ => none

/-- A whole number from 0. -/
def natural? : Json (Numeral σ) → Option Nat
  | .number (.natural value) => some value
  | _ => none

/-- Any number, as a scalar. -/
def scalar? [Scalar σ] : Json (Numeral σ) → Option σ
  | .number numeral => some numeral.toScalar
  | _ => none

/-! ## Values that cannot be read -/

mutual

/-- Whether a value can be read to its ends. -/
def isReadable : Json ν → Bool
  | .unreadable => false
  | .array items => areReadable items
  | .object members => membersAreReadable members
  | _ => true

/-- Whether all of some items can be read to their ends. -/
def areReadable : List (Json ν) → Bool
  | [] => true
  | item :: rest => isReadable item && areReadable rest

/-- Whether all of some members can be read to their ends. -/
def membersAreReadable : List (String × Json ν) → Bool
  | [] => true
  | (_, value) :: rest => isReadable value && membersAreReadable rest

end

/-! ## Repeated keys -/

mutual

/-- A value in which the last member with a key stands for all of them. -/
def withoutRepeats : Json ν → Json ν
  | .array items => .array (itemsWithoutRepeats items)
  | .object members => .object (membersWithoutRepeats members)
  | value => value

/-- Items without repeated keys in any of them. -/
def itemsWithoutRepeats : List (Json ν) → List (Json ν)
  | [] => []
  | item :: rest => withoutRepeats item :: itemsWithoutRepeats rest

/-- Members of which only the last with each key is left. -/
def membersWithoutRepeats : List (String × Json ν) → List (String × Json ν)
  | [] => []
  | (key, value) :: rest =>
    let later := membersWithoutRepeats rest
    if (later.lookup key).isSome then later else (key, withoutRepeats value) :: later

end

/-! ## Writing members -/

/-- A member that is left out when there is no value. -/
def optional {α : Type} (key : String) (write : α → Json ν) :
    Option α → List (String × Json ν)
  | some value => [(key, write value)]
  | none => []

end Json

end Metering
