import BoundSql.Json.Basic

/-!
# Records and variants in JSON

How the fields of a structure and the variants of an inductive type are found in a JSON value. A
record is an object with its fields by name, in any order and among others, or an array of its
fields in their order. A variant is its name, or an object with its name and its content.
-/

namespace BoundSql.Json

/-- A field of a record. -/
inductive Slot where
  | given (j : Json)
  /-- The record is an object and does not name the field. -/
  | omitted
  /-- The record is an array and ends before the field. -/
  | cut

/-- The fields of an object; none if one of them is named twice. -/
def namedSlot? (members : List (String × Json)) (name : String) : Option Slot :=
  match members.filter (·.1 == name) with
  | [] => some .omitted
  | [member] => some (.given member.2)
  | _ => none

/-- The fields of an array in order. -/
def positionalSlots (names : List String) (items : List Json) : List Slot :=
  items.map .given ++ List.replicate (names.length - items.length) .cut

/-- The fields of a record with the given names. -/
def record? (names : List String) : Json → Option (List Slot)
  | .object members => names.mapM (namedSlot? members)
  | .array items => if items.length ≤ names.length then some (positionalSlots names items) else none
  | _ => none

namespace Slot

/-- The value of a field that every record has. -/
def required : Slot → Option Json
  | .given j => some j
  | _ => none

/-- The value of a field that may be `null`, and that an object may leave out. -/
def optional {α : Type} (read : Json → Option α) : Slot → Option (Option α)
  | .given .null | .omitted => some none
  | .given j => (read j).map some
  | .cut => none

/-- The value of a field that every record may leave out. -/
def withDefault {α : Type} (default : α) (read : Json → Option α) : Slot → Option α
  | .given j => read j
  | .omitted | .cut => some default

end Slot

/-- The name of a variant, with its content if it has one. -/
def variant? : Json → Option (String × Option Json)
  | .string name => some (name, none)
  | .object [(name, content)] => some (name, some content)
  | _ => none

/-- The name of a variant without content. -/
def bareVariant? (j : Json) : Option String :=
  match j.variant? with
  | some (name, none) | some (name, some .null) => some name
  | _ => none

/-- A truth value. -/
def boolean? : Json → Option Bool
  | .boolean b => some b
  | _ => none

/-- A string. -/
def string? : Json → Option String
  | .string s => some s
  | _ => none

/-- The items of an array. -/
def items? : Json → Option (List Json)
  | .array items => some items
  | _ => none

/-- The members of an object. -/
def members? : Json → Option (List (String × Json))
  | .object members => some members
  | _ => none

/-- A whole number of 64 bits with a sign. -/
def int64? : Json → Option Int64
  | .integer n => if Int64.minValue.toInt ≤ n ∧ n ≤ Int64.maxValue.toInt then some (Int64.ofInt n) else none
  | _ => none

/-- A whole number of 64 bits without a sign. -/
def uint64? : Json → Option UInt64
  | .integer n => if 0 ≤ n ∧ n < UInt64.size then some (UInt64.ofNat n.toNat) else none
  | _ => none

/-- A number as a double. -/
def float? : Json → Option Float
  | .float x => some x
  | .integer n =>
    let x := (UInt64.ofNat n.natAbs).toFloat
    some (if n < 0 then -x else x)
  | _ => none

/-- The items of an array, read one by one. -/
def listOf? {α : Type} (read : Json → Option α) (j : Json) : Option (List α) := do
  (← j.items?).mapM read

/-- The JSON form of what may be missing. -/
def ofOption {α : Type} (write : α → Json) : Option α → Json
  | some a => write a
  | none => .null

end BoundSql.Json
