import BoundSql.SqlType
import BoundSql.Decimal.Layout

/-!
# Values

The values that literals hold and statements bind as parameters.
-/

namespace BoundSql

/-- A value bound as a parameter or fetched from a store. -/
inductive Value where
  | null
  | boolean (b : Bool)
  | integer (n : Int64)
  | float (x : Float)
  /-- A decimal as text, so that no digit is lost. -/
  | decimal (digits : String)
  | text (s : String)
deriving Repr, Inhabited

namespace Value

/-- The type a value shows; NULL shows none. -/
def type? : Value → Option SqlType
  | .null => none
  | .boolean _ => some .boolean
  | .integer _ => some .integer
  | .float _ => some .float
  | .decimal _ => some .decimal
  | .text _ => some .text

/-- Whether the value is NULL. -/
def isNull : Value → Bool
  | .null => true
  | _ => false

/-- Equality of values, where floats compare as numbers do: a NaN differs from itself, and the two
zeros are equal. -/
def equal : Value → Value → Bool
  | .null, .null => true
  | .boolean a, .boolean b => a == b
  | .integer a, .integer b => a == b
  | .float a, .float b => a == b
  | .decimal a, .decimal b => a == b
  | .text a, .text b => a == b
  | _, _ => false

/-- Floats are shown by their shortest digits and never with an exponent. -/
def floatStyle : NumberStyle where
  tie := .up
  positional := fun _ => true
  wholeEnd := ""
  nan := "NaN"
  infinity := "inf"

/-- A value as messages show it. -/
def display : Value → String
  | .null => "NULL"
  | .boolean true => "true"
  | .boolean false => "false"
  | .integer n => toString n.toInt
  | .float x => floatStyle.write x
  | .decimal digits => digits
  | .text s => s!"'{s}'"

end Value

end BoundSql
