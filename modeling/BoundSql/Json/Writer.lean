import BoundSql.Decimal.Layout
import BoundSql.Json.Basic

/-!
# Writing JSON

Compact JSON text. Floats always show a point or an exponent, so that they read back as floats.
-/

namespace BoundSql.Json

/-- Floats are written by their shortest digits, between `0.00001` and `10^16` without an exponent.
There is no text for NaN and the infinities, which are written as `null`. -/
def floatStyle : NumberStyle where
  tie := .even
  positional := fun exponent => -5 ≤ exponent && exponent ≤ 15
  wholeEnd := ".0"
  nan := "null"
  infinity := "null"

/-- The last hexadecimal digit of a number. -/
def hexDigit (n : Nat) : Char :=
  Nat.digitChar (n % 16)

/-- A character as it stands in a string. -/
def escape (c : Char) : List Char :=
  match c with
  | '"' => ['\\', '"']
  | '\\' => ['\\', '\\']
  | '\n' => ['\\', 'n']
  | '\r' => ['\\', 'r']
  | '\t' => ['\\', 't']
  | c =>
    if c.toNat = 8 then ['\\', 'b']
    else if c.toNat = 12 then ['\\', 'f']
    else if c.toNat < 0x20 then ['\\', 'u', '0', '0', hexDigit (c.toNat / 16), hexDigit c.toNat]
    else [c]

/-- A string in quotes. -/
def quote (s : String) : String :=
  String.ofList ('"' :: s.toList.flatMap escape ++ ['"'])

/-- A float; none that is not finite has a text. -/
def writeFloat (x : Float) : String :=
  if x.isFinite then floatStyle.write x else "null"

mutual

/-- The text of a value. -/
def write : Json → String
  | .null | .unusable => "null"
  | .boolean true => "true"
  | .boolean false => "false"
  | .integer n => toString n
  | .float x => writeFloat x
  | .string s => quote s
  | .array items => "[" ++ ",".intercalate (writeItems items) ++ "]"
  | .object members => "\x7b" ++ ",".intercalate (writeMembers members) ++ "\x7d"

/-- The texts of the items of an array. -/
def writeItems : List Json → List String
  | [] => []
  | j :: rest => j.write :: writeItems rest

/-- The texts of the members of an object. -/
def writeMembers : List (String × Json) → List String
  | [] => []
  | (name, j) :: rest => (quote name ++ ":" ++ j.write) :: writeMembers rest

end

end BoundSql.Json
