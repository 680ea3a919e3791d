import BoundSql.Json.Basic

/-!
# Numbers in JSON text

A number without fraction and exponent is whole. Of any other, the digits that fit into 64 bits are
the significand, the others only count for the exponent, and the significand is multiplied or
divided by a power of ten. That rounds once or twice, so a number with many digits need not give the
nearest double.
-/

namespace BoundSql.Json

/-- The parts of a number as it is written. -/
structure NumberText where
  negative : Bool
  whole : List Char
  /-- The digits behind the point; none without a point. -/
  fraction : List Char
  exponent : Int
  /-- Whether there is neither a point nor an exponent. -/
  isWhole : Bool
deriving Repr

namespace NumberText

/-- The number that decimal digits spell. -/
def digitsValue (digits : List Char) : Nat :=
  digits.foldl (fun n c => n * 10 + (c.toNat - '0'.toNat)) 0

/-- The digits behind a point, of which there has to be one, and the rest. -/
def takeFraction : List Char → Option (Option (List Char) × List Char)
  | '.' :: rest =>
    match rest.span Char.isDigit with
    | ([], _) => none
    | (digits, rest) => some (some digits, rest)
  | rest => some (none, rest)

/-- The digits of an exponent, of which there has to be one, with a sign before them. -/
def takeExponent : List Char → Option (Option Int)
  | [] => some none
  | mark :: rest =>
    if mark = 'e' ∨ mark = 'E' then
      let (negative, digits) := match rest with
        | '-' :: digits => (true, digits)
        | '+' :: digits => (false, digits)
        | digits => (false, digits)
      if digits.isEmpty || !digits.all Char.isDigit then none
      else some (some (if negative then -(digitsValue digits : Int) else digitsValue digits))
    else none

/-- Takes a number apart; none if it is not written as JSON demands. -/
def ofChars? (text : List Char) : Option NumberText := do
  let (negative, text) := match text with
    | '-' :: rest => (true, rest)
    | text => (false, text)
  let (whole, rest) := text.span Char.isDigit
  match whole with
  | [] | '0' :: _ :: _ => none
  | _ =>
    let (fraction, rest) ← takeFraction rest
    let exponent ← takeExponent rest
    return {
      negative, whole
      fraction := fraction.getD []
      exponent := exponent.getD 0
      isWhole := fraction.isNone && exponent.isNone }

/-- A significand with as many further digits as fit into 64 bits, and the digits left. -/
def absorb (significand : Nat) : List Char → Nat × List Char
  | [] => (significand, [])
  | c :: rest =>
    let next := significand * 10 + (c.toNat - '0'.toNat)
    if next < UInt64.size then absorb next rest else (significand, c :: rest)

/-- A power of ten as a double. -/
def tenTo (n : Nat) : Float :=
  Float.ofScientific 1 false n

/-- The double for `significand * 10 ^ exponent`; none if it is beyond the doubles. -/
def scale (significand : Nat) (exponent : Int) : Option Float :=
  let x := (UInt64.ofNat significand).toFloat
  if exponent < 0 then
    let shift := exponent.natAbs
    some (if shift ≤ 308 then x / tenTo shift else x / tenTo 308 / tenTo (min (shift - 308) 308))
  else if exponent ≤ 308 then
    let y := x * tenTo exponent.toNat
    if y.isInf then none else some y
  else if significand = 0 then some x
  else none

/-- The value of a number. Negative zero is a float, and so is a whole number of more than 64 bits. -/
def toJson (t : NumberText) : Json :=
  let (significand, left) := absorb 0 t.whole
  let ofFloat := fun x : Option Float =>
    match x with
    | some x => Json.float (if t.negative then -x else x)
    | none => .unusable
  if t.isWhole && left.isEmpty then
    if !t.negative then .integer significand
    else if 0 < significand && significand ≤ Nat.pow 2 63 then .integer (-significand)
    else ofFloat (scale significand 0)
  else
    let (significand, left') := absorb significand t.fraction
    let used := t.fraction.length - left'.length
    ofFloat (scale significand (left.length - used + t.exponent))

end NumberText

end BoundSql.Json
