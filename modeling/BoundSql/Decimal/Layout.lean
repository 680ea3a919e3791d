import BoundSql.Decimal.Shortest

/-!
# Text of numbers

A `NumberStyle` says how the shortest digits of a double become text: where positional notation
ends, whether whole numbers show a fraction, and how the special values are written.
-/

namespace BoundSql

/-- How doubles are written. -/
structure NumberStyle where
  /-- Which of two equally near shortest decimals is written. -/
  tie : Decimal.Tie
  /-- Whether a number with this leading exponent is written without an exponent. -/
  positional : Int → Bool
  /-- What follows the digits of a whole number in positional notation. -/
  wholeEnd : String
  /-- The text of not-a-number. -/
  nan : String
  /-- The text of the infinities, after their sign. -/
  infinity : String

namespace Decimal

/-- A run of zeros. -/
def zeros (n : Nat) : String :=
  String.ofList (List.replicate n '0')

/-- The decimal with its point in place and zeros up to it. -/
def positional (d : Decimal) (wholeEnd : String) : String :=
  let digits := String.ofList d.digits
  if d.point ≤ 0 then "0." ++ zeros (-d.point).toNat ++ digits
  else if d.point < d.digits.length then
    let (whole, fraction) := d.digits.splitAt d.point.toNat
    String.ofList whole ++ "." ++ String.ofList fraction
  else digits ++ zeros (d.point.toNat - d.digits.length) ++ wholeEnd

/-- The decimal with one digit before the point and a signed exponent. -/
def scientific (d : Decimal) : String :=
  let exponent := d.point - 1
  let sign := if exponent < 0 then "-" else "+"
  let mantissa := match d.digits with
    | [] => "0"
    | [c] => String.singleton c
    | c :: fraction => String.singleton c ++ "." ++ String.ofList fraction
  mantissa ++ "e" ++ sign ++ toString exponent.natAbs

end Decimal

/-- A double written in the style. -/
def NumberStyle.write (style : NumberStyle) (x : Float) : String :=
  let signed := fun negative text => if negative then "-" ++ text else text
  match Double.ofFloat x with
  | .nan => style.nan
  | .infinite negative => signed negative style.infinity
  | .finite negative mantissa exponent =>
    if mantissa = 0 then signed negative ("0" ++ style.wholeEnd)
    else
      let d := Decimal.shortest style.tie mantissa exponent
      signed negative <|
        if style.positional (d.point - 1) then d.positional style.wholeEnd else d.scientific

end BoundSql
