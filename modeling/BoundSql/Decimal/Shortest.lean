/-!
# Shortest decimals

The shortest decimal that reads back as a given double. A finite double is `m * 2 ^ q`; the reals
that round to it form an interval around it, and the coarsest decimal grid with a point in that
interval gives the digits. Everything is exact arithmetic on natural numbers.
-/

namespace BoundSql

/-- A double taken apart: what it stands for, exactly. -/
inductive Double where
  | nan
  | infinite (negative : Bool)
  | finite (negative : Bool) (mantissa : Nat) (exponent : Int)
deriving DecidableEq, Repr

/-- The parts of a double, read off its bits. -/
def Double.ofFloat (x : Float) : Double :=
  let bits : Nat := x.toBits.toNat
  let negative := bits / Nat.pow 2 63 == 1
  let biased : Nat := bits / Nat.pow 2 52 % Nat.pow 2 11
  let fraction : Nat := bits % Nat.pow 2 52
  if biased = 2047 then
    if fraction = 0 then .infinite negative else .nan
  else if biased = 0 then .finite negative fraction (-1074)
  else .finite negative (Nat.pow 2 52 + fraction) (biased - 1075 : Int)

/-- A positive decimal: the digits, and how many of them stand before the point. -/
structure Decimal where
  digits : List Char
  point : Int
deriving DecidableEq, Repr

namespace Decimal

/-- Which of two equally near neighbours on a grid is taken. -/
inductive Tie where
  | up
  | even
deriving DecidableEq, Repr

/-- The decimal `count * 10 ^ unit`, without zeros at its end. -/
def ofGrid (count : Nat) (unit : Int) : Decimal :=
  let digits := Nat.toDigits 10 count
  ⟨(digits.reverse.dropWhile (· = '0')).reverse, digits.length + unit⟩

/-- The exponent of the leading decimal digit of `num / den`, for positive parts. -/
def leadingExponent (num den : Nat) : Int :=
  if den ≤ num then (Nat.toDigits 10 (num / den)).length - 1
  else -((Nat.toDigits 10 ((den - 1) / num)).length : Int)

/-- The count of the grid point nearest to `m * 2 ^ q` on the grid of `10 ^ unit` among the two
around it, if it reads back as that double. -/
def onGrid? (tie : Tie) (m : Nat) (q unit : Int) : Option Nat :=
  let scale := Nat.pow 2 (q - 2).toNat * Nat.pow 10 (-unit).toNat
  let step := Nat.pow 10 unit.toNat * Nat.pow 2 (2 - q).toNat
  let low := (4 * m - if m = Nat.pow 2 52 ∧ -1074 < q then 1 else 2) * scale
  let high := (4 * m + 2) * scale
  let within := fun count =>
    if m % 2 = 0 then low ≤ count * step && count * step ≤ high
    else low < count * step && count * step < high
  let below := 4 * m * scale / step
  let rest := 4 * m * scale % step
  match within below, within (below + 1) with
  | true, true =>
    let upper := match compare (2 * rest) step, tie with
      | .lt, _ => false
      | .gt, _ => true
      | .eq, .up => true
      | .eq, .even => below % 2 = 1
    some (if upper then below + 1 else below)
  | true, false => some below
  | false, true => some (below + 1)
  | false, false => none

/-- The shortest decimal that reads back as the positive double `m * 2 ^ q`, and the nearest of
those. Seventeen digits always suffice. -/
def shortest (tie : Tie) (m : Nat) (q : Int) : Decimal :=
  let lead := leadingExponent (4 * m * Nat.pow 2 (q - 2).toNat) (Nat.pow 2 (2 - q).toNat)
  let grids := (List.range 17).map fun (i : Nat) => lead - (i : Int)
  (grids.findSome? fun unit => (onGrid? tie m q unit).map (ofGrid · unit)).getD (ofGrid m q)

end Decimal

end BoundSql
