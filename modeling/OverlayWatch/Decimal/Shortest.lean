import OverlayWatch.Decimal.Binary64

/-!
# The fewest digits that read back

A decimal reads back as a binary number when it lies among the reals that round to it: from halfway
to the neighbour below to halfway to the neighbour above, the ends included when the mantissa is
even.  On each decimal grid only the two points next to the number can lie there.  The coarsest
grid with such a point gives the digits; of two points the nearer one, of two equally near ones
the even one.

* `Decimal`              digits and a power of ten;
* `Binary64.readsBack`   whether a decimal lies in the interval;
* `Binary64.shortest`    the decimal with the fewest digits.
-/

namespace OverlayWatch

/-- `digits * 10 ^ exponent` -/
structure Decimal where
  digits : Nat
  exponent : Int
deriving DecidableEq, Repr

namespace Decimal

/-- compares with the quotient `num / den` -/
def compareRatio (d : Decimal) (num den : Nat) : Ordering :=
  compare (d.digits * Nat.pow 10 d.exponent.toNat * den) (num * Nat.pow 10 (-d.exponent).toNat)

/-- without trailing zeros among the digits -/
def strip : Nat → Decimal → Decimal
  | 0, d => d
  | limit + 1, d =>
    if d.digits ≠ 0 ∧ d.digits % 10 = 0 then strip limit ⟨d.digits / 10, d.exponent + 1⟩ else d

end Decimal

namespace Binary64

/-- the ends of the interval, as multiples of a quarter of the last binary place -/
def lowEnd (x : Binary64) : Nat :=
  if x.mantissa = leastFull ∧ minExponent < x.exponent then 4 * x.mantissa - 1
  else 4 * x.mantissa - 2

def highEnd (x : Binary64) : Nat := 4 * x.mantissa + 2

def readsBack (x : Binary64) (d : Decimal) : Bool :=
  let low := ratio x.lowEnd (x.exponent - 2)
  let high := ratio x.highEnd (x.exponent - 2)
  let closed := x.mantissa % 2 == 0
  let atLow := d.compareRatio low.1 low.2
  let atHigh := d.compareRatio high.1 high.2
  (atLow == .gt || (closed && atLow == .eq)) && (atHigh == .lt || (closed && atHigh == .eq))

/-- the point of the grid of step `10 ^ e` at or below the number -/
def floorOn (x : Binary64) (e : Int) : Nat :=
  let (num, den) := ratio x.mantissa x.exponent
  (num * Nat.pow 10 (-e).toNat) / (den * Nat.pow 10 e.toNat)

/-- whether the number is nearer to the upper of two neighbouring points, or as near and the lower
one is odd -/
def nearerUpper (x : Binary64) (lower : Nat) (e : Int) : Bool :=
  let twice := ratio (2 * x.mantissa) x.exponent
  match Decimal.compareRatio ⟨2 * lower + 1, e⟩ twice.1 twice.2 with
  | .lt => true
  | .eq => lower % 2 == 1
  | .gt => false

/-- the point of the grid that reads back, if there is one -/
def onGrid? (x : Binary64) (e : Int) : Option Decimal :=
  let lower := x.floorOn e
  let below : Decimal := ⟨lower, e⟩
  let above : Decimal := ⟨lower + 1, e⟩
  match x.readsBack below, x.readsBack above with
  | true, true => some (if x.nearerUpper lower e then above else below)
  | true, false => some below
  | false, true => some above
  | false, false => none

/-- the number of digits before the point, or minus the number of zeros right after it -/
def scale (x : Binary64) : Int :=
  match x.floorOn 0 with
  | 0 => 1 - (((List.range 325).find? fun i : Nat => x.floorOn (-(i : Int)) ≠ 0).getD 0 : Nat)
  | n => (Nat.toDigits 10 n).length

/-- seventeen digits always suffice -/
def shortest (x : Binary64) : Decimal :=
  if x.isZero then ⟨0, 0⟩
  else
    let candidates := (List.range 17).findSome? fun n : Nat => x.onGrid? (x.scale - (n : Int) - 1)
    (candidates.getD ⟨x.floorOn (x.scale - 17), x.scale - 17⟩).strip 400

end Binary64

end OverlayWatch
