/-!
# Binary numbers of 53 digits

The non-negative numbers `m * 2 ^ e` with `m < 2 ^ 53` and `-1074 ≤ e ≤ 971`, in exact arithmetic.
A quotient is rounded to the nearest of them, a tie to the one with even `m`; beyond the largest
there is none.

* `Binary64.ofRatio`   rounds a quotient of naturals;
* `mul`, `div`         the rounded product and quotient;
* `powerOfTen`         the rounded power.

Each number has one form: `m` has 53 digits unless `e` is the least exponent.
-/

namespace OverlayWatch

structure Binary64 where
  mantissa : Nat
  exponent : Int
deriving DecidableEq, Repr

namespace Binary64

def minExponent : Int := -1074

def maxExponent : Int := 971

/-- the least mantissa of 53 digits -/
def leastFull : Nat := 0x10000000000000

def zero : Binary64 := ⟨0, minExponent⟩

def isZero (x : Binary64) : Bool := x.mantissa == 0

/-- numerator and denominator of `n * 2 ^ e` -/
def ratio (n : Nat) (e : Int) : Nat × Nat := (n <<< e.toNat, 1 <<< (-e).toNat)

/-! ## rounding -/

/-- the quotient rounded to a natural, a tie to the even one -/
def divNearest (num den : Nat) : Nat :=
  let q := num / den
  let twice := 2 * (num % den)
  if twice < den ∨ (twice = den ∧ q % 2 = 0) then q else q + 1

/-- the exponent at which the quotient has 53 binary digits, or the least one -/
def exponentFor (num den : Nat) : Int :=
  let e : Int := (num.log2 : Int) - den.log2 - 53
  let fits (e : Int) : Bool := (num <<< (-e).toNat) / (den <<< e.toNat) < 2 * leastFull
  max minExponent (if fits e then e else if fits (e + 1) then e + 1 else e + 2)

def ofRatio (num den : Nat) : Option Binary64 :=
  if num = 0 then some zero
  else
    let e := exponentFor num den
    let m := divNearest (num <<< (-e).toNat) (den <<< e.toNat)
    let x : Binary64 := if m = 2 * leastFull then ⟨leastFull, e + 1⟩ else ⟨m, e⟩
    if x.exponent ≤ maxExponent then some x else none

def ofNat (n : Nat) : Option Binary64 := ofRatio n 1

theorem ofNat_zero : ofNat 0 = some zero := rfl

/-! ## arithmetic -/

def mul (x y : Binary64) : Option Binary64 :=
  let (num, den) := ratio (x.mantissa * y.mantissa) (x.exponent + y.exponent)
  ofRatio num den

/-- the divisor is not zero -/
def div (x y : Binary64) : Option Binary64 :=
  let (num, den) := ratio 1 (x.exponent - y.exponent)
  ofRatio (x.mantissa * num) (y.mantissa * den)

def powerOfTen (n : Nat) : Option Binary64 := ofNat (Nat.pow 10 n)

end Binary64

end OverlayWatch
