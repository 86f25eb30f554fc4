import OverlayWatch.Decimal.Shortest

/-!
# JSON numbers

A number without fraction and exponent is an integer as long as it fits 64 bits, signed when it has
a minus sign; every other number is a float.  A float is made from the digits that fit 64 bits and a
power of ten, by one rounded multiplication or division (by several for powers beyond 308).

* `Number`              integer, or signed float;
* `Number.text`         the shortest text, positional for exponents from -5 to 15;
* `Number.scan`         splits a number off a text; what is left over tells where it goes wrong;
* `Lexeme.value?`       the number that a split-off text stands for, `none` when out of range.
-/

namespace OverlayWatch.Json

inductive Number where
  | integer (n : Int)
  | float (negative : Bool) (magnitude : Binary64)
deriving DecidableEq, Repr

namespace Number

/-! ## text -/

/-- the exponents of the first digit for which a float is written out in full -/
def positional (exponent : Int) : Bool := -5 ≤ exponent && exponent ≤ 15

/-- with a point somewhere after the first of the digits -/
def positionalText (digits : List Char) (exponent : Int) : List Char :=
  if exponent < 0 then
    ['0', '.'] ++ List.replicate (-exponent - 1).toNat '0' ++ digits
  else
    let whole := exponent.toNat + 1
    let padded := digits ++ List.replicate (whole - digits.length) '0'
    let fraction := padded.drop whole
    padded.take whole ++ ['.'] ++ (if fraction.isEmpty then ['0'] else fraction)

def exponentText (digits : List Char) (exponent : Int) : List Char :=
  let point := if digits.length = 1 then [] else ['.']
  digits.take 1 ++ point ++ digits.drop 1 ++ ['e', if exponent < 0 then '-' else '+'] ++
    Nat.toDigits 10 exponent.natAbs

def magnitudeText (x : Binary64) : List Char :=
  let d := x.shortest
  let digits := Nat.toDigits 10 d.digits
  let exponent := d.exponent + digits.length - 1
  if positional exponent then positionalText digits exponent else exponentText digits exponent

def text : Number → List Char
  | .integer n => (toString n).toList
  | .float negative x => (if negative then ['-'] else []) ++ magnitudeText x

/-! ## splitting -/

/-- the parts of a number as written -/
structure Lexeme where
  negative : Bool
  whole : List Char
  fraction : Option (List Char)
  /-- sign (true for minus) and digits -/
  exponent : Option (Bool × List Char)
deriving DecidableEq, Repr

def scanDigits (s : List Char) : List Char × List Char :=
  (s.takeWhile Char.isDigit, s.dropWhile Char.isDigit)

/-- at least one digit; an error carries the text at which a digit is missing -/
def scanDigits1 (s : List Char) : Except (List Char) (List Char × List Char) :=
  match scanDigits s with
  | ([], rest) => .error rest
  | found => .ok found

/-- no digit follows a leading zero -/
def scanWhole (s : List Char) : Except (List Char) (List Char × List Char) :=
  match scanDigits1 s with
  | .ok ('0' :: digit :: more, rest) => .error (digit :: more ++ rest)
  | found => found

def scanFraction : List Char → Except (List Char) (Option (List Char) × List Char)
  | '.' :: rest => (scanDigits1 rest).map fun found => (some found.1, found.2)
  | rest => .ok (none, rest)

def scanSign : List Char → Bool × List Char
  | '-' :: rest => (true, rest)
  | '+' :: rest => (false, rest)
  | rest => (false, rest)

def scanExponent (s : List Char) : Except (List Char) (Option (Bool × List Char) × List Char) :=
  let read (rest : List Char) :=
    let (negative, rest) := scanSign rest
    (scanDigits1 rest).map fun found => (some (negative, found.1), found.2)
  match s with
  | 'e' :: rest => read rest
  | 'E' :: rest => read rest
  | rest => .ok (none, rest)

def scan (s : List Char) : Except (List Char) (Lexeme × List Char) := do
  let (negative, rest) := match s with
    | '-' :: rest => (true, rest)
    | rest => (false, rest)
  let (whole, rest) ← scanWhole rest
  let (fraction, rest) ← scanFraction rest
  let (exponent, rest) ← scanExponent rest
  return (⟨negative, whole, fraction, exponent⟩, rest)

/-! ## values -/

def digitValue (c : Char) : Nat := c.toNat - '0'.toNat

def natValue (digits : List Char) : Nat := digits.foldl (fun n c => 10 * n + digitValue c) 0

def maxSignificand : Nat := 0xFFFFFFFFFFFFFFFF

/-- appends digits to a significand while it fits 64 bits; also how many were appended -/
def appendFitting (significand : Nat) : List Char → Nat × Nat
  | [] => (significand, 0)
  | c :: rest =>
    let next := 10 * significand + digitValue c
    if next ≤ maxSignificand then
      let (result, used) := appendFitting next rest
      (result, used + 1)
    else (significand, 0)

theorem appendFitting_nil (significand : Nat) : appendFitting significand [] = (significand, 0) := rfl

/-- `x * 10 ^ e`, in steps of at most 308 decimal places; `none` when too large -/
def scaleBy : Nat → Binary64 → Int → Option Binary64
  | 0, _, _ => some .zero
  | steps + 1, x, e =>
    if e.natAbs ≤ 308 then
      (Binary64.powerOfTen e.natAbs).bind fun p => if 0 ≤ e then x.mul p else x.div p
    else if x.isZero then some .zero
    else if 0 ≤ e then none
    else
      (Binary64.powerOfTen 308).bind fun p => (x.div p).bind fun y => scaleBy steps y (e + 308)

def floatOf (negative : Bool) (significand : Nat) (exponent : Int) : Option Number :=
  (Binary64.ofNat significand).bind fun x =>
    (scaleBy 4 x exponent).map (.float negative)

/-- exponents beyond 31 bits are not computed with: they are too large, or give zero -/
def maxExponent : Nat := 0x7FFFFFFF

def floatWithExponent (negative : Bool) (significand : Nat) (places : Int) :
    Option (Bool × List Char) → Option Number
  | none => floatOf negative significand places
  | some (down, digits) =>
    let e := natValue digits
    if maxExponent < e then
      if significand ≠ 0 ∧ ¬ down then none else some (.float negative .zero)
    else floatOf negative significand (if down then places - e else places + e)

/-- a negative integer must be below zero and not below the least of 64 bits -/
def integerOf (negative : Bool) (significand : Nat) : Option Number :=
  if ¬ negative then some (.integer significand)
  else if 0 < significand ∧ significand ≤ 0x8000000000000000 then some (.integer (-significand))
  else (Binary64.ofNat significand).map (.float true)

def Lexeme.value? (l : Lexeme) : Option Number :=
  let (whole, used) := appendFitting 0 l.whole
  let dropped : Int := l.whole.length - used
  match l.fraction, l.exponent with
  | none, none => if dropped = 0 then integerOf l.negative whole else floatOf l.negative whole dropped
  | none, e => floatWithExponent l.negative whole dropped e
  | some fraction, e =>
    let (significand, places) := appendFitting whole fraction
    floatWithExponent l.negative significand (dropped - places) e

end Number

end OverlayWatch.Json
