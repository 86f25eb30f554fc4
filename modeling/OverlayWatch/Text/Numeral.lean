/-!
# Numerals

A numeral is one or more decimal digits, with one plus sign in front or none, and stands for a number
of at most 64 bits.  Leading zeros do not count.  A real number may have a sign, a point and an
exponent, or be infinite or none.

* `numeral?`   the number, if the text is a numeral;
* `isReal`     whether the text is a real number.
-/

namespace OverlayWatch.Text

def digitsValue (digits : List Char) : Nat :=
  digits.foldl (fun n c => 10 * n + (c.toNat - '0'.toNat)) 0

theorem digitsValue_nil : digitsValue [] = 0 := rfl

/-- without the sign -/
def unsigned : List Char → List Char
  | '+' :: rest => rest
  | s => s

def numeral? (text : String) : Option Nat :=
  let digits := unsigned text.toList
  if digits ≠ [] ∧ digits.all Char.isDigit ∧ digitsValue digits ≤ 0xFFFFFFFFFFFFFFFF then
    some (digitsValue digits)
  else none

/-! ## real numbers -/

/-- the digits that a text begins with, and the rest -/
def spanDigits (s : List Char) : List Char × List Char := s.span Char.isDigit

def afterSign : List Char → List Char
  | '+' :: rest => rest
  | '-' :: rest => rest
  | s => s

def isExponent : List Char → Bool
  | [] => true
  | c :: rest =>
    let digits := afterSign rest
    (c == 'e' || c == 'E') && !digits.isEmpty && digits.all Char.isDigit

/-- there are digits before the point or behind it -/
def isReal (s : List Char) : Bool :=
  let magnitude := afterSign s
  let (whole, rest) := spanDigits magnitude
  let (fraction, rest) : List Char × List Char :=
    match rest with
    | '.' :: rest => spanDigits rest
    | rest => ([], rest)
  ["inf", "infinity", "nan"].contains (String.ofList magnitude).toLower ||
    ((!whole.isEmpty || !fraction.isEmpty) && isExponent rest)

end OverlayWatch.Text
