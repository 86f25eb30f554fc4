/-!
# Hexadecimal digits

* `hexDigit?`    the value of a digit, either case;
* `hexText`      a number in lower-case digits without leading zeros;
* `hexText4`     the same, padded to four digits.
-/

namespace OverlayWatch.Text

def hexDigit? (c : Char) : Option Nat :=
  if '0' ≤ c ∧ c ≤ '9' then some (c.toNat - '0'.toNat)
  else if 'a' ≤ c ∧ c ≤ 'f' then some (c.toNat - 'a'.toNat + 10)
  else if 'A' ≤ c ∧ c ≤ 'F' then some (c.toNat - 'A'.toNat + 10)
  else none

def hexText (n : Nat) : List Char := Nat.toDigits 16 n

def hexText4 (n : Nat) : List Char :=
  let digits := hexText n
  List.replicate (4 - digits.length) '0' ++ digits

/-- the number that a text of digits denotes; `none` if one is not a digit -/
def hexValue? (digits : List Char) : Option Nat :=
  digits.foldlM (fun n c => (hexDigit? c).map (16 * n + ·)) 0

theorem hexValue?_nil : hexValue? [] = some 0 := rfl

end OverlayWatch.Text
