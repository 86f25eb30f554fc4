import OverlayWatch.Decimal.Binary64
import OverlayWatch.Text.Hex
import OverlayWatch.Text.Numeral
import OverlayWatch.Toml.Value

/-!
# TOML numbers and dates

* `readInteger`    decimal with a sign or none, or hexadecimal, octal or binary; 64 bits signed;
* `readFloat`      with a fraction or an exponent, infinite, or not a number;
* `readDateTime`   a date, a time of day, or both, with an offset or none; days exist in the calendar;
* `readNumber`     any of these.

Digits may be grouped by single underscores between them.  A float too large to be one is refused,
unless it is negative.
-/

namespace OverlayWatch.Toml

/-! ## digits -/

/-- what follows the first digit of a group -/
def readGroupRest (isDigit : Char → Bool) : Reader (List Char)
  | '_' :: c :: rest =>
    if isDigit c then (readGroupRest isDigit rest).map fun found => (c :: found.1, found.2) else none
  | ['_'] => none
  | c :: rest =>
    if isDigit c then (readGroupRest isDigit rest).map fun found => (c :: found.1, found.2)
    else some ([], c :: rest)
  | [] => some ([], [])

/-- digits, first to last, without the underscores -/
def readGroup (isDigit : Char → Bool) : Reader (List Char)
  | c :: rest =>
    if isDigit c then (readGroupRest isDigit rest).map fun found => (c :: found.1, found.2) else none
  | [] => none

/-- a sign or none; true for minus -/
def readSign : List Char → Bool × List Char
  | '-' :: rest => (true, rest)
  | '+' :: rest => (false, rest)
  | rest => (false, rest)

/-- a zero stands alone -/
def readWhole : Reader (List Char)
  | '0' :: rest => some (['0'], rest)
  | s => readGroup Char.isDigit s

/-! ## integers -/

def inRange (n : Int) : Bool := -0x8000000000000000 ≤ n && n ≤ 0x7FFFFFFFFFFFFFFF

/-- the digits of a base other than ten, after its mark -/
def readInBase (base : Nat) (s : List Char) : Option (Int × List Char) := do
  let isDigit (c : Char) : Bool := (OverlayWatch.Text.hexDigit? c).any (· < base)
  let (digits, rest) ← readGroup isDigit s
  let value (c : Char) : Nat := (OverlayWatch.Text.hexDigit? c).getD 0
  let n : Int := (digits.foldl (fun n c => base * n + value c) 0 : Nat)
  if inRange n then return (n, rest) else none

def readInteger : Reader Int
  | '0' :: 'x' :: rest => readInBase 16 rest
  | '0' :: 'o' :: rest => readInBase 8 rest
  | '0' :: 'b' :: rest => readInBase 2 rest
  | s => do
    let (negative, rest) := readSign s
    let (digits, rest) ← readWhole rest
    let magnitude : Int := OverlayWatch.Text.digitsValue digits
    let n := if negative then -magnitude else magnitude
    if inRange n then return (n, rest) else none

/-! ## floats -/

/-- whether `m * 10 ^ e` rounds beyond the largest float; far from the limit the number of digits
tells -/
def overflows (m : Nat) (e : Int) : Bool :=
  let magnitude := (Nat.toDigits 10 m).length + e
  if m = 0 ∨ magnitude < 309 then false
  else if 310 < magnitude then true
  else (Binary64.ofRatio (m * Nat.pow 10 e.toNat) (Nat.pow 10 (-e).toNat)).isNone

def readFraction : Reader (List Char)
  | '.' :: rest => readGroup Char.isDigit rest
  | _ => none

def readExponent (s : List Char) : Option (Int × List Char) :=
  let read (rest : List Char) : Option (Int × List Char) := do
    let (negative, rest) := readSign rest
    let (digits, rest) ← readGroup Char.isDigit rest
    let magnitude : Int := OverlayWatch.Text.digitsValue digits
    return (if negative then -magnitude else magnitude, rest)
  match s with
  | 'e' :: rest => read rest
  | 'E' :: rest => read rest
  | _ => none

/-- an exponent, or a fraction with an exponent or none: the digits and the exponent -/
def readTail (s : List Char) : Option (List Char × Int × List Char) :=
  match readExponent s, readFraction s with
  | some (e, rest), _ => some ([], e, rest)
  | none, some (fraction, 'e' :: rest) =>
    (readExponent ('e' :: rest)).map fun found => (fraction, found)
  | none, some (fraction, 'E' :: rest) =>
    (readExponent ('E' :: rest)).map fun found => (fraction, found)
  | none, some (fraction, rest) => some (fraction, 0, rest)
  | none, none => none

def readDecimal (s : List Char) : Option (List Char) := do
  let (negative, rest) := readSign s
  let (whole, rest) ← readWhole rest
  let (fraction, exponent, rest) ← readTail rest
  let m := OverlayWatch.Text.digitsValue (whole ++ fraction)
  if ¬ negative ∧ overflows m (exponent - fraction.length) then none else return rest

def readSpecial (s : List Char) : Option (List Char) :=
  match (readSign s).2 with
  | 'i' :: 'n' :: 'f' :: rest => some rest
  | 'n' :: 'a' :: 'n' :: rest => some rest
  | _ => none

def readFloat (s : List Char) : Option (List Char) := readDecimal s <|> readSpecial s

/-! ## dates and times -/

/-- a number of so many digits -/
def readFixed (width : Nat) (s : List Char) : Option (Nat × List Char) :=
  let digits := s.take width
  if digits.length = width ∧ digits.all Char.isDigit then
    some (OverlayWatch.Text.digitsValue digits, s.drop width)
  else none

def readMark (c : Char) : List Char → Option (List Char)
  | d :: rest => if d = c then some rest else none
  | [] => none

def isLeap (year : Nat) : Bool := year % 4 = 0 ∧ (year % 100 ≠ 0 ∨ year % 400 = 0)

def daysIn (year month : Nat) : Nat :=
  if month = 2 then (if isLeap year then 29 else 28)
  else if month = 4 ∨ month = 6 ∨ month = 9 ∨ month = 11 then 30
  else 31

def readDate (s : List Char) : Option (List Char) := do
  let (year, s) ← readFixed 4 s
  let s ← readMark '-' s
  let (month, s) ← readFixed 2 s
  let s ← readMark '-' s
  let (day, s) ← readFixed 2 s
  if 1 ≤ month ∧ month ≤ 12 ∧ 1 ≤ day ∧ day ≤ daysIn year month then return s else none

/-- hours and minutes -/
def readClock (s : List Char) : Option (List Char) := do
  let (hour, s) ← readFixed 2 s
  let s ← readMark ':' s
  let (minute, s) ← readFixed 2 s
  if hour ≤ 23 ∧ minute ≤ 59 then return s else none

/-- a second may be a leap second, and have a fraction -/
def readTime (s : List Char) : Option (List Char) := do
  let s ← readMark ':' (← readClock s)
  let (second, s) ← readFixed 2 s
  if 60 < second then none
  else
    match s with
    | '.' :: rest =>
      if (rest.head?.any Char.isDigit) then return rest.dropWhile Char.isDigit else return s
    | _ => return s

def readOffset : List Char → Option (List Char)
  | 'Z' :: rest => some rest
  | 'z' :: rest => some rest
  | '+' :: rest => readClock rest
  | '-' :: rest => readClock rest
  | s => some s

def isTimeMark (c : Char) : Bool := c == 'T' || c == 't' || c == ' '

def readDateTime (s : List Char) : Option (List Char) :=
  match readDate s with
  | some rest =>
    match rest with
    | c :: time => if isTimeMark c then (readTime time).bind readOffset <|> some rest else some rest
    | [] => some []
  | none => readTime s

/-! ## any of them -/

def readNumber (s : List Char) : Option (Value × List Char) :=
  (readDateTime s).map (fun rest => (.datetime, rest)) <|>
    (readFloat s).map (fun rest => (.float, rest)) <|>
    (readInteger s).map (fun found => (.integer found.1, found.2))

end OverlayWatch.Toml
