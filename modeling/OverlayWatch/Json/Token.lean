import OverlayWatch.Json.Error

/-!
# Reading the parts of a JSON text

A reader takes what it reads off the front of a text and hands back the rest.

* `skipBlanks`     blanks between parts: space, tab and the two line ends;
* `readString`     a string after its opening quote, escapes resolved;
* `readNumber`     a number;
* `readWord`       the rest of `null`, `true` or `false`.

Code points beyond 16 bits are escaped as two halves; a half that stands alone is malformed.
-/

namespace OverlayWatch.Json

abbrev Reader (α : Type) := List Char → Except Error (α × List Char)

/-! ## blanks and words -/

def isBlank (c : Char) : Bool := c == ' ' || c == '\t' || c == '\n' || c == '\r'

def skipBlanks (s : List Char) : List Char := s.dropWhile isBlank

theorem skipBlanks_nil : skipBlanks [] = [] := rfl

def readWord : (word : List Char) → Reader Unit
  | [], s => .ok ((), s)
  | _ :: _, [] => .error .eof
  | w :: word, c :: rest => if c = w then readWord word rest else .error .malformed

/-! ## escapes -/

/-- four hexadecimal digits; a text too short for them in encoded form ends too early -/
def readHex4 (s : List Char) : Except Error (Nat × List Char) :=
  match Text.hexValue? (s.take 4) with
  | some n => if (s.take 4).length = 4 then .ok (n, s.drop 4) else .error .eof
  | none => if (String.ofList s).utf8ByteSize < 4 then .error .eof else .error .malformed

def isHighHalf (n : Nat) : Bool := 0xD800 ≤ n && n ≤ 0xDBFF

def isLowHalf (n : Nat) : Bool := 0xDC00 ≤ n && n ≤ 0xDFFF

def joinHalves (high low : Nat) : Nat := (high - 0xD800) * 0x400 + (low - 0xDC00) + 0x10000

/-- what follows the letter of a code point escape -/
def readCodePoint (s : List Char) : Except Error (Char × List Char) := do
  let (n, rest) ← readHex4 s
  if isLowHalf n then .error .malformed
  else if isHighHalf n then
    match rest with
    | '\\' :: 'u' :: rest =>
      let (low, rest) ← readHex4 rest
      if isLowHalf low then return (Char.ofNat (joinHalves n low), rest) else .error .malformed
    | [] => .error .eof
    | ['\\'] => .error .eof
    | _ => .error .malformed
  else return (Char.ofNat n, rest)

/-- the characters written with a backslash and a letter -/
def shortEscape? : Char → Option Char
  | '"' => some '"'
  | '\\' => some '\\'
  | '/' => some '/'
  | 'b' => some '\x08'
  | 'f' => some '\x0c'
  | 'n' => some '\n'
  | 'r' => some '\r'
  | 't' => some '\t'
  | _ => none

/-- what follows a backslash -/
def readEscape : List Char → Except Error (Char × List Char)
  | [] => .error .eof
  | 'u' :: rest => readCodePoint rest
  | c :: rest =>
    match shortEscape? c with
    | some e => .ok (e, rest)
    | none => .error .malformed

/-! ## strings -/

/-- characters up to the closing quote; a text of `limit` characters is read to its end -/
def readChars : (limit : Nat) → Reader (List Char)
  | 0, _ => .error .eof
  | _ + 1, [] => .error .eof
  | limit + 1, c :: rest =>
    if c = '"' then .ok ([], rest)
    else if c = '\\' then do
      let (e, rest) ← readEscape rest
      let (more, rest) ← readChars limit rest
      return (e :: more, rest)
    else if c.toNat < 0x20 then .error .malformed
    else do
      let (more, rest) ← readChars limit rest
      return (c :: more, rest)

def readString (s : List Char) : Except Error (String × List Char) :=
  (readChars s.length s).map fun found => (String.ofList found.1, found.2)

/-! ## numbers -/

def isNumberStart (c : Char) : Bool := c == '-' || c.isDigit

/-- a number out of range is malformed -/
def readNumber (s : List Char) : Except Error (Number × List Char) :=
  match Number.scan s with
  | .error rest => .error (.at rest)
  | .ok (lexeme, rest) =>
    match lexeme.value? with
    | some n => .ok (n, rest)
    | none => .error .malformed

end OverlayWatch.Json
