import OverlayWatch.Text.Hex
import OverlayWatch.Toml.Blank

/-!
# TOML strings

* `readBasic`            between quotes, with escapes, on one line;
* `readLiteral`          between apostrophes, as it stands, on one line;
* `readMultiline`        between triple quotes or triple apostrophes, over several lines;
* `readText`             any of these.

A line end right after the opening delimiter does not count, and line ends inside are read as one
newline character.  Up to two quotes may stand right before the closing three.
-/

namespace OverlayWatch.Toml

/-! ## escapes -/

def shortEscape? : Char → Option Char
  | 'b' => some '\x08'
  | 't' => some '\t'
  | 'n' => some '\n'
  | 'f' => some '\x0c'
  | 'r' => some '\r'
  | '"' => some '"'
  | '\\' => some '\\'
  | _ => none

/-- a code point in `width` digits; halves of code points are none -/
def readCodePoint (width : Nat) (s : List Char) : Option (Char × List Char) :=
  let digits := s.take width
  (OverlayWatch.Text.hexValue? digits).bind fun n =>
    if digits.length = width ∧ n.isValidChar then some (Char.ofNat n, s.drop width) else none

/-- what follows a backslash -/
def readEscape : List Char → Option (Char × List Char)
  | 'u' :: rest => readCodePoint 4 rest
  | 'U' :: rest => readCodePoint 8 rest
  | c :: rest => (shortEscape? c).map fun e => (e, rest)
  | [] => none

/-! ## on one line -/

def readBasic : (limit : Nat) → Reader (List Char)
  | 0, _ => none
  | _ + 1, [] => none
  | limit + 1, c :: rest =>
    if c = '"' then some ([], rest)
    else if c = '\\' then do
      let (e, rest) ← readEscape rest
      let (more, rest) ← readBasic limit rest
      return (e :: more, rest)
    else if isPlain c then do
      let (more, rest) ← readBasic limit rest
      return (c :: more, rest)
    else none

def readLiteral (s : List Char) : Option (List Char × List Char) :=
  let inside := s.takeWhile fun c => isPlain c && c != '\''
  match s.drop inside.length with
  | '\'' :: rest => some (inside, rest)
  | _ => none

/-! ## over several lines -/

/-- a backslash at the end of a line joins it to the next text -/
def joinLines? (s : List Char) : Option (List Char) :=
  (newline? (skipBlanks s)).map fun rest => skipLines rest.length rest

/-- `delimiter` is the quote that stands three times at either end; only between double quotes does a
backslash escape -/
def readMultiline (delimiter : Char) : (limit : Nat) → Reader (List Char)
  | 0, _ => none
  | _ + 1, [] => none
  | limit + 1, c :: rest =>
    if c = delimiter then
      let quotes := ((c :: rest).takeWhile (· == delimiter)).length
      if 3 ≤ quotes then
        let inside := min (quotes - 3) 2
        some (List.replicate inside delimiter, (c :: rest).drop (inside + 3))
      else do
        let (more, rest) ← readMultiline delimiter limit rest
        return (c :: more, rest)
    else if c = '\\' ∧ delimiter = '"' then
      match joinLines? rest with
      | some after => readMultiline delimiter limit after
      | none => do
        let (e, rest) ← readEscape rest
        let (more, rest) ← readMultiline delimiter limit rest
        return (e :: more, rest)
    else
      match newline? (c :: rest) with
      | some rest => do
        let (more, rest) ← readMultiline delimiter limit rest
        return ('\n' :: more, rest)
      | none =>
        if isPlain c then do
          let (more, rest) ← readMultiline delimiter limit rest
          return (c :: more, rest)
        else none

/-! ## any string -/

def openMultiline (delimiter : Char) (s : List Char) : Option (List Char × List Char) :=
  let s := (newline? s).getD s
  readMultiline delimiter s.length s

/-- on one line, as keys have to be -/
def readLineText : List Char → Option (String × List Char)
  | '"' :: rest => (readBasic rest.length rest).map fun found => (String.ofList found.1, found.2)
  | '\'' :: rest => (readLiteral rest).map fun found => (String.ofList found.1, found.2)
  | _ => none

def readText : List Char → Option (String × List Char)
  | '"' :: '"' :: '"' :: rest =>
    (openMultiline '"' rest).map fun found => (String.ofList found.1, found.2)
  | '\'' :: '\'' :: '\'' :: rest =>
    (openMultiline '\'' rest).map fun found => (String.ofList found.1, found.2)
  | s => readLineText s

end OverlayWatch.Toml
