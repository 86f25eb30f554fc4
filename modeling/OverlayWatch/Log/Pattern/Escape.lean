import OverlayWatch.Text.Blank
import OverlayWatch.Text.Hex

/-!
# Modes and escapes of a pattern

A pattern is read as speaking of characters or of bytes, with upper and lower case apart or alike,
and with or without blanks between its parts.  What a mode admits follows two rules:

* a pattern of characters must not need a table of Unicode, so it has no classes of digits, blanks
  and word characters, no word edges, and nothing whose case is to be ignored;
* a pattern of bytes must not match a part of a character, so it has no bytes beyond ASCII and no
  complements.

* `Mode`             how a pattern is read; `Mode.admits` and the like, what it admits;
* `Mode.skip`        what is left after the blanks and comments that do not count;
* `Mode.escape?`     what a backslash and the characters after it stand for.
-/

namespace OverlayWatch.Pattern

structure Mode where
  caseless : Bool
  /-- the pattern speaks of characters, not of bytes -/
  unicode : Bool
  /-- blanks and comments do not count -/
  spaced : Bool
deriving DecidableEq, Repr

structure Literal where
  char : Char
  /-- written as a byte of two hexadecimal digits -/
  isByte : Bool
deriving DecidableEq, Repr

inductive Escaped where
  | literal (l : Literal)
  /-- the digits, the blanks, the word characters, or the complement of one of these -/
  | class (negated : Bool)
  /-- the start or the end of the text -/
  | textEdge
  | wordEdge
deriving DecidableEq, Repr

namespace Mode

def initial : Mode := ⟨false, true, false⟩

/-! ## what is admitted -/

def admits (m : Mode) (l : Literal) : Bool :=
  if m.unicode then !m.caseless else !l.isByte || l.char.toNat < 0x80

/-- in a set of bytes there is no room for other characters -/
def admitsInSet (m : Mode) (l : Literal) : Bool :=
  if m.unicode then !m.caseless else l.char.toNat < 0x80

def admitsClass (m : Mode) (negated : Bool) : Bool := !m.unicode && !negated

/-- a class of ASCII characters, called by name -/
def admitsNamed (m : Mode) (negated : Bool) : Bool := if m.unicode then !m.caseless else !negated

def admitsSet (m : Mode) (negated : Bool) : Bool := m.unicode || !negated

/-! ## blanks -/

/-- after a number sign all is comment, up to the end of the line -/
def skipBlanks : Bool → List Char → List Char
  | _, [] => []
  | true, c :: rest => skipBlanks (c != '\n') rest
  | false, c :: rest =>
    if Text.isBlank c then skipBlanks false rest
    else if c == '#' then skipBlanks true rest
    else c :: rest

def skip (m : Mode) (s : List Char) : List Char := if m.spaced then skipBlanks false s else s

theorem skip_nil (m : Mode) : m.skip [] = [] := by
  unfold skip
  split <;> rfl

/-- the next character that counts, for which one number sign does not -/
def peek? (m : Mode) (s : List Char) : Option Char :=
  if m.spaced then
    match s.dropWhile Text.isBlank with
    | '#' :: rest => (rest.dropWhile Text.isBlank).head?
    | rest => rest.head?
  else s.head?

/-! ## escapes -/

/-- the code point of a number of digits, between which blanks may stand -/
def codePoint? (m : Mode) : Nat → Nat → List Char → Option (Char × List Char)
  | 0, n, s => if n.isValidChar then some (Char.ofNat n, s) else none
  | digits + 1, n, s =>
    match m.skip s with
    | [] => none
    | c :: rest => (Text.hexDigit? c).bind fun d => m.codePoint? digits (16 * n + d) rest

/-- the characters that have a letter of their own -/
def control? : Char → Option Char
  | 'a' => some '\x07'
  | 't' => some '\t'
  | 'n' => some '\n'
  | 'v' => some '\x0B'
  | 'f' => some '\x0C'
  | 'r' => some '\r'
  | _ => none

/-- marks lose their meaning after a backslash; letters and digits gain one or are refused -/
def escape? (m : Mode) : List Char → Option (Escaped × List Char)
  | [] => none
  | c :: rest =>
    if c == 'x' then (m.codePoint? 2 0 rest).map fun r => (.literal ⟨r.1, true⟩, r.2)
    else if c == 'u' then (m.codePoint? 4 0 rest).map fun r => (.literal ⟨r.1, false⟩, r.2)
    else if c == 'U' then (m.codePoint? 8 0 rest).map fun r => (.literal ⟨r.1, false⟩, r.2)
    else if ['d', 's', 'w'].contains c then some (.class false, rest)
    else if ['D', 'S', 'W'].contains c then some (.class true, rest)
    else if ['A', 'z'].contains c then some (.textEdge, rest)
    else if ['b', 'B', '<', '>'].contains c then some (.wordEdge, rest)
    else if c.isAlphanum then (control? c).map fun control => (.literal ⟨control, false⟩, rest)
    else if c.toNat < 0x80 then some (.literal ⟨c, false⟩, rest)
    else none

end Mode

end OverlayWatch.Pattern
