import OverlayWatch.Json.Token

/-!
# Skipping a JSON value

A value that nobody asked for is passed over without being built.  It may nest without limit, its
numbers may be of any size, its strings may hold halves of code points that stand alone, and a number
that breaks off is malformed even at the end of the text.

* `skipValue`   what follows the value.
-/

namespace OverlayWatch.Json

inductive Bracket where
  | list
  | object
deriving DecidableEq, Repr

/-- where in a value the text stands: before a value, right after an opening bracket, before the next
field of an object, or after a value -/
inductive SkipPhase where
  | value
  | opened
  | field
  | after
deriving DecidableEq, Repr

/-- what follows a backslash -/
def skipEscape : List Char → Except Error (List Char)
  | [] => .error .eof
  | 'u' :: rest => (readHex4 rest).map Prod.snd
  | c :: rest => if (shortEscape? c).isSome then .ok rest else .error .malformed

def skipChars : (limit : Nat) → List Char → Except Error (List Char)
  | 0, _ => .error .eof
  | _ + 1, [] => .error .eof
  | limit + 1, c :: rest =>
    if c = '"' then .ok rest
    else if c = '\\' then (skipEscape rest).bind (skipChars limit)
    else if c.toNat < 0x20 then .error .malformed
    else skipChars limit rest

def skipString (s : List Char) : Except Error (List Char) := skipChars s.length s

def skipNumber (s : List Char) : Except Error (List Char) :=
  match Number.scan s with
  | .error _ => .error .malformed
  | .ok (_, rest) => .ok rest

def skipScalar (c : Char) (rest : List Char) : Except Error (List Char) :=
  match c with
  | 'n' => (readWord ['u', 'l', 'l'] rest).map Prod.snd
  | 't' => (readWord ['r', 'u', 'e'] rest).map Prod.snd
  | 'f' => (readWord ['a', 'l', 's', 'e'] rest).map Prod.snd
  | '"' => skipString rest
  | c => if isNumberStart c then skipNumber (c :: rest) else .error .malformed

/-- a field name and the colon after it -/
def skipName (s : List Char) : Except Error (List Char) :=
  match skipBlanks s with
  | [] => .error .eof
  | '"' :: rest => do
    match skipBlanks (← skipString rest) with
    | [] => .error .eof
    | ':' :: rest => .ok rest
    | _ => .error .malformed
  | _ => .error .malformed

def closes (bracket : Bracket) (c : Char) : Bool :=
  match bracket with
  | .list => c == ']'
  | .object => c == '}'

/-- where the items of a bracket start -/
def SkipPhase.inside : Bracket → SkipPhase
  | .list => .value
  | .object => .field

/-- passes over what is left of a value within the open brackets; every second step takes a character
of the text, so twice its length and one more are steps enough -/
def skipIn : (limit : Nat) → SkipPhase → List Bracket → List Char → Except Error (List Char)
  | 0, _, _, _ => .error .eof
  | limit + 1, .value, open_, s =>
    match skipBlanks s with
    | [] => .error .eof
    | '[' :: rest => skipIn limit .opened (.list :: open_) rest
    | '{' :: rest => skipIn limit .opened (.object :: open_) rest
    | c :: rest => (skipScalar c rest).bind (skipIn limit .after open_)
  | limit + 1, .field, open_, s => (skipName s).bind (skipIn limit .value open_)
  | _ + 1, .opened, [], s => .ok s
  | limit + 1, .opened, bracket :: outer, s =>
    match skipBlanks s with
    | [] => .error .eof
    | c :: rest =>
      if closes bracket c then skipIn limit .after outer rest
      else skipIn limit (.inside bracket) (bracket :: outer) (c :: rest)
  | _ + 1, .after, [], s => .ok s
  | limit + 1, .after, bracket :: outer, s =>
    match skipBlanks s with
    | [] => .error .eof
    | c :: rest =>
      if c = ',' then skipIn limit (.inside bracket) (bracket :: outer) rest
      else if closes bracket c then skipIn limit .after outer rest
      else .error .malformed

def skipValue (s : List Char) : Except Error (List Char) :=
  skipIn (2 * s.length + 2) .value [] s

end OverlayWatch.Json
