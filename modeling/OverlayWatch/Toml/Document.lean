import OverlayWatch.Toml.Scalar
import OverlayWatch.Toml.Table
import OverlayWatch.Toml.Text

/-!
# Reading TOML

* `readPath`    a key, or several with points between them;
* `readValue`   a value, nested at most so deep;
* `readLine`    a key and its value;
* `document?`   a whole document as a table, or nothing if the text is none.

Arrays may run over several lines and end with a comma; tables between braces may do neither.
-/

namespace OverlayWatch.Toml

/-! ## keys -/

def isBareKey (c : Char) : Bool := c.isAlphanum || c == '_' || c == '-'

def readKey (s : List Char) : Option (String × List Char) :=
  match s.takeWhile isBareKey with
  | [] => readLineText s
  | key => some (String.ofList key, s.dropWhile isBareKey)

/-- blanks may stand around each key; the last one is named apart -/
def readPathRest : (limit : Nat) → Reader (List String × String)
  | 0, _ => none
  | limit + 1, s => do
    let (key, rest) ← readKey (skipBlanks s)
    match skipBlanks rest with
    | '.' :: rest => do
      let ((path, last), rest) ← readPathRest limit rest
      return ((key :: path, last), rest)
    | rest => return (([], key), rest)

/-- values nest, and keys chain, less than this deep -/
def fullDepth : Nat := 80

def readPath (s : List Char) : Option ((List String × String) × List Char) :=
  (readPathRest (s.length + 1) s).bind fun found =>
    if found.1.1.length + 1 < fullDepth then some found else none

/-! ## values -/

/-- the items of an array up to its closing bracket, each by the reader given -/
def readItems {α : Type} (item : Reader α) : (limit : Nat) → Reader (List α)
  | 0, _ => none
  | limit + 1, s =>
    match skipAllFiller s with
    | ']' :: rest => some ([], rest)
    | s => do
      let (x, rest) ← item s
      match skipAllFiller rest with
      | ',' :: rest => do
        let (xs, rest) ← readItems item limit rest
        return (x :: xs, rest)
      | ']' :: rest => return ([x], rest)
      | _ => none

def readLine (value : Reader Value) (s : List Char) : Option (Line × List Char) := do
  let ((path, key), rest) ← readPath s
  match rest with
  | '=' :: rest => do
    let (v, rest) ← value (skipBlanks rest)
    return (⟨path, key, v⟩, rest)
  | _ => none

/-- the lines of a table between braces, which are on one line -/
def readBraced (value : Reader Value) : (limit : Nat) → Reader (List Line)
  | 0, _ => none
  | limit + 1, s => do
    let (line, rest) ← readLine value s
    match skipBlanks rest with
    | ',' :: rest => do
      let (lines, rest) ← readBraced value limit rest
      return (line :: lines, rest)
    | '}' :: rest => return ([line], rest)
    | _ => none

def readValue : (depth : Nat) → Reader Value
  | 0, _ => none
  | depth + 1, s =>
    match s with
    | '[' :: rest =>
      if depth = 0 then none
      else (readItems (readValue depth) (rest.length + 1) rest).map fun found =>
        (.array found.1, found.2)
    | '{' :: rest =>
      if depth = 0 then none
      else
        match skipBlanks rest with
        | '}' :: rest => some (.table [], rest)
        | rest => do
          let (lines, rest) ← readBraced (readValue depth) (rest.length + 1) rest
          return (← inlineTable lines, rest)
    | '"' :: _ => (readText s).map fun found => (.string found.1, found.2)
    | '\'' :: _ => (readText s).map fun found => (.string found.1, found.2)
    | 't' :: 'r' :: 'u' :: 'e' :: rest => some (.bool true, rest)
    | 'f' :: 'a' :: 'l' :: 's' :: 'e' :: rest => some (.bool false, rest)
    | s => readNumber s

/-! ## documents -/

def readHeader : List Char → Option (Header × List Char)
  | '[' :: '[' :: rest => do
    let ((path, key), rest) ← readPath rest
    match rest with
    | ']' :: ']' :: rest => return (.element path key, ← endLine rest)
    | _ => none
  | '[' :: rest => do
    let ((path, key), rest) ← readPath rest
    match rest with
    | ']' :: rest => return (.table path key, ← endLine rest)
    | _ => none
  | _ => none

/-- the lines up to the next header, and the sections from there on -/
def readSections : (limit : Nat) → List Char → Option (List Line × List Section)
  | 0, _ => none
  | limit + 1, s =>
    match skipBlanks s with
    | [] => some ([], [])
    | '[' :: rest => do
      let (header, rest) ← readHeader ('[' :: rest)
      let (lines, sections) ← readSections limit rest
      return ([], ⟨header, lines⟩ :: sections)
    | c :: rest =>
      if c = '#' ∨ c = '\n' ∨ c = '\r' then do readSections limit (← endLine (c :: rest))
      else do
        let (line, rest) ← readLine (readValue fullDepth) (c :: rest)
        let (lines, sections) ← readSections limit (← endLine rest)
        return (line :: lines, sections)

/-- a byte order mark in front does not count -/
def dropMark : List Char → List Char
  | '\ufeff' :: rest => rest
  | s => s

def document? (text : String) : Option Value := do
  let s := dropMark text.toList
  let (lines, sections) ← readSections (s.length + 1) s
  assemble lines sections

end OverlayWatch.Toml
