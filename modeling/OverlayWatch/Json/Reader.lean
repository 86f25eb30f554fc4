import OverlayWatch.Json.Skip

/-!
# Reading arrays, objects and whole values

* `nextItem`, `nextName`     is there another item or field, and where does it start;
* `readItems`, `readFields`  all that are left, each by the reader given for it;
* `closeList`, `closeObject` the closing bracket;
* `readValue`                a whole value, nested at most so deep.

A comma must be followed by an item or a field.  Brackets count against the depth that is left, and
the text is malformed where it runs out.
-/

namespace OverlayWatch.Json

/-! ## items -/

/-- whether an item follows; the text then starts with it, and with the bracket otherwise -/
def nextItem (first : Bool) (s : List Char) : Except Error (Bool × List Char) :=
  match skipBlanks s with
  | [] => .error .eof
  | ']' :: rest => .ok (false, ']' :: rest)
  | c :: rest =>
    if first then .ok (true, c :: rest)
    else if c = ',' then
      match skipBlanks rest with
      | [] => .error .eof
      | ']' :: _ => .error .malformed
      | rest => .ok (true, rest)
    else .error .malformed

def readItems {α : Type} (item : Reader α) : (limit : Nat) → (first : Bool) → Reader (List α)
  | 0, _, _ => .error .eof
  | limit + 1, first, s => do
    let (more, s) ← nextItem first s
    if more then
      let (x, s) ← item s
      let (xs, s) ← readItems item limit false s
      return (x :: xs, s)
    else return ([], s)

def closeList (s : List Char) : Except Error (List Char) :=
  match skipBlanks s with
  | [] => .error .eof
  | ']' :: rest => .ok rest
  | _ => .error .malformed

/-! ## fields -/

/-- the name of the next field, if there is one; the text then starts behind the name -/
def nextName (first : Bool) (s : List Char) : Except Error (Option String × List Char) :=
  let named (s : List Char) : Except Error (Option String × List Char) :=
    match s with
    | [] => .error .eof
    | '"' :: rest => (readString rest).map fun found => (some found.1, found.2)
    | _ => .error .malformed
  match skipBlanks s with
  | [] => .error .eof
  | '}' :: rest => .ok (none, '}' :: rest)
  | c :: rest =>
    if first then named (c :: rest)
    else if c = ',' then named (skipBlanks rest)
    else .error .malformed

def readColon (s : List Char) : Except Error (List Char) :=
  match skipBlanks s with
  | [] => .error .eof
  | ':' :: rest => .ok rest
  | _ => .error .malformed

/-- `field` is given the name, what has been made of the fields so far, and the text behind the
name -/
def readFields {σ : Type} (field : String → σ → Reader σ) :
    (limit : Nat) → (first : Bool) → σ → Reader σ
  | 0, _, _, _ => .error .eof
  | limit + 1, first, acc, s => do
    let (name?, s) ← nextName first s
    match name? with
    | none => return (acc, s)
    | some name =>
      let (acc, s) ← field name acc s
      readFields field limit false acc s

def closeObject (s : List Char) : Except Error (List Char) :=
  match skipBlanks s with
  | [] => .error .eof
  | '}' :: rest => .ok rest
  | _ => .error .malformed

/-! ## whole values -/

/-- the depth that a text starts with -/
def fullDepth : Nat := 128

/-- the depth left within a bracket -/
def enter (depth : Nat) : Except Error Nat :=
  if depth ≤ 1 then .error .malformed else .ok (depth - 1)

/-- the fields of an object, last first -/
def collectField (value : Reader Value) (name : String) (fields : List (String × Value)) :
    Reader (List (String × Value)) := fun s => do
  let s ← readColon s
  let (v, s) ← value s
  return ((name, v) :: fields, s)

def readValue : (depth : Nat) → Reader Value
  | 0, _ => .error .malformed
  | depth + 1, s =>
    match skipBlanks s with
    | [] => .error .eof
    | 'n' :: rest => (readWord ['u', 'l', 'l'] rest).map fun found => (.null, found.2)
    | 't' :: rest => (readWord ['r', 'u', 'e'] rest).map fun found => (.bool true, found.2)
    | 'f' :: rest => (readWord ['a', 'l', 's', 'e'] rest).map fun found => (.bool false, found.2)
    | '"' :: rest => (readString rest).map fun found => (.string found.1, found.2)
    | '[' :: rest =>
      if depth = 0 then .error .malformed
      else do
        let (items, rest) ← readItems (readValue depth) (rest.length + 1) true rest
        return (.array items, ← closeList rest)
    | '{' :: rest =>
      if depth = 0 then .error .malformed
      else do
        let (fields, rest) ←
          readFields (collectField (readValue depth)) (rest.length + 1) true [] rest
        return (.object fields.reverse, ← closeObject rest)
    | c :: rest =>
      if isNumberStart c then (readNumber (c :: rest)).map fun found => (.number found.1, found.2)
      else .error .malformed

/-- what stands at the front of the text, looked at only as far as a report needs -/
def peekFound (s : List Char) : Except Error Found :=
  match s with
  | [] => .error .eof
  | 'n' :: rest => (readWord ['u', 'l', 'l'] rest).map fun _ => .null
  | 't' :: rest => (readWord ['r', 'u', 'e'] rest).map fun _ => .bool true
  | 'f' :: rest => (readWord ['a', 'l', 's', 'e'] rest).map fun _ => .bool false
  | '"' :: rest => (readString rest).map fun found => .string found.1
  | '[' :: _ => .ok .sequence
  | '{' :: _ => .ok .map
  | c :: rest =>
    if isNumberStart c then (readNumber (c :: rest)).map fun found => .number found.1
    else .error .malformed

/-- the error when something else was expected than the text holds -/
def wrongType (expected : String) (s : List Char) : Error :=
  match peekFound s with
  | .ok found => .mismatch (.invalidType found expected)
  | .error e => e

end OverlayWatch.Json
