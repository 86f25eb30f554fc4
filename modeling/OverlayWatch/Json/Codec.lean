import OverlayWatch.Json.Reader

/-!
# Shapes of JSON values

A codec reads values of one type, either straight off the text, where the first thing wrong is
reported as soon as it is met, or from a value that has been read whole before.

* `Codec.string`, `nullable`, `list`, `refine`   the building blocks;
* `RecordShape`      an object with named fields, or an array of the same fields in their order;
* `Codec.tagged`     an object or array with a tag that says how to read the rest: the rest is read
                     whole before it is looked at;
* `Codec.decode`     a whole text: the value, and nothing but blanks after it.

Fields that nobody asked for are passed over; a field that is known must not come twice.
-/

namespace OverlayWatch.Json

structure Codec (α : Type) where
  read : (depth : Nat) → Reader α
  ofValue : Value → Except Mismatch α

namespace Codec

variable {α β : Type}

/-! ## building blocks -/

def map (c : Codec α) (f : α → β) : Codec β where
  read depth s := (c.read depth s).map fun found => (f found.1, found.2)
  ofValue v := (c.ofValue v).map f

/-- reads a value and then checks it -/
def refine (c : Codec α) (check : α → Except Mismatch β) : Codec β where
  read depth s := do
    let (a, rest) ← c.read depth s
    match check a with
    | .ok b => return (b, rest)
    | .error m => .error (.mismatch m)
  ofValue v := (c.ofValue v).bind check

def expectedString : String := "a string"

def string : Codec String where
  read _ s :=
    match skipBlanks s with
    | '"' :: rest => readString rest
    | rest => .error (wrongType expectedString rest)
  ofValue
    | .string s => .ok s
    | v => .error (.invalidType v.found expectedString)

/-- `none` is written as null -/
def nullable (c : Codec α) : Codec (Option α) where
  read depth s :=
    match skipBlanks s with
    | 'n' :: rest => (readWord ['u', 'l', 'l'] rest).map fun found => (none, found.2)
    | rest => (c.read depth rest).map fun found => (some found.1, found.2)
  ofValue
    | .null => .ok none
    | v => (c.ofValue v).map some

def expectedSequence : String := "a sequence"

def list (c : Codec α) : Codec (List α) where
  read depth s :=
    match skipBlanks s with
    | '[' :: rest => do
      let inner ← enter depth
      let (items, rest) ← readItems (c.read inner) (rest.length + 1) true rest
      return (items, ← closeList rest)
    | rest => .error (wrongType expectedSequence rest)
  ofValue
    | .array items => items.mapM c.ofValue
    | v => .error (.invalidType v.found expectedSequence)

/-! ## whole texts -/

def decode (c : Codec α) (text : String) : Except Error α := do
  let (a, rest) ← c.read fullDepth text.toList
  match skipBlanks rest with
  | [] => return a
  | _ :: _ => .error .malformed

end Codec

/-! ## records -/

/-- a field fills a part of the record in the making -/
structure Field (σ : Type) where
  name : String
  optional : Bool
  isFilled : σ → Bool
  codec : Codec (σ → σ)

structure RecordShape (σ α : Type) where
  title : String
  blank : σ
  fields : List (Field σ)
  /-- the record, or the first field that is missing -/
  finish : σ → Except Mismatch α

/-- `1 element`, `2 elements` -/
def elements (n : Nat) : String := toString n ++ (if n = 1 then " element" else " elements")

namespace RecordShape

variable {σ α : Type}

def sizedTitle (shape : RecordShape σ α) : String :=
  shape.title ++ " with " ++ elements shape.fields.length

/-- an array has ended before the given fields, the first of them the one at `index` -/
def tooShort (shape : RecordShape σ α) (index : Nat) (left : List (Field σ)) : Option Mismatch :=
  (left.zipIdx index).findSome? fun (f, i) =>
    if f.optional then none else some (.invalidLength i shape.sizedTitle)

/-! ### off the text -/

def readField (shape : RecordShape σ α) (depth : Nat) (name : String) (acc : σ) : Reader σ :=
  fun s =>
    match shape.fields.find? fun f => f.name == name with
    | some f =>
      if f.isFilled acc then .error (.mismatch (.duplicateField name))
      else do
        let (fill, s) ← f.codec.read depth (← readColon s)
        return (fill acc, s)
    | none => do return (acc, ← skipValue (← readColon s))

def readInOrder (shape : RecordShape σ α) (depth : Nat) :
    (index : Nat) → List (Field σ) → σ → Reader σ
  | _, [], acc, s => .ok (acc, s)
  | index, f :: left, acc, s => do
    let (more, s) ← nextItem (index = 0) s
    if more then
      let (fill, s) ← f.codec.read depth s
      shape.readInOrder depth (index + 1) left (fill acc) s
    else
      match shape.tooShort index (f :: left) with
      | some m => .error (.mismatch m)
      | none => return (acc, s)

def readRecord (shape : RecordShape σ α) (depth : Nat) : Reader α := fun s =>
  match skipBlanks s with
  | '[' :: rest => do
    let inner ← enter depth
    let (acc, rest) ← shape.readInOrder inner 0 shape.fields shape.blank rest
    match shape.finish acc with
    | .ok a => return (a, ← closeList rest)
    | .error m => .error (.mismatch m)
  | '{' :: rest => do
    let inner ← enter depth
    let (acc, rest) ← readFields (shape.readField inner) (rest.length + 1) true shape.blank rest
    match shape.finish acc with
    | .ok a => return (a, ← closeObject rest)
    | .error m => .error (.mismatch m)
  | rest => .error (wrongType shape.title rest)

/-! ### from a value -/

def takeField (shape : RecordShape σ α) (acc : σ) (entry : String × Value) : Except Mismatch σ :=
  match shape.fields.find? fun f => f.name == entry.1 with
  | some f =>
    if f.isFilled acc then .error (.duplicateField entry.1)
    else (f.codec.ofValue entry.2).map fun fill => fill acc
  | none => .ok acc

def takeInOrder (shape : RecordShape σ α) :
    (index : Nat) → List (Field σ) → List Value → σ → Except Mismatch (σ × List Value)
  | _, [], values, acc => .ok (acc, values)
  | index, left@(_ :: _), [], acc =>
    match shape.tooShort index left with
    | some m => .error m
    | none => .ok (acc, [])
  | index, f :: left, v :: values, acc => do
    let fill ← f.codec.ofValue v
    shape.takeInOrder (index + 1) left values (fill acc)

def ofValue (shape : RecordShape σ α) : Value → Except Mismatch α
  | .array values => do
    let (acc, surplus) ← shape.takeInOrder 0 shape.fields values shape.blank
    let a ← shape.finish acc
    if surplus.isEmpty then return a
    else .error (.invalidLength values.length (elements shape.fields.length ++ " in sequence"))
  | .object entries => do shape.finish (← entries.foldlM shape.takeField shape.blank)
  | v => .error (.invalidType v.found shape.title)

def codec (shape : RecordShape σ α) : Codec α := ⟨shape.readRecord, shape.ofValue⟩

end RecordShape

/-! ## tagged values -/

/-- the shapes that values of one type may have, told apart by the tag -/
structure TaggedShape (α : Type) where
  title : String
  tagName : String
  variants : List (String × (Value → Except Mismatch α))

namespace TaggedShape

variable {α : Type}

def variant? (shape : TaggedShape α) (tag : String) :
    Except Mismatch (Value → Except Mismatch α) :=
  match shape.variants.find? fun v => v.1 == tag with
  | some v => .ok v.2
  | none => .error (.unknownVariant tag (shape.variants.map Prod.fst))

def expectedTag : String := "variant identifier"

def tagCodec (shape : TaggedShape α) : Codec (Value → Except Mismatch α) :=
  Codec.refine
    { read := fun _ s =>
        match skipBlanks s with
        | '"' :: rest => readString rest
        | rest => .error (wrongType expectedTag rest)
      ofValue := fun
        | .string s => .ok s
        | v => .error (.invalidType v.found expectedTag) }
    shape.variant?

/-- how to read the rest, once the tag has been met, and the other fields so far, last first -/
abbrev Gathered (α : Type) := Option (Value → Except Mismatch α) × List (String × Value)

def readField (shape : TaggedShape α) (depth : Nat) (name : String) (acc : Gathered α) :
    Reader (Gathered α) := fun s =>
  if name == shape.tagName then
    if acc.1.isSome then .error (.mismatch (.duplicateField name))
    else do
      let (variant, s) ← shape.tagCodec.read depth (← readColon s)
      return ((some variant, acc.2), s)
  else do
    let (fields, s) ← collectField (readValue depth) name acc.2 s
    return ((acc.1, fields), s)

/-- the tag and what else there is, as a value -/
def readGathered (shape : TaggedShape α) (depth : Nat) :
    Reader ((Value → Except Mismatch α) × Value) := fun s =>
  match skipBlanks s with
  | '[' :: rest => do
    let inner ← enter depth
    let (more, rest) ← nextItem true rest
    if more then
      let (variant, rest) ← shape.tagCodec.read inner rest
      let (items, rest) ← readItems (readValue inner) (rest.length + 1) false rest
      return ((variant, .array items), ← closeList rest)
    else .error (.mismatch (.missingField shape.tagName))
  | '{' :: rest => do
    let inner ← enter depth
    let ((variant?, fields), rest) ←
      readFields (shape.readField inner) (rest.length + 1) true (none, []) rest
    match variant? with
    | some variant => return ((variant, .object fields.reverse), ← closeObject rest)
    | none => .error (.mismatch (.missingField shape.tagName))
  | rest => .error (wrongType shape.title rest)

def read (shape : TaggedShape α) (depth : Nat) : Reader α := fun s => do
  let ((variant, rest), s) ← shape.readGathered depth s
  match variant rest with
  | .ok a => return (a, s)
  | .error m => .error (.mismatch m)

def takeField (shape : TaggedShape α) (acc : Gathered α) (entry : String × Value) :
    Except Mismatch (Gathered α) :=
  if entry.1 == shape.tagName then
    if acc.1.isSome then .error (.duplicateField entry.1)
    else (shape.tagCodec.ofValue entry.2).map fun variant => (some variant, acc.2)
  else .ok (acc.1, entry :: acc.2)

def ofValue (shape : TaggedShape α) : Value → Except Mismatch α
  | .array [] => .error (.missingField shape.tagName)
  | .array (tag :: items) => do (← shape.tagCodec.ofValue tag) (.array items)
  | .object entries => do
    let (variant?, fields) ← entries.foldlM shape.takeField (none, [])
    match variant? with
    | some variant => variant (.object fields.reverse)
    | none => .error (.missingField shape.tagName)
  | v => .error (.invalidType v.found shape.title)

def codec (shape : TaggedShape α) : Codec α := ⟨shape.read, shape.ofValue⟩

end TaggedShape

end OverlayWatch.Json
