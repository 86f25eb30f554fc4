import OverlayWatch.Toml.Value

/-!
# Putting a TOML document together

A document is a sequence of sections: the lines before the first header, and then a header with the
lines under it.  Each line sets a value under a path of keys.  Tables remember how they came about,
because that decides what may still be added to them.

* `Origin`        by a header, on the way to another header, or by a dotted key;
* `Node`          a value, a table, or an array of tables; only tables can be added to;
* `Entries.set`   adds the value of a line;
* `Section.add`   adds a whole section;
* `assemble`      the document, or nothing if something is defined twice.
-/

namespace OverlayWatch.Toml

inductive Origin where
  /-- named by a header of its own, or the table of the whole document -/
  | header
  /-- only named on the way to another table -/
  | parent
  | dotted
deriving DecidableEq, Repr

inductive Node where
  | value (v : Value)
  | table (origin : Origin) (entries : List (String × Node))
  | tables (elements : List (List (String × Node)))

abbrev Entries := List (String × Node)

namespace Entries

def get? (es : Entries) (key : String) : Option Node := es.lookup key

/-- replaces the node of the key, or adds it at the end -/
def put (key : String) (node : Node) : Entries → Entries
  | [] => [(key, node)]
  | e :: rest => if e.1 == key then (key, node) :: rest else e :: put key node rest

theorem put_nil (key : String) (node : Node) : put key node [] = [(key, node)] := rfl

/-- changes the table at the end of the path, the last one of an array of tables; missing tables are
made.  A dotted key does not lead into a table that has a header. -/
def changeAt (isDotted : Bool) (change : Origin → Entries → Option Entries) :
    List String → Origin → Entries → Option Entries
  | [], origin, es => change origin es
  | key :: path, _, es =>
    let made : Origin := if isDotted then .dotted else .parent
    match get? es key with
    | none => (changeAt isDotted change path made []).map fun sub => put key (.table made sub) es
    | some (.value _) => none
    | some (.table origin sub) =>
      if isDotted && origin == .header then none
      else (changeAt isDotted change path origin sub).map fun sub => put key (.table origin sub) es
    | some (.tables elements) =>
      match elements.getLast? with
      | none => none
      | some last =>
        (changeAt isDotted change path .header last).map fun last =>
          put key (.tables (elements.dropLast ++ [last])) es

/-- a dotted key adds to tables made by dotted keys only, and no key is set twice -/
def set (es : Entries) (path : List String) (key : String) (v : Value) : Option Entries :=
  changeAt true
    (fun origin sub =>
      if (origin == .dotted) == path.isEmpty then none
      else if (get? sub key).isSome then none
      else some (put key (.value v) sub))
    path .header es

end Entries

/-! ## sections -/

structure Line where
  path : List String
  key : String
  value : Value

def Entries.setAll (es : Entries) (lines : List Line) : Option Entries :=
  lines.foldlM (fun es line => es.set line.path line.key line.value) es

inductive Header where
  | table (path : List String) (key : String)
  | element (path : List String) (key : String)

structure Section where
  header : Header
  lines : List Line

/-- a table may be given a header once, and only if no dotted key has made it -/
def Section.add (root : Entries) (part : Section) : Option Entries :=
  match part.header with
  | .table path key =>
    Entries.changeAt false
      (fun _ sub =>
        match Entries.get? sub key with
        | none => (Entries.setAll [] part.lines).map fun es => Entries.put key (.table .header es) sub
        | some (.table .parent es) =>
          (Entries.setAll es part.lines).map fun es => Entries.put key (.table .header es) sub
        | some _ => none)
      path .header root
  | .element path key =>
    Entries.changeAt false
      (fun _ sub =>
        match Entries.get? sub key with
        | none => (Entries.setAll [] part.lines).map fun es => Entries.put key (.tables [es]) sub
        | some (.tables elements) =>
          (Entries.setAll [] part.lines).map fun es => Entries.put key (.tables (elements ++ [es])) sub
        | some _ => none)
      path .header root

/-! ## values -/

mutual

def Node.toValue : Node → Value
  | .value v => v
  | .table _ entries => .table (entriesToValues entries)
  | .tables elements => .array (elementsToValues elements)

def entriesToValues : List (String × Node) → List (String × Value)
  | [] => []
  | (key, node) :: rest => (key, node.toValue) :: entriesToValues rest

def elementsToValues : List (List (String × Node)) → List Value
  | [] => []
  | entries :: rest => .table (entriesToValues entries) :: elementsToValues rest

end

/-- the lines before the first header, and the sections -/
def assemble (lines : List Line) (sections : List Section) : Option Value :=
  ((Entries.setAll [] lines).bind fun root => sections.foldlM Section.add root).map fun root =>
    .table (entriesToValues root)

/-- the table between braces -/
def inlineTable (lines : List Line) : Option Value :=
  (Entries.setAll [] lines).map fun es => .table (entriesToValues es)

end OverlayWatch.Toml
