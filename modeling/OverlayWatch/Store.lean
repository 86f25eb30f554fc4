import OverlayWatch.OnDemand
import OverlayWatch.Property

/-!
# The property store

All live properties ever announced and not taken back, by node and key, whether or not the node is
reachable.  A node is known from its first event on, even if all it has is taken back.

* `Store.apply`          takes in one event and says what it did (`Outcome`);
* `Store.get?`           what is filed for a node under a key;
* `Store.properties`     everything filed for a node;
* `Store.valueMap`       the values of what is filed for a node, by key.

An event changes nothing but the entry of its own node and key (`get?_apply_self`,
`get?_apply_of_key_ne`, `get?_apply_of_node_ne`), and makes its node known (`isKnown_apply`).

The event itself is filed, under its own key and on the shelf of its own node.  Nothing in the type
says so: it is true of a store that events alone have built.

The shelf of a node is put up by its first event, and no query puts one up (`Store.byNode`).
-/

namespace OverlayWatch

/-- what is filed for one node, by key -/
abbrev Shelf := Std.ExtTreeMap String Property

instance : LawfulBEq Shelf := inferInstance

structure Store where
  shelves : Std.ExtTreeMap NodeId Shelf
deriving DecidableEq

inductive Outcome where
  | added
  | updated (previous : Property)
  | removed (previous : Property)
  | unchanged
deriving DecidableEq, Repr

namespace Store

def empty : Store := ⟨∅⟩

/-- a shelf is empty when it is put up -/
def byNode (s : Store) : OnDemandMap NodeId Shelf := ⟨s.shelves, fun _ => ∅⟩

/-! ## queries -/

/-- empty for an unknown node -/
def shelf (s : Store) (node : NodeId) : Shelf := (s.byNode.get? node).getD ∅

def get? (s : Store) (node : NodeId) (key : String) : Option Property := (s.shelf node)[key]?

def properties (s : Store) (node : NodeId) : PropertySet :=
  .ofList ((s.shelf node).toList.map Prod.snd)

def valueMap (s : Store) (node : NodeId) : ValueMap :=
  .ofList ((s.shelf node).toList.filterMap fun e => e.2.value.map fun value => (e.2.key, value))

def knownNodes (s : Store) : NodeSet := .ofList s.byNode.keys

def isKnown (s : Store) (node : NodeId) : Bool := s.byNode.contains node

theorem shelf_eq_getD (s : Store) (node : NodeId) : s.shelf node = s.shelves.getD node ∅ :=
  Std.ExtTreeMap.getD_eq_getD_getElem?.symm

theorem shelf_empty (node : NodeId) : empty.shelf node = ∅ := by
  simp [shelf_eq_getD, empty]

theorem get?_empty (node : NodeId) (key : String) : empty.get? node key = none := by
  simp [get?, shelf_empty]

theorem isKnown_empty (node : NodeId) : empty.isKnown node = false := by
  simp [isKnown, OnDemandMap.contains, byNode, empty]

theorem mem_knownNodes {s : Store} {node : NodeId} :
    node ∈ s.knownNodes ↔ s.isKnown node = true := by
  simp [knownNodes, isKnown, OnDemandMap.keys, OnDemandMap.contains, byNode]

theorem mem_properties {s : Store} {node : NodeId} {p : Property} :
    p ∈ s.properties node ↔ ∃ key, s.get? node key = some p := by
  simp only [properties, get?, Std.ExtTreeSet.mem_ofList, List.contains_iff_mem, List.mem_map]
  constructor
  · rintro ⟨e, h, rfl⟩
    exact ⟨e.1, Std.ExtTreeMap.mem_toList_iff_getElem?_eq_some.1 h⟩
  · rintro ⟨key, h⟩
    exact ⟨(key, p), Std.ExtTreeMap.mem_toList_iff_getElem?_eq_some.2 h, rfl⟩

/-- the number of live properties of all nodes -/
def count (s : Store) : Nat := s.byNode.toList.foldl (fun n e => n + e.2.size) 0

/-! ## events -/

/-- a shelf after an event of its node: a tombstone clears its key, a live property is filed -/
def file (shelf : Shelf) (p : Property) : Shelf :=
  if p.isTombstone then shelf.erase p.key else shelf.insert p.key p

/-- an event is an update when there was an entry before, whether or not the value differs -/
def outcome (s : Store) (p : Property) : Outcome :=
  match s.get? p.node p.key, p.isTombstone with
  | some previous, false => .updated previous
  | none, false => .added
  | some previous, true => .removed previous
  | none, true => .unchanged

def apply (s : Store) (p : Property) : Outcome × Store :=
  (s.outcome p, ⟨(s.byNode.modify p.node (file · p)).2.entries⟩)

/-- the store after a list of events -/
def applyAll (s : Store) (events : List Property) : Store :=
  events.foldl (fun store p => (store.apply p).2) s

/-! ## what an event changes -/

theorem applyAll_nil (s : Store) : s.applyAll [] = s := rfl
theorem applyAll_cons (s : Store) (p : Property) (events : List Property) :
    s.applyAll (p :: events) = (s.apply p).2.applyAll events := rfl
theorem applyAll_append (s : Store) (a b : List Property) :
    s.applyAll (a ++ b) = (s.applyAll a).applyAll b := List.foldl_append

theorem getElem?_file_self (shelf : Shelf) (p : Property) : (file shelf p)[p.key]? = p.live? := by
  cases h : p.isTombstone <;> simp [file, Property.live?, h]

theorem getElem?_file_of_ne {shelf : Shelf} {p : Property} {key : String} (h : p.key ≠ key) :
    (file shelf p)[key]? = shelf[key]? := by
  cases ht : p.isTombstone with
  | false => simp [file, ht, Std.ExtTreeMap.getElem?_insert, h]
  | true => simp [file, ht, Std.ExtTreeMap.getElem?_erase, h]

theorem shelves_apply (s : Store) (p : Property) :
    (s.apply p).2.shelves = s.shelves.insert p.node (file (s.shelf p.node) p) := by
  rw [shelf_eq_getD]
  rfl

theorem shelf_apply_self (s : Store) (p : Property) :
    (s.apply p).2.shelf p.node = file (s.shelf p.node) p := by
  simp [shelf_eq_getD, shelves_apply]

theorem shelf_apply_of_ne {s : Store} {p : Property} {node : NodeId} (h : p.node ≠ node) :
    (s.apply p).2.shelf node = s.shelf node := by
  simp [shelf_eq_getD, shelves_apply, Std.ExtTreeMap.getD_insert, h]

theorem get?_apply_self (s : Store) (p : Property) :
    (s.apply p).2.get? p.node p.key = p.live? := by
  rw [get?, shelf_apply_self, getElem?_file_self]

theorem get?_apply_of_key_ne {s : Store} {p : Property} {key : String} (h : p.key ≠ key) :
    (s.apply p).2.get? p.node key = s.get? p.node key := by
  rw [get?, shelf_apply_self, getElem?_file_of_ne h, get?]

theorem get?_apply_of_node_ne {s : Store} {p : Property} {node : NodeId} {key : String}
    (h : p.node ≠ node) : (s.apply p).2.get? node key = s.get? node key := by
  rw [get?, shelf_apply_of_ne h, get?]

theorem isKnown_apply (s : Store) (p : Property) (node : NodeId) :
    (s.apply p).2.isKnown node = true ↔ p.node = node ∨ s.isKnown node = true := by
  show (s.apply p).2.shelves.contains node = true ↔ p.node = node ∨ s.shelves.contains node = true
  rw [shelves_apply, Std.ExtTreeMap.contains_insert]
  simp

end Store

end OverlayWatch
