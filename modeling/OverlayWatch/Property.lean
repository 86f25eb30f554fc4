import OverlayWatch.Node

/-!
# Properties of nodes

A property gives a node's value for a key, or, as a tombstone, says that the node has no value for
the key any more.

* `Property`         node, key and value; `none` is a tombstone;
* `PropertySet`      a finite set of properties, ordered by node, key and value;
* `ValueMap`         the live values of one node, by key;
* `MapDelta`         new value maps by node; `none` for a node that became unreachable;
* `PropertyChange`   the properties that came, changed and went.
-/

namespace OverlayWatch

structure Property where
  node : NodeId
  key : String
  value : Option String
deriving DecidableEq, Repr

namespace Property

/-! ## order -/

/-- by node, then key, then value, a tombstone before any value -/
instance : Ord Property :=
  ⟨compareLex (compareOn node) (compareLex (compareOn key) (compareOn value))⟩

instance : Std.TransOrd Property :=
  inferInstanceAs
    (Std.TransCmp (compareLex (compareOn node) (compareLex (compareOn key) (compareOn value))))

instance : Std.LawfulEqOrd Property where
  eq_of_compare {a b} h := by
    have h : compareLex (compareOn node) (compareLex (compareOn key) (compareOn value)) a b = .eq := h
    simp only [compareLex_eq_eq, compareOn, Std.compare_eq_iff_eq] at h
    obtain ⟨hn, hk, hv⟩ := h
    cases a; cases b; simp_all

/-! ## live properties and tombstones -/

def live (node : NodeId) (key value : String) : Property := ⟨node, key, some value⟩

def tombstone (node : NodeId) (key : String) : Property := ⟨node, key, none⟩

def isTombstone (p : Property) : Bool := p.value.isNone

theorem isTombstone_live (node : NodeId) (key value : String) :
    (live node key value).isTombstone = false := rfl
theorem isTombstone_tombstone (node : NodeId) (key : String) :
    (tombstone node key).isTombstone = true := rfl

/-- what an event leaves under its key: itself if it is live -/
def live? (p : Property) : Option Property := if p.isTombstone then none else some p

def display (p : Property) : String :=
  p.node.name ++ ":" ++ p.key ++ "=" ++ p.value.getD "<removed>"

end Property

/-! ## sets and maps -/

abbrev PropertySet := Std.ExtTreeSet Property

abbrev ValueMap := Std.ExtTreeMap String String

instance : LawfulBEq ValueMap := inferInstance

abbrev MapDelta := Std.ExtTreeMap NodeId (Option ValueMap)

instance : LawfulBEq (Option ValueMap) := inferInstance

/-- the display texts of a set, in the order of the texts -/
def PropertySet.displays (s : PropertySet) : List String :=
  (s.toList.map Property.display).mergeSort (fun a b => (compare a b).isLE)

/-! ## changes -/

structure PropertyChange where
  added : PropertySet
  updated : PropertySet
  removed : PropertySet
deriving DecidableEq

namespace PropertyChange

def none : PropertyChange := ⟨∅, ∅, ∅⟩

/-- what a new observer is told: all it can see has been added -/
def initial (visible : PropertySet) : PropertyChange := ⟨visible, ∅, ∅⟩

def isEmpty (c : PropertyChange) : Bool :=
  c.added.isEmpty && c.updated.isEmpty && c.removed.isEmpty

theorem isEmpty_iff (c : PropertyChange) : c.isEmpty = true ↔ c = none := by
  cases c
  simp [isEmpty, none, Std.ExtTreeSet.isEmpty_iff, and_assoc]

end PropertyChange

end OverlayWatch
