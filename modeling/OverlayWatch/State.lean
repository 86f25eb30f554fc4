import OverlayWatch.Store
import OverlayWatch.Topology
import OverlayWatch.Views

/-!
# What is known and what is visible

The state keeps the store of all live properties, the reachable nodes, and two things derived from
them: the visible properties (those of reachable nodes) and the cached value maps.  They are kept up
to date step by step, and every step says what observers have to be told (`Delta`).

* `State.applyBatch`      takes in a batch of properties, event by event;
* `State.applyTopology`   takes in a topology change, or refuses it and changes nothing;
* `State.snapshot`        what a new observer has to be told.

The maps of a delta come from where they change: a batch takes them from the store, a topology change
from the cache.
-/

namespace OverlayWatch

structure State where
  store : Store
  reachable : NodeSet
  visible : PropertySet
  views : Views
deriving DecidableEq

structure Delta where
  change : Option PropertyChange
  maps : MapDelta
deriving DecidableEq

def Delta.none : Delta := ⟨.none, ∅⟩

def Delta.isEmpty (d : Delta) : Bool := d.change.isNone && d.maps.isEmpty

/-- the live properties of all the nodes together -/
def Store.propertiesOf (s : Store) (nodes : NodeSet) : PropertySet :=
  .ofList (nodes.toList.flatMap fun node => (s.properties node).toList)

namespace State

def empty : State := ⟨.empty, ∅, ∅, .empty⟩

/-! ## batches of properties -/

/-- the state of affairs within a batch: the store and the visible properties so far, what has been
reported, and the nodes that an event has had an effect on -/
structure Progress where
  store : Store
  visible : PropertySet
  change : PropertyChange
  touched : NodeSet
deriving DecidableEq

def Progress.start (s : State) : Progress := ⟨s.store, s.visible, .none, ∅⟩

/-- how one event shows when its node is reachable -/
def Progress.reveal (w : Progress) (p : Property) : Outcome → Progress
  | .added => { w with
      visible := w.visible.insert p
      change := { w.change with added := w.change.added.insert p } }
  | .updated previous => { w with
      visible := (w.visible.erase previous).insert p
      change := { w.change with updated := w.change.updated.insert p } }
  | .removed previous => { w with
      visible := w.visible.erase previous
      change := { w.change with removed := w.change.removed.insert previous } }
  | .unchanged => w

def Progress.absorb (reachable : NodeSet) (w : Progress) (p : Property) : Progress :=
  let (outcome, store) := w.store.apply p
  let touched := if outcome = .unchanged then w.touched else w.touched.insert p.node
  let w := { w with store, touched }
  if p.node ∈ reachable then w.reveal p outcome else w

def absorbAll (s : State) (batch : List Property) : Progress :=
  batch.foldl (Progress.absorb s.reachable) (.start s)

theorem absorbAll_nil (s : State) : s.absorbAll [] = .start s := rfl
theorem absorbAll_append (s : State) (a b : List Property) :
    s.absorbAll (a ++ b) = b.foldl (Progress.absorb s.reachable) (s.absorbAll a) :=
  List.foldl_append

theorem Progress.store_reveal (w : Progress) (p : Property) (outcome : Outcome) :
    (w.reveal p outcome).store = w.store := by
  cases outcome <;> rfl

theorem Progress.store_absorb (reachable : NodeSet) (w : Progress) (p : Property) :
    (w.absorb reachable p).store = (w.store.apply p).2 := by
  by_cases h : p.node ∈ reachable <;> simp [Progress.absorb, h, Progress.store_reveal]

theorem store_foldl_absorb (reachable : NodeSet) (w : Progress) (batch : List Property) :
    (batch.foldl (Progress.absorb reachable) w).store = w.store.applyAll batch := by
  induction batch generalizing w with
  | nil => rfl
  | cons p batch ih => rw [List.foldl_cons, ih, Progress.store_absorb, Store.applyAll_cons]

/-- each touched node is given a fresh map once, after the last event -/
def applyBatch (s : State) (batch : List Property) : Delta × State :=
  let w := s.absorbAll batch
  let fresh := Views.recordAll s.reachable w.store.valueMap w.touched.toList (∅, s.views)
  ({ change := if w.change.isEmpty then .none else some w.change
     maps := fresh.1 },
   { s with store := w.store, visible := w.visible, views := fresh.2 })

theorem reachable_applyBatch (s : State) (batch : List Property) :
    (s.applyBatch batch).2.reachable = s.reachable := rfl
theorem store_applyBatch (s : State) (batch : List Property) :
    (s.applyBatch batch).2.store = (s.absorbAll batch).store := rfl

/-! ## topology changes -/

/-- a change that fits -/
def moveTo (s : State) (c : TopologyChange) : Delta × State :=
  let disconnected := s.store.propertiesOf c.removed
  let reconnected := s.store.propertiesOf c.added
  let moved := Views.attachAll c.added.toList (Views.detachAll c.removed.toList (∅, s.views))
  ({ change :=
       if disconnected.isEmpty && reconnected.isEmpty then .none
       else some ⟨reconnected, ∅, disconnected⟩
     maps := moved.1 },
   { s with
     reachable := c.reachable
     visible := (s.visible \ disconnected) ∪ reconnected
     views := moved.2 })

theorem reachable_moveTo (s : State) (c : TopologyChange) :
    (s.moveTo c).2.reachable = c.reachable := rfl
theorem store_moveTo (s : State) (c : TopologyChange) : (s.moveTo c).2.store = s.store := rfl

def applyTopology (s : State) (c : TopologyChange) : Except TopologyFault (Delta × State) :=
  (c.check s.reachable).map fun _ => s.moveTo c

theorem applyTopology_error {s : State} {c : TopologyChange} {fault : TopologyFault}
    (h : c.check s.reachable = .error fault) : s.applyTopology c = .error fault := by
  simp [applyTopology, h, Except.map]

theorem applyTopology_ok {s : State} {c : TopologyChange} (h : c.check s.reachable = .ok ()) :
    s.applyTopology c = .ok (s.moveTo c) := by
  simp [applyTopology, h, Except.map]

/-! ## queries -/

/-- everything visible, as added, and every map shown -/
def snapshot (s : State) : PropertyChange × MapDelta :=
  (.initial s.visible, s.views.reachable.map fun _ values => some values)

def valueMap? (s : State) (node : NodeId) : Option ValueMap := s.views.all[node]?

def reachableValueMap? (s : State) (node : NodeId) : Option ValueMap := s.views.reachable[node]?

def reachableValueMaps (s : State) : Std.ExtTreeMap NodeId ValueMap := s.views.reachable

end State

end OverlayWatch
