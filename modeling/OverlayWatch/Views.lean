import OverlayWatch.Property

/-!
# Cached value maps

Observers are handed value maps as they were last taken: one for every node with an effective
event, and, of those, the ones of reachable nodes.

* `Views.record`   keeps a freshly taken map, for the reachable nodes too if the node is one;
* `Views.attach`   a node became reachable: its kept map, or an empty one, is shown;
* `Views.detach`   a node became unreachable: its map is kept but no longer shown;
* `Views.recordAll`, `Views.detachAll`, `Views.attachAll`   the same for several nodes, together with
                   what an observer has to be told of them.
-/

namespace OverlayWatch

structure Views where
  all : Std.ExtTreeMap NodeId ValueMap
  reachable : Std.ExtTreeMap NodeId ValueMap
deriving DecidableEq

namespace Views

def empty : Views := ⟨∅, ∅⟩

def record (v : Views) (node : NodeId) (values : ValueMap) (isReachable : Bool) : Views where
  all := v.all.insert node values
  reachable := if isReachable then v.reachable.insert node values else v.reachable

/-- a node never seen is shown with an empty map, which is kept -/
def attach (v : Views) (node : NodeId) : ValueMap × Views :=
  let values := v.all.getD node ∅
  (values, v.record node values true)

def detach (v : Views) (node : NodeId) : Option ValueMap × Views :=
  (v.reachable[node]?, { v with reachable := v.reachable.erase node })

theorem all_record (v : Views) (node : NodeId) (values : ValueMap) (isReachable : Bool) :
    (v.record node values isReachable).all = v.all.insert node values := rfl
theorem all_attach (v : Views) (node : NodeId) :
    (v.attach node).2.all = v.all.insert node (v.attach node).1 := rfl
theorem reachable_attach (v : Views) (node : NodeId) :
    (v.attach node).2.reachable = v.reachable.insert node (v.attach node).1 := rfl
theorem all_detach (v : Views) (node : NodeId) : (v.detach node).2.all = v.all := rfl
theorem reachable_detach (v : Views) (node : NodeId) :
    (v.detach node).2.reachable = v.reachable.erase node := rfl

/-! ## several nodes -/

/-- every node is given its map; those that are reachable are reported -/
def recordAll (reachable : NodeSet) (values : NodeId → ValueMap) (nodes : List NodeId)
    (w : MapDelta × Views) : MapDelta × Views :=
  nodes.foldl
    (fun w node =>
      (if node ∈ reachable then w.1.insert node (some (values node)) else w.1,
        w.2.record node (values node) (reachable.contains node)))
    w

/-- every node is reported as gone -/
def detachAll (nodes : List NodeId) (w : MapDelta × Views) : MapDelta × Views :=
  nodes.foldl (fun w node => (w.1.insert node none, (w.2.detach node).2)) w

/-- every node is reported with the map that it is shown with -/
def attachAll (nodes : List NodeId) (w : MapDelta × Views) : MapDelta × Views :=
  nodes.foldl
    (fun w node => (w.1.insert node (some (w.2.attach node).1), (w.2.attach node).2)) w

section
variable (reachable : NodeSet) (values : NodeId → ValueMap) (nodes : List NodeId)
  (w : MapDelta × Views) (n : NodeId)

theorem recordAll_cons (node : NodeId) :
    recordAll reachable values (node :: nodes) w = recordAll reachable values nodes
      (if node ∈ reachable then w.1.insert node (some (values node)) else w.1,
        w.2.record node (values node) (reachable.contains node)) := rfl
theorem detachAll_cons (node : NodeId) : detachAll (node :: nodes) w =
    detachAll nodes (w.1.insert node none, (w.2.detach node).2) := rfl
theorem attachAll_cons (node : NodeId) : attachAll (node :: nodes) w =
    attachAll nodes (w.1.insert node (some (w.2.attach node).1), (w.2.attach node).2) := rfl

theorem all_recordAll : (recordAll reachable values nodes w).2.all[n]?
    = if n ∈ nodes then some (values n) else w.2.all[n]? := by
  induction nodes generalizing w with
  | nil => rfl
  | cons node rest ih =>
    rw [recordAll_cons, ih, all_record, Std.ExtTreeMap.getElem?_insert]
    by_cases h : node = n
    · simp [h]
    · simp [h, Ne.symm h]

theorem reachable_recordAll : (recordAll reachable values nodes w).2.reachable[n]?
    = if n ∈ nodes ∧ n ∈ reachable then some (values n) else w.2.reachable[n]? := by
  induction nodes generalizing w with
  | nil => simp [recordAll]
  | cons node rest ih =>
    rw [recordAll_cons, ih]
    by_cases h : node = n
    · subst h
      by_cases hr : node ∈ reachable <;> simp [record, hr]
    · by_cases hr : node ∈ reachable <;>
        simp [record, hr, h, Ne.symm h, Std.ExtTreeMap.getElem?_insert]

theorem maps_recordAll : (recordAll reachable values nodes w).1[n]?
    = if n ∈ nodes ∧ n ∈ reachable then some (some (values n)) else w.1[n]? := by
  induction nodes generalizing w with
  | nil => simp [recordAll]
  | cons node rest ih =>
    rw [recordAll_cons, ih]
    by_cases h : node = n
    · subst h
      by_cases hr : node ∈ reachable <;> simp [hr]
    · by_cases hr : node ∈ reachable <;>
        simp [hr, h, Ne.symm h, Std.ExtTreeMap.getElem?_insert]

theorem all_detachAll : (detachAll nodes w).2.all = w.2.all := by
  induction nodes generalizing w with
  | nil => rfl
  | cons node rest ih => rw [detachAll_cons, ih, all_detach]

theorem reachable_detachAll : (detachAll nodes w).2.reachable[n]?
    = if n ∈ nodes then none else w.2.reachable[n]? := by
  induction nodes generalizing w with
  | nil => rfl
  | cons node rest ih =>
    rw [detachAll_cons, ih, reachable_detach, Std.ExtTreeMap.getElem?_erase]
    by_cases h : node = n
    · simp [h]
    · simp [h, Ne.symm h]

theorem maps_detachAll : (detachAll nodes w).1[n]? = if n ∈ nodes then some none else w.1[n]? := by
  induction nodes generalizing w with
  | nil => rfl
  | cons node rest ih =>
    rw [detachAll_cons, ih, Std.ExtTreeMap.getElem?_insert]
    by_cases h : node = n
    · simp [h]
    · simp [h, Ne.symm h]

/-- an empty map that is kept stands for no map -/
theorem getD_all_attach (v : Views) (node : NodeId) :
    (v.attach node).2.all.getD n ∅ = v.all.getD n ∅ := by
  rw [all_attach, Std.ExtTreeMap.getD_insert]
  by_cases h : node = n
  · subst h
    simp [attach]
  · simp [h]

theorem all_attachAll : (attachAll nodes w).2.all[n]?
    = if n ∈ nodes then some (w.2.all.getD n ∅) else w.2.all[n]? := by
  induction nodes generalizing w with
  | nil => rfl
  | cons node rest ih =>
    rw [attachAll_cons, ih, getD_all_attach, all_attach, Std.ExtTreeMap.getElem?_insert]
    by_cases h : node = n
    · simp [h, attach]
    · simp [h, Ne.symm h]

theorem reachable_attachAll : (attachAll nodes w).2.reachable[n]?
    = if n ∈ nodes then some (w.2.all.getD n ∅) else w.2.reachable[n]? := by
  induction nodes generalizing w with
  | nil => rfl
  | cons node rest ih =>
    rw [attachAll_cons, ih, getD_all_attach, reachable_attach, Std.ExtTreeMap.getElem?_insert]
    by_cases h : node = n
    · simp [h, attach]
    · simp [h, Ne.symm h]

theorem maps_attachAll : (attachAll nodes w).1[n]?
    = if n ∈ nodes then some (some (w.2.all.getD n ∅)) else w.1[n]? := by
  induction nodes generalizing w with
  | nil => rfl
  | cons node rest ih =>
    rw [attachAll_cons, ih, getD_all_attach, Std.ExtTreeMap.getElem?_insert]
    by_cases h : node = n
    · simp [h, attach]
    · simp [h, Ne.symm h]

end

end Views

end OverlayWatch
