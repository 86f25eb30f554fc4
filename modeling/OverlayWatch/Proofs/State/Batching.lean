import OverlayWatch.Proofs.State.Noninterference

/-!
# Batches joined and reordered

How the feed cuts its events into batches, and in which order it hands in events that have nothing to
do with each other, is up to it.  Neither shows: value maps are taken once for a whole batch, but an
intermediate map of a node is overwritten when the node is touched again, and an untouched node keeps
the map that it has.

* `PropertyChange.union`     two changes taken together;
* `State.applyBatch_append`  a batch in two parts leads to the same state, and the two reports taken
                             together are the report of the whole;
* `Reorders`                 the same events, those of each node and key in the same order;
* `State.applyBatch_reordered`   such batches are reported alike and lead to the same state.

Both laws come down to one key: all that an event finds, and all that it does, is decided by the events
of its own node and key before it (`met_eventsOf_append`).
-/

namespace OverlayWatch

def PropertyChange.union (c d : PropertyChange) : PropertyChange where
  added := c.added ∪ d.added
  updated := c.updated ∪ d.updated
  removed := c.removed ∪ d.removed

theorem PropertyChange.isEmpty_union (c d : PropertyChange) :
    (c.union d).isEmpty = (c.isEmpty && d.isEmpty) := by
  simp only [isEmpty, union, Std.ExtTreeSet.isEmpty_union]
  ac_rfl

namespace State

/-! ## two parts of a batch -/

section
variable (s : State) (a b : List Property)

theorem store_applyBatch_append :
    (s.applyBatch (a ++ b)).2.store = ((s.applyBatch a).2.applyBatch b).2.store := by
  simp only [store_applyBatch, store_absorbAll, Store.applyAll_append]

/-- the second part finds what the first has left -/
theorem met_eventsOf_append {kind : Option Property → Property → Prop} {node : NodeId} {key : String} :
    Met kind (s.store.get? node key) (eventsOf (a ++ b) node key) ↔
      Met kind (s.store.get? node key) (eventsOf a node key) ∨
        Met kind ((s.applyBatch a).2.store.get? node key) (eventsOf b node key) := by
  rw [eventsOf_append, met_append, get?_applyBatch]

theorem mem_touched_append {node : NodeId} :
    node ∈ (s.absorbAll (a ++ b)).touched ↔
      node ∈ (s.absorbAll a).touched ∨ node ∈ ((s.applyBatch a).2.absorbAll b).touched := by
  simp only [mem_touched_absorbAll, met_eventsOf_append, exists_or]

namespace Coherent

variable {s}
variable (h : s.Coherent)
include h

theorem change_absorbAll_append : (s.absorbAll (a ++ b)).change =
    (s.absorbAll a).change.union ((s.applyBatch a).2.absorbAll b).change := by
  have k := h.applyBatch a
  -- a reachable node, and then one of the events of the first part or of the second
  apply PropertyChange.ext_mem
  · intro p
    rw [PropertyChange.union, Std.ExtTreeSet.mem_union_iff, h.mem_added_iff, h.mem_added_iff,
      k.mem_added_iff, met_eventsOf_append, and_or_left]
    rfl
  · intro p
    rw [PropertyChange.union, Std.ExtTreeSet.mem_union_iff, h.mem_updated_iff, h.mem_updated_iff,
      k.mem_updated_iff, met_eventsOf_append, and_or_left]
    rfl
  · intro p
    rw [PropertyChange.union, Std.ExtTreeSet.mem_union_iff, h.mem_removed_iff, h.mem_removed_iff,
      k.mem_removed_iff, met_eventsOf_append, and_or_left]
    rfl

/-- a map of the first part stands if the second part leaves its node alone -/
theorem maps_applyBatch_append : (s.applyBatch (a ++ b)).1.maps =
    (s.applyBatch a).1.maps ∪ ((s.applyBatch a).2.applyBatch b).1.maps := by
  have hstore : (s.absorbAll (a ++ b)).store = ((s.applyBatch a).2.absorbAll b).store :=
    store_applyBatch_append s a b
  apply Std.ExtTreeMap.ext_getElem?
  intro node
  rw [Std.ExtTreeMap.getElem?_union, maps_applyBatch, maps_applyBatch, maps_applyBatch,
    reachable_applyBatch, hstore]
  simp only [mem_touched_append]
  by_cases hr : node ∈ s.reachable
  · by_cases hlate : node ∈ ((s.applyBatch a).2.absorbAll b).touched
    · simp [hr, hlate]
    · have hv : ((s.applyBatch a).2.absorbAll b).store.valueMap node =
          (s.absorbAll a).store.valueMap node := (h.applyBatch a).valueMap_absorbAll b hlate
      simp [hr, hlate, hv]
  · simp [hr]

end Coherent

end

/-- **A batch may be cut anywhere**: its two parts, one after the other, lead to the same state, and the
report of the whole has what either part has added, updated and removed; it is silent if both are.  Of
the value maps of a node the later one is told (in a union of maps the second one has the last word). -/
theorem applyBatch_append (updates : List Update) (first second : List Property) :
    let s := after updates
    let whole := s.applyBatch (first ++ second)
    let early := s.applyBatch first
    let late := early.2.applyBatch second
    whole.2 = late.2 ∧
    whole.1.change.getD .none = (early.1.change.getD .none).union (late.1.change.getD .none) ∧
    (whole.1.change = none ↔ early.1.change = none ∧ late.1.change = none) ∧
    whole.1.maps = early.1.maps ∪ late.1.maps := by
  intro s whole early late
  have h : s.Coherent := coherent_after updates
  have hchange : whole.1.change.getD .none =
      (early.1.change.getD .none).union (late.1.change.getD .none) := by
    rw [change_applyBatch, change_applyBatch, change_applyBatch]
    exact h.change_absorbAll_append first second
  have hkept : ∀ node, node ∈ late.2.views.all ↔ node ∈ whole.2.views.all := by
    intro node
    rw [(h.applyBatch first).mem_all_applyBatch, h.mem_all_applyBatch, h.mem_all_applyBatch,
      announced_append, or_assoc]
  have hstate : whole.2 = late.2 := ((h.applyBatch _).ext ((h.applyBatch first).applyBatch second)
    (store_applyBatch_append s first second).symm rfl hkept).symm
  refine ⟨hstate, hchange, ?_, h.maps_applyBatch_append first second⟩
  rw [change_applyBatch_eq_none_iff, change_applyBatch_eq_none_iff, change_applyBatch_eq_none_iff,
    h.change_absorbAll_append, PropertyChange.isEmpty_union, Bool.and_eq_true]

end State

/-! ## the same events in another order -/

/-- nothing is said of how events of different nodes or keys lie to each other -/
structure Reorders (other batch : List Property) : Prop where
  perm : other.Perm batch
  eventsOf_eq (node : NodeId) (key : String) : eventsOf other node key = eventsOf batch node key

namespace Reorders

variable {other batch : List Property}

/-- it is enough to look at the keys that have an event -/
theorem iff_forall_mem : Reorders other batch ↔ other.Perm batch ∧
    ∀ p ∈ batch, eventsOf other p.node p.key = eventsOf batch p.node p.key := by
  constructor
  · exact fun h => ⟨h.perm, fun p _ => h.eventsOf_eq p.node p.key⟩
  · rintro ⟨perm, heach⟩
    refine ⟨perm, fun node key => ?_⟩
    by_cases hk : ∃ p ∈ batch, p.node = node ∧ p.key = key
    · obtain ⟨p, hp, rfl, rfl⟩ := hk
      exact heach p hp
    · have hnil : eventsOf batch node key = [] :=
        List.filter_eq_nil_iff.2 fun p hp he => hk ⟨p, hp, by simpa using he⟩
      have hperm : (eventsOf other node key).Perm (eventsOf batch node key) := perm.filter _
      rw [hnil] at hperm ⊢
      exact hperm.eq_nil

instance : Decidable (Reorders other batch) := decidable_of_iff _ iff_forall_mem.symm

theorem announced_iff (h : Reorders other batch) {node : NodeId} :
    Announced other node ↔ Announced batch node := by
  simp only [Announced, h.perm.mem_iff]

theorem applyAll_eq (h : Reorders other batch) (s : Store) : s.applyAll other = s.applyAll batch := by
  apply Store.ext_get?
  · intro node
    rw [Bool.eq_iff_iff, Store.isKnown_applyAll, Store.isKnown_applyAll]
    simp only [h.perm.mem_iff]
  · intro node key
    rw [Store.get?_applyAll_eq_entryAfter, Store.get?_applyAll_eq_entryAfter, h.eventsOf_eq]

end Reorders

namespace State

/-- **The order of independent events does not matter**: batches with the same events, those of each
node and key in the same order, are reported alike and lead to the same state. -/
theorem applyBatch_reordered (updates : List Update) {batch other : List Property}
    (ho : Reorders other batch) :
    ((after updates).applyBatch other).1 = ((after updates).applyBatch batch).1 ∧
      ((after updates).applyBatch other).2 = ((after updates).applyBatch batch).2 := by
  have h : (after updates).Coherent := coherent_after updates
  constructor
  · have hn : ∀ node ∈ (after updates).reachable, node ∈ (after updates).reachable := fun _ => id
    exact (Agree.refl (after updates).reachable (after updates)).applyBatch h h hn
      fun node _ key => ho.eventsOf_eq node key
  · refine (h.applyBatch batch).ext (h.applyBatch other) ?_ rfl fun node => ?_
    · rw [store_applyBatch, store_applyBatch, store_absorbAll, store_absorbAll, ho.applyAll_eq]
    · rw [h.mem_all_applyBatch, h.mem_all_applyBatch, ho.announced_iff]

/-- a key that is updated, taken back and set again, one of a node out of reach, and a tombstone that
takes nothing back -/
def sorted : List Property :=
  [.live ⟨"n"⟩ "k" "2", .tombstone ⟨"n"⟩ "k", .live ⟨"n"⟩ "k" "3", .live ⟨"n"⟩ "j" "1",
    .live ⟨"m"⟩ "k" "1", .live ⟨"m"⟩ "k" "2", .tombstone ⟨"m"⟩ "j"]

def shuffled : List Property :=
  [.tombstone ⟨"m"⟩ "j", .live ⟨"m"⟩ "k" "1", .live ⟨"n"⟩ "k" "2", .live ⟨"n"⟩ "j" "1",
    .tombstone ⟨"n"⟩ "k", .live ⟨"m"⟩ "k" "2", .live ⟨"n"⟩ "k" "3"]

theorem applyBatch_reordered_shuffled :
    Reorders shuffled sorted ∧
      ((after stepwise).applyBatch shuffled).1 = ((after stepwise).applyBatch sorted).1 ∧
      ((after stepwise).applyBatch shuffled).2 = ((after stepwise).applyBatch sorted).2 := by
  have ho : Reorders shuffled sorted := by decide +kernel
  exact ⟨ho, applyBatch_reordered stepwise ho⟩

end State

end OverlayWatch
