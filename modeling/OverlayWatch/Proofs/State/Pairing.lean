import OverlayWatch.Proofs.State.Classification
import OverlayWatch.Proofs.State.Differences

/-!
# A change does not come without maps

What an update tells is taken from two places: the change from the three sets, and the maps from the
nodes that an event has had an effect on, or that come and go.  Both are there or both are missing, for
an event of a reachable node has an effect exactly if it puts something into one of the sets; only a
topology change can have maps without a change, because a node may come or go with nothing filed for it.

* `met_effective_iff`            an event that has an effect adds, updates or removes;
* `State.mem_maps_applyBatch`    the maps of a batch are those of the reachable nodes with such an event;
* `Coherent.change_iff_maps`     a batch has a change exactly if it has maps;
* `State.maps_moveTo_iff`        a topology change has maps exactly if a node comes or goes;
* `Coherent.maps_of_change`      no update has a change without maps.
-/

namespace OverlayWatch

/-! ## events that have an effect -/

theorem Met.imp {k l : Option Property → Property → Prop} (hkl : ∀ entry p, k entry p → l entry p)
    {entry : Option Property} {events : List Property} (h : Met k entry events) :
    Met l entry events := by
  induction events generalizing entry with
  | nil => exact h
  | cons p events ih => exact Or.imp (hkl entry p) ih h

/-- what an event does to its key, and to which property -/
theorem effective_iff {entry : Option Property} {p : Property} : Effective entry p ↔
    ∃ q : Property, q.AddedBy entry p ∨ q.UpdatedBy entry p ∨ q.RemovedBy entry p := by
  refine ⟨fun h => ?_, fun h => ?_⟩
  · by_cases ht : p.isTombstone = true
    · have hf : entry ≠ none := h.resolve_left fun hl => by rw [ht] at hl; cases hl
      obtain ⟨q, hq⟩ := Option.ne_none_iff_exists'.1 hf
      exact ⟨q, .inr (.inr ⟨ht, hq⟩)⟩
    · have hl : p.isTombstone = false := Bool.eq_false_of_not_eq_true ht
      by_cases hf : entry = none
      · exact ⟨p, .inl ⟨rfl, hl, hf⟩⟩
      · exact ⟨p, .inr (.inl ⟨rfl, hl, hf⟩)⟩
  · obtain ⟨q, ⟨-, hl, -⟩ | ⟨-, hl, -⟩ | ⟨-, hf⟩⟩ := h
    · exact .inl hl
    · exact .inl hl
    · exact .inr (by simp [hf])

theorem met_effective_iff {entry : Option Property} {events : List Property} :
    Met Effective entry events ↔ ∃ q : Property,
      Met q.AddedBy entry events ∨ Met q.UpdatedBy entry events ∨ Met q.RemovedBy entry events := by
  refine ⟨fun h => ?_, fun h => ?_⟩
  · obtain ⟨earlier, p, later, rfl, hk⟩ := h.exists_split
    have here : ∀ {kind : Option Property → Property → Prop}, kind (entryAfter entry earlier) p →
        Met kind entry (earlier ++ p :: later) := fun hk => met_append.2 (.inr (.inl hk))
    obtain ⟨q, hq⟩ := effective_iff.1 hk
    exact ⟨q, hq.imp here (Or.imp here here)⟩
  · obtain ⟨q, h | h | h⟩ := h
    · exact h.imp fun entry p hq => effective_iff.2 ⟨q, .inl hq⟩
    · exact h.imp fun entry p hq => effective_iff.2 ⟨q, .inr (.inl hq)⟩
    · exact h.imp fun entry p hq => effective_iff.2 ⟨q, .inr (.inr hq)⟩

/-- every other event is a tombstone that finds nothing -/
theorem effective_iff_outcome {s : Store} {p : Property} :
    Effective (s.get? p.node p.key) p ↔ s.outcome p ≠ .unchanged := by
  rw [ne_eq, Store.outcome_eq_unchanged_iff, not_and_or, Bool.not_eq_true]
  rfl

namespace State

/-! ## batches -/

theorem mem_maps_iff_touched (s : State) (batch : List Property) (node : NodeId) :
    node ∈ (s.applyBatch batch).1.maps ↔ node ∈ s.reachable ∧ node ∈ (s.absorbAll batch).touched := by
  rw [← Std.ExtTreeMap.isSome_getElem?_iff_mem, maps_applyBatch]
  by_cases ht : node ∈ (s.absorbAll batch).touched <;> simp [ht]

/-- an event is looked at in the store that the events before it have left -/
theorem mem_maps_applyBatch (s : State) (batch : List Property) (node : NodeId) :
    node ∈ (s.applyBatch batch).1.maps ↔ node ∈ s.reachable ∧ ∃ earlier p later,
      batch = earlier ++ p :: later ∧ p.node = node ∧
        (s.store.applyAll earlier).outcome p ≠ .unchanged := by
  have hfound : ∀ (earlier : List Property) (key : String),
      foundAfter (s.store.get? node key) earlier node key
        = (s.store.applyAll earlier).get? node key :=
    fun earlier key => (s.store.get?_applyAll earlier node key).symm
  rw [mem_maps_iff_touched, mem_touched_absorbAll]
  refine and_congr_right fun _ => ⟨fun h => ?_, fun h => ?_⟩
  · obtain ⟨key, hk⟩ := h
    obtain ⟨earlier, p, later, hb, rfl, rfl, hp⟩ := met_iff_exists_split.1 hk
    rw [hfound] at hp
    exact ⟨earlier, p, later, hb, rfl, effective_iff_outcome.1 hp⟩
  · obtain ⟨earlier, p, later, hb, rfl, hp⟩ := h
    refine ⟨p.key, met_iff_exists_split.2 ⟨earlier, p, later, hb, rfl, rfl, ?_⟩⟩
    rw [hfound]
    exact effective_iff_outcome.2 hp

namespace Coherent

variable {s : State} (h : s.Coherent)
include h

/-- one of the three sets has something exactly if an event of a reachable node has an effect -/
theorem change_ne_none_iff (batch : List Property) : (s.applyBatch batch).1.change ≠ none ↔
    ∃ node ∈ s.reachable, ∃ key,
      Met Effective (s.store.get? node key) (eventsOf batch node key) := by
  have hc : (s.applyBatch batch).1.change ≠ none ↔ ∃ q, q ∈ (s.absorbAll batch).change.added ∨
      q ∈ (s.absorbAll batch).change.updated ∨ q ∈ (s.absorbAll batch).change.removed := by
    rw [ne_eq, change_applyBatch_eq_none_iff]
    simp only [PropertyChange.isEmpty, Bool.and_eq_true, Std.ExtTreeSet.isEmpty_iff,
      Std.ExtTreeSet.eq_empty_iff_forall_not_mem, ← forall_and, not_forall, ← not_or, not_not,
      or_assoc]
  rw [hc]
  refine ⟨fun hq => ?_, fun hn => ?_⟩
  · obtain ⟨q, hq⟩ := hq
    rw [h.mem_added_iff, h.mem_updated_iff, h.mem_removed_iff, ← and_or_left, ← and_or_left] at hq
    exact ⟨q.node, hq.1, q.key, met_effective_iff.2 ⟨q, hq.2⟩⟩
  · obtain ⟨node, hr, key, hm⟩ := hn
    have tells := h.tells_absorbAll batch hr key
    obtain ⟨q, hq⟩ := met_effective_iff.1 hm
    have hown : (q.node, q.key) = (node, key) := by
      obtain hq | hq | hq := hq
      · exact eventsOf_own hq.of_added.1
      · exact eventsOf_own hq.of_updated.1
      · exact hq.of_removed.elim h.get?_own eventsOf_own
    exact ⟨q, hq.imp (tells.added q hown).2 (Or.imp (tells.updated q hown).2 (tells.removed q hown).2)⟩

theorem change_iff_maps (batch : List Property) :
    (s.applyBatch batch).1.change ≠ none ↔ (s.applyBatch batch).1.maps ≠ ∅ := by
  have hmaps : (s.applyBatch batch).1.maps ≠ ∅ ↔
      ∃ node ∈ s.reachable, node ∈ (s.absorbAll batch).touched := by
    rw [ne_eq, Std.ExtTreeMap.eq_empty_iff_forall_not_mem]
    simp only [mem_maps_iff_touched, not_forall, not_not]
  rw [hmaps, h.change_ne_none_iff]
  simp only [mem_touched_absorbAll]

end Coherent

/-! ## topology changes -/

theorem maps_moveTo_iff (s : State) (c : TopologyChange) :
    (s.moveTo c).1.maps ≠ ∅ ↔ c.isEmpty = false := by
  rw [ne_eq, Std.ExtTreeMap.eq_empty_iff_forall_not_mem, ← Bool.not_eq_true, not_iff_not,
    TopologyChange.isEmpty, Bool.and_eq_true, Std.ExtTreeSet.isEmpty_iff, Std.ExtTreeSet.isEmpty_iff,
    Std.ExtTreeSet.eq_empty_iff_forall_not_mem, Std.ExtTreeSet.eq_empty_iff_forall_not_mem,
    ← forall_and]
  simp only [mem_maps_moveTo, not_or]

/-- what comes and goes is filed for nodes that come and go -/
theorem maps_of_change_moveTo {s : State} {c : TopologyChange}
    (hc : (s.moveTo c).1.change ≠ none) : (s.moveTo c).1.maps ≠ ∅ := by
  rw [maps_moveTo_iff, ← Bool.not_eq_true]
  intro he
  rw [TopologyChange.isEmpty, Bool.and_eq_true, Std.ExtTreeSet.isEmpty_iff,
    Std.ExtTreeSet.isEmpty_iff] at he
  obtain ⟨hadded, hremoved⟩ := he
  refine hc ((change_moveTo_eq_none_iff s c).2 ?_)
  rw [hadded, hremoved]
  exact ⟨rfl, rfl⟩

/-! ## any update -/

theorem Coherent.maps_of_change {s next : State} (h : s.Coherent) {u : Update} {d : Delta}
    (hu : s.update u = .ok (d, next)) (hc : d.change ≠ none) : d.maps ≠ ∅ := by
  obtain ⟨batch, rfl, hd⟩ | ⟨c, rfl, -, hd⟩ := update_ok_cases hu
  · have hb : (s.applyBatch batch).1 = d := congrArg Prod.fst hd
    rw [← hb] at hc ⊢
    exact (h.change_iff_maps batch).1 hc
  · have hm : (s.moveTo c).1 = d := congrArg Prod.fst hd
    rw [← hm] at hc ⊢
    exact maps_of_change_moveTo hc

/-- the same for all updates of a run that are taken in -/
theorem Coherent.maps_of_change_deltas {s : State} (h : s.Coherent) {updates : List Update}
    {d : Delta} (hd : d ∈ s.deltas updates) (hc : d.change ≠ none) : d.maps ≠ ∅ := by
  induction updates generalizing s with
  | nil => cases hd
  | cons u rest ih =>
    have hnext : (s.advance u).Coherent := h.advance u
    cases hu : s.update u with
    | error fault =>
      rw [deltas_cons_error hu] at hd
      exact ih h hd
    | ok result =>
      obtain ⟨e, next⟩ := result
      rw [deltas_cons_ok hu] at hd
      rw [advance_ok hu] at hnext
      obtain rfl | hd := List.mem_cons.1 hd
      · exact h.maps_of_change hu hc
      · exact ih hnext hd

end State

end OverlayWatch
