import OverlayWatch.Proofs.State.Reports

/-!
# Which nodes have a value map

A node is known from its first event on, whatever that event is.  Its value map is taken when an event
has had an effect, and an empty one when it becomes reachable and has none.  So what a node has been
sent decides whether its map is there, and being known does not: a tombstone that finds nothing to take
back makes its node known and leaves no map.

* `Announced`                 one of the events is live and of this node;
* `Effective`                 the event is live or takes something back;
* `State.mem_touched_absorbAll`   the nodes that a batch has an effect on, by their own events;
* `State.everReachable`       the nodes that are reachable at some moment of a run;
* `Coherent.mem_all_foldl_advance`   the nodes with a map after any updates;
* `State.kept_iff_announced_or_reached`   so a known node has none exactly if all it has been sent are
                              tombstones and it has never been reachable.
-/

namespace OverlayWatch

def Announced (events : List Property) (node : NodeId) : Prop :=
  ∃ p ∈ events, p.node = node ∧ p.isTombstone = false

theorem not_announced_nil (node : NodeId) : ¬ Announced [] node := by
  rintro ⟨p, hp, -⟩
  cases hp

theorem announced_append {l k : List Property} {node : NodeId} :
    Announced (l ++ k) node ↔ Announced l node ∨ Announced k node := by
  simp only [Announced, List.mem_append, or_and_right, exists_or]

theorem Store.outcome_eq_unchanged_iff {s : Store} {p : Property} :
    s.outcome p = .unchanged ↔ p.isTombstone = true ∧ s.get? p.node p.key = none := by
  unfold outcome
  cases s.get? p.node p.key <;> cases p.isTombstone <;> simp

theorem mem_eventsOf {events : List Property} {node : NodeId} {key : String} {p : Property} :
    p ∈ eventsOf events node key ↔ p ∈ events ∧ p.node = node ∧ p.key = key := by
  simp [eventsOf]

/-! ## events that have an effect -/

/-- the event is live, or takes back what it finds -/
def Effective (entry : Option Property) (event : Property) : Prop :=
  event.isTombstone = false ∨ entry ≠ none

section
variable {entry : Option Property} {events : List Property}

theorem met_effective_of_live {p : Property} (hp : p ∈ events) (hl : p.isTombstone = false) :
    Met Effective entry events := by
  induction events generalizing entry with
  | nil => cases hp
  | cons q events ih =>
    rcases List.mem_cons.1 hp with rfl | hp
    · exact .inl (.inl hl)
    · exact .inr (ih hp)

/-- what is taken back was there, or one of the events put it there -/
theorem Met.of_effective (h : Met Effective entry events) :
    entry ≠ none ∨ ∃ p ∈ events, p.isTombstone = false := by
  obtain ⟨found, p, hp, hl | hf, rfl | ⟨q, hq, rfl⟩⟩ := h.exists_event
  · exact .inr ⟨p, hp, hl⟩
  · exact .inr ⟨p, hp, hl⟩
  · exact .inl hf
  · rw [ne_eq, Property.live?_eq_none_iff, Bool.not_eq_true] at hf
    exact .inr ⟨q, hq, hf⟩

end

namespace State

/-! ## the nodes that are reachable in the course of a run -/

def everReachable (s : State) : List Update → NodeSet
  | [] => s.reachable
  | u :: rest => s.reachable ∪ (s.advance u).everReachable rest

section
variable {s : State} {node : NodeId}

theorem mem_everReachable_cons {u : Update} {rest : List Update} :
    node ∈ s.everReachable (u :: rest) ↔
      node ∈ s.reachable ∨ node ∈ (s.advance u).everReachable rest :=
  Std.ExtTreeSet.mem_union_iff

theorem mem_everReachable_of_reachable (h : node ∈ s.reachable) (updates : List Update) :
    node ∈ s.everReachable updates := by
  cases updates with
  | nil => exact h
  | cons u rest => exact mem_everReachable_cons.2 (.inl h)

theorem of_everReachable_cons {P : NodeId → Prop} {u : Update} {rest : List Update}
    (h : ∀ node ∈ s.everReachable (u :: rest), P node) :
    (∀ node ∈ s.reachable, P node) ∧ (∀ node ∈ (s.advance u).reachable, P node) ∧
      ∀ node ∈ (s.advance u).everReachable rest, P node := by
  have hrest : ∀ node ∈ (s.advance u).everReachable rest, P node :=
    fun node hn => h node (mem_everReachable_cons.2 (.inr hn))
  refine ⟨fun node hr => ?_, fun node hr => ?_, hrest⟩
  · exact h node (mem_everReachable_cons.2 (.inl hr))
  · exact hrest node (mem_everReachable_of_reachable hr rest)

theorem mem_everReachable_append {l k : List Update} :
    node ∈ s.everReachable (l ++ k) ↔
      node ∈ s.everReachable l ∨ node ∈ (l.foldl advance s).everReachable k := by
  induction l generalizing s with
  | nil =>
    show node ∈ s.everReachable k ↔ node ∈ s.reachable ∨ node ∈ s.everReachable k
    exact ⟨.inr, fun h => h.elim (fun hr => mem_everReachable_of_reachable hr k) id⟩
  | cons u l ih =>
    rw [List.cons_append, mem_everReachable_cons, mem_everReachable_cons, ih, or_assoc]
    rfl

end

/-! ## the nodes that a batch has an effect on -/

theorem met_eventsOf_cons {kind : Option Property → Property → Prop} {s : Store} {p : Property}
    {events : List Property} {node : NodeId} {key : String} :
    Met kind (s.get? node key) (eventsOf (p :: events) node key) ↔
      (p.node = node ∧ p.key = key) ∧ kind (s.get? p.node p.key) p ∨
        Met kind ((s.apply p).2.get? node key) (eventsOf events node key) := by
  rw [eventsOf_cons, Store.get?_apply]
  by_cases h : p.node = node ∧ p.key = key
  · rw [if_pos h, if_pos h, Met, ← h.1, ← h.2, and_iff_right ⟨rfl, rfl⟩]
  · rw [if_neg h, if_neg h, or_iff_right fun hk => h hk.1]

theorem Progress.mem_touched_absorb {reachable : NodeSet} {w : Progress} {p : Property}
    {node : NodeId} : node ∈ (w.absorb reachable p).touched ↔
      p.node = node ∧ Effective (w.store.get? p.node p.key) p ∨ node ∈ w.touched := by
  rw [touched_absorb]
  by_cases h : w.store.outcome p = .unchanged
  · obtain ⟨ht, hg⟩ := Store.outcome_eq_unchanged_iff.1 h
    rw [if_pos h]
    simp [Effective, ht, hg]
  · rw [if_neg h, Std.ExtTreeSet.mem_insert]
    rw [Store.outcome_eq_unchanged_iff, not_and_or, Bool.not_eq_true] at h
    simp only [Std.compare_eq_iff_eq, Effective, ne_eq, h, and_true]

theorem Progress.mem_touched_foldl {reachable : NodeSet} {w : Progress} {batch : List Property}
    {node : NodeId} : node ∈ (batch.foldl (absorb reachable) w).touched ↔
      node ∈ w.touched ∨
        ∃ key, Met Effective (w.store.get? node key) (eventsOf batch node key) := by
  induction batch generalizing w with
  | nil => simp [eventsOf, Met]
  | cons p batch ih =>
    have hkey : (∃ key, (p.node = node ∧ p.key = key) ∧ Effective (w.store.get? p.node p.key) p) ↔
        p.node = node ∧ Effective (w.store.get? p.node p.key) p := by simp
    rw [List.foldl_cons, ih, mem_touched_absorb, store_absorb, or_assoc, or_left_comm]
    simp only [met_eventsOf_cons, exists_or, hkey]

theorem mem_touched_absorbAll {s : State} {batch : List Property} {node : NodeId} :
    node ∈ (s.absorbAll batch).touched ↔
      ∃ key, Met Effective (s.store.get? node key) (eventsOf batch node key) := by
  rw [absorbAll, Progress.mem_touched_foldl]
  simp [Progress.start]

/-! ## the nodes with a map -/

namespace Coherent

variable {s : State} (h : s.Coherent) {node : NodeId}
include h

theorem mem_all_of_get? {key : String} (hg : s.store.get? node key ≠ none) :
    node ∈ s.views.all := by
  by_contra hn
  have hv : s.store.valueMap node = ∅ := by
    rw [← h.kept]
    exact Std.ExtTreeMap.getD_eq_fallback hn
  exact hg ((h.filed.valueMap_eq_empty_iff node).1 hv key)

theorem mem_all_applyBatch (batch : List Property) : node ∈ (s.applyBatch batch).2.views.all ↔
    node ∈ s.views.all ∨ Announced batch node := by
  have hall : node ∈ (s.applyBatch batch).2.views.all ↔
      node ∈ (s.absorbAll batch).touched ∨ node ∈ s.views.all := by
    rw [← Std.ExtTreeMap.isSome_getElem?_iff_mem, all_applyBatch]
    by_cases ht : node ∈ (s.absorbAll batch).touched <;> simp [ht]
  rw [hall, mem_touched_absorbAll]
  constructor
  · rintro (⟨key, hk⟩ | ha)
    · rcases hk.of_effective with hg | ⟨p, hp, hl⟩
      · exact .inl (h.mem_all_of_get? hg)
      · obtain ⟨hp, hn, -⟩ := mem_eventsOf.1 hp
        exact .inr ⟨p, hp, hn, hl⟩
    · exact .inl ha
  · rintro (ha | ⟨p, hp, hn, hl⟩)
    · exact .inr ha
    · exact .inl ⟨p.key, met_effective_of_live (mem_eventsOf.2 ⟨hp, hn, rfl⟩) hl⟩

theorem mem_all_moveTo {c : TopologyChange} (hc : c.Fits s.reachable) :
    node ∈ (s.moveTo c).2.views.all ↔ node ∈ s.views.all ∨ node ∈ c.reachable := by
  have hall : node ∈ (s.moveTo c).2.views.all ↔ node ∈ c.added ∨ node ∈ s.views.all := by
    rw [← Std.ExtTreeMap.isSome_getElem?_iff_mem, all_moveTo]
    by_cases ha : node ∈ c.added <;> simp [ha]
  rw [hall]
  constructor
  · rintro (ha | ha)
    · exact .inr ((hc.mem_reachable node).2 (.inr ha))
    · exact .inl ha
  · rintro (ha | hr)
    · exact .inr ha
    · exact hall.1 ((h.moveTo hc).keptOfReachable hr)

theorem mem_all_advance (u : Update) : node ∈ (s.advance u).views.all ↔
    node ∈ s.views.all ∨ Announced u.events node ∨ node ∈ (s.advance u).reachable := by
  cases u with
  | batch events =>
    show node ∈ (s.applyBatch events).2.views.all ↔
      node ∈ s.views.all ∨ Announced events node ∨ node ∈ s.reachable
    rw [h.mem_all_applyBatch]
    have hr : node ∈ s.reachable → node ∈ s.views.all := h.keptOfReachable
    tauto
  | topology c =>
    cases hc : c.check s.reachable with
    | error fault =>
      rw [advance_topology_error hc]
      show _ ↔ _ ∨ Announced [] node ∨ _
      have hr : node ∈ s.reachable → node ∈ s.views.all := h.keptOfReachable
      simp only [not_announced_nil]
      tauto
    | ok =>
      rw [advance_topology_ok hc, h.mem_all_moveTo (TopologyChange.check_eq_ok_iff.1 hc),
        reachable_moveTo]
      show _ ↔ _ ∨ Announced [] node ∨ _
      simp only [not_announced_nil, false_or]

theorem mem_all_foldl_advance (updates : List Update) :
    node ∈ (updates.foldl State.advance s).views.all ↔
      node ∈ s.views.all ∨ Announced (history updates) node ∨ node ∈ s.everReachable updates := by
  induction updates generalizing s with
  | nil =>
    have hr : node ∈ s.reachable → node ∈ s.views.all := h.keptOfReachable
    show node ∈ s.views.all ↔ _ ∨ Announced [] node ∨ node ∈ s.reachable
    simp only [not_announced_nil]
    tauto
  | cons u rest ih =>
    have hr : node ∈ s.reachable → node ∈ s.views.all := h.keptOfReachable
    have hn : node ∈ (s.advance u).reachable → node ∈ (s.advance u).everReachable rest :=
      fun hn => mem_everReachable_of_reachable hn rest
    rw [List.foldl_cons, ih (h.advance u), h.mem_all_advance, history_cons, announced_append,
      mem_everReachable_cons]
    tauto

end Coherent

/-- **A node has a value map exactly if it has been sent a live property or has been reachable**, and
the map is then the one that the store gives.  So a known node has none exactly if all its events were
tombstones and it was never reachable; the store has nothing for such a node. -/
theorem kept_iff_announced_or_reached (updates : List Update) (node : NodeId) :
    let s := after updates
    let events := history updates
    let reached := empty.everReachable updates
    (s.valueMap? node = some (s.store.valueMap node) ↔ Announced events node ∨ node ∈ reached) ∧
    (s.store.isKnown node = true ∧ s.valueMap? node = none ↔
      (∃ p ∈ events, p.node = node) ∧ (∀ p ∈ events, p.node = node → p.isTombstone = true) ∧
        node ∉ reached) ∧
    (s.valueMap? node = none → s.store.valueMap node = ∅) := by
  intro s events reached
  have h : s.Coherent := coherent_after updates
  have hmem : node ∈ s.views.all ↔ Announced events node ∨ node ∈ reached := by
    have hall : node ∈ s.views.all ↔ node ∈ empty.views.all ∨ _ :=
      coherent_empty.mem_all_foldl_advance updates
    have hn : node ∉ empty.views.all := Std.ExtTreeMap.not_mem_empty
    rw [hall, or_iff_right hn]
  have hsome : s.valueMap? node = some (s.store.valueMap node) ↔ node ∈ s.views.all := by
    rw [← Std.ExtTreeMap.isSome_getElem?_iff_mem, ← h.kept, Std.ExtTreeMap.getD_eq_getD_getElem?]
    show s.views.all[node]? = _ ↔ _
    cases s.views.all[node]? <;> simp
  have hnone : s.valueMap? node = none ↔ node ∉ s.views.all := by
    rw [← Std.ExtTreeMap.isSome_getElem?_iff_mem, ← Option.not_isSome_iff_eq_none]
    rfl
  refine ⟨hsome.trans hmem, ?_, fun hv => ?_⟩
  · rw [hnone, hmem, isKnown_store_after, not_or]
    refine and_congr_right fun _ => and_congr_left fun _ => ?_
    constructor
    · intro ha p hp hpn
      by_contra ht
      exact ha ⟨p, hp, hpn, Bool.eq_false_of_not_eq_true ht⟩
    · rintro ht ⟨p, hp, hpn, hl⟩
      rw [ht p hp hpn] at hl
      cases hl
  · rw [← h.kept]
    exact Std.ExtTreeMap.getD_eq_fallback (hnone.1 hv)

/-- the node is known by a tombstone alone -/
theorem not_kept_of_known :
    ¬ ∀ (updates : List Update) (node : NodeId), (after updates).store.isKnown node = true →
      (after updates).valueMap? node = some ((after updates).store.valueMap node) := by
  intro h
  have hv := h [.batch [.tombstone ⟨"n"⟩ "k"]] ⟨"n"⟩ (by decide +kernel)
  revert hv
  decide +kernel

end State

end OverlayWatch
