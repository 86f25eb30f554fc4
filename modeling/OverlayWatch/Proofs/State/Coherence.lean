import OverlayWatch.Proofs.Store.Filing
import OverlayWatch.Proofs.Topology
import OverlayWatch.State.Audit
import OverlayWatch.State.Update

/-!
# The derived parts of the state

What is visible and the two caches of value maps are kept up to date by different steps: the visible
properties event by event, the caches once after a batch, and the maps shown from the cache when a
node comes back.  All of them are functions of the store and the reachable nodes all the same:

* `State.Coherent`            which function each of them is;
* `Coherent.applyBatch`, `Coherent.moveTo`   the two kinds of update keep it;
* `State.coherent_after`      so it holds after any updates, refused ones among them;
* `Coherent.audit_eq_none`    and the audit, which looks at less, finds nothing;
* `Coherent.ext`              a coherent state is its store, its reachable nodes, and the nodes that it
                              keeps a map of.

Why the caches are described by `getD _ ∅`: a node that has nothing may or may not have an entry, and
an empty map is what it is shown with in both cases.
-/

namespace OverlayWatch

theorem Store.WellFiled.mem_propertiesOf {s : Store} (h : s.WellFiled) {nodes : NodeSet}
    {p : Property} :
    p ∈ s.propertiesOf nodes ↔ p.node ∈ nodes ∧ s.get? p.node p.key = some p := by
  simp only [propertiesOf, Std.ExtTreeSet.mem_ofList, List.contains_iff_mem, List.mem_flatMap,
    Std.ExtTreeSet.mem_toList, h.mem_properties]
  constructor
  · rintro ⟨node, hn, rfl, hp⟩
    exact ⟨hn, hp⟩
  · rintro ⟨hn, hp⟩
    exact ⟨p.node, hn, rfl, hp⟩

namespace State

/-! ## one event -/

/-- the visible properties and the touched nodes so far, against the store so far; `before` is the
store before the batch -/
structure Progress.Coherent (reachable : NodeSet) (before : Store) (w : Progress) : Prop where
  filed : w.store.WellFiled
  visible (p : Property) :
    p ∈ w.visible ↔ p.node ∈ reachable ∧ w.store.get? p.node p.key = some p
  untouched {node : NodeId} : node ∉ w.touched → w.store.shelf node = before.shelf node

theorem Progress.touched_reveal (w : Progress) (p : Property) (outcome : Outcome) :
    (w.reveal p outcome).touched = w.touched := by
  cases outcome <;> rfl

theorem Progress.visible_reveal_congr (w v : Progress) (p : Property) (outcome : Outcome)
    (h : w.visible = v.visible) : (w.reveal p outcome).visible = (v.reveal p outcome).visible := by
  cases outcome <;> simp [reveal, h]

/-- what was filed for the event's node and key goes, and the event comes if it is live -/
theorem Progress.mem_visible_reveal {w : Progress} {store : Store} {p q : Property} :
    q ∈ (w.reveal p (store.outcome p)).visible ↔
      (q ∈ w.visible ∧ store.get? p.node p.key ≠ some q) ∨ p.live? = some q := by
  unfold Store.outcome
  cases hg : store.get? p.node p.key with
  | none =>
    cases ht : p.isTombstone with
    | false => simp [reveal, Property.live?, ht, or_comm]
    | true => simp [reveal, Property.live?, ht]
  | some previous =>
    cases ht : p.isTombstone with
    | false => simp [reveal, Property.live?, ht, or_comm, and_comm]
    | true => simp [reveal, Property.live?, ht, and_comm]

theorem Progress.visible_absorb (reachable : NodeSet) (w : Progress) (p : Property) :
    (w.absorb reachable p).visible =
      if p.node ∈ reachable then (w.reveal p (w.store.outcome p)).visible else w.visible := by
  by_cases h : p.node ∈ reachable
  · simp only [absorb, if_pos h]
    exact visible_reveal_congr _ w p (w.store.outcome p) rfl
  · simp only [absorb, if_neg h]

theorem Progress.touched_absorb (reachable : NodeSet) (w : Progress) (p : Property) :
    (w.absorb reachable p).touched =
      if w.store.outcome p = .unchanged then w.touched else w.touched.insert p.node := by
  by_cases h : p.node ∈ reachable
  · simp only [absorb, if_pos h, touched_reveal]
    rfl
  · simp only [absorb, if_neg h]
    rfl

theorem Progress.Coherent.absorb {reachable : NodeSet} {before : Store} {w : Progress}
    (h : w.Coherent reachable before) (p : Property) :
    (w.absorb reachable p).Coherent reachable before := by
  refine ⟨?_, fun q => ?_, fun {node} hn => ?_⟩
  · rw [store_absorb]
    exact h.filed.apply p
  · rw [visible_absorb, store_absorb, Store.get?_apply]
    by_cases hr : p.node ∈ reachable
    · rw [if_pos hr, mem_visible_reveal, h.visible]
      by_cases e : p.node = q.node ∧ p.key = q.key
      · -- the entry of `q` is the one that the event is about
        rw [if_pos e, ← e.1, ← e.2]
        constructor
        · rintro (⟨⟨-, hq⟩, hne⟩ | hl)
          · exact absurd hq hne
          · exact ⟨hr, hl⟩
        · exact fun hq => Or.inr hq.2
      · rw [if_neg e]
        constructor
        · rintro (⟨hq, -⟩ | hl)
          · exact hq
          · obtain ⟨rfl, -⟩ := Property.live?_eq_some_iff.1 hl
            exact absurd ⟨rfl, rfl⟩ e
        · refine fun hq => Or.inl ⟨hq, fun hp => e ?_⟩
          exact ⟨(h.filed.node_eq hp).symm, (h.filed.key_eq hp).symm⟩
    · rw [if_neg hr, h.visible]
      refine and_congr_right fun hq => ?_
      have e : ¬ (p.node = q.node ∧ p.key = q.key) := fun e => hr (e.1 ▸ hq)
      rw [if_neg e]
  · rw [touched_absorb] at hn
    rw [store_absorb]
    by_cases ho : w.store.outcome p = .unchanged
    · rw [if_pos ho] at hn
      rw [Store.shelf_apply_of_unchanged ho, h.untouched hn]
    · rw [if_neg ho] at hn
      have hne : p.node ≠ node := fun e => hn (by rw [e]; exact Std.ExtTreeSet.mem_insert_self)
      have ht : node ∉ w.touched := fun ht => hn (Std.ExtTreeSet.mem_insert.2 (Or.inr ht))
      rw [Store.shelf_apply_of_ne hne, h.untouched ht]

theorem Progress.Coherent.foldl {reachable : NodeSet} {before : Store} {w : Progress}
    (h : w.Coherent reachable before) (batch : List Property) :
    (batch.foldl (Progress.absorb reachable) w).Coherent reachable before := by
  induction batch generalizing w with
  | nil => exact h
  | cons p batch ih => exact ih (h.absorb p)

/-! ## whole updates -/

structure Coherent (s : State) : Prop where
  filed : s.store.WellFiled
  visible (p : Property) :
    p ∈ s.visible ↔ p.node ∈ s.reachable ∧ s.store.get? p.node p.key = some p
  kept (node : NodeId) : s.views.all.getD node ∅ = s.store.valueMap node
  shown (node : NodeId) : s.views.reachable[node]? =
    if node ∈ s.reachable then some (s.store.valueMap node) else none
  keptOfReachable {node : NodeId} : node ∈ s.reachable → node ∈ s.views.all

theorem coherent_empty : empty.Coherent where
  filed := Store.wellFiled_empty
  visible p := by simp [empty]
  kept node := by simp [empty, Views.empty, Store.valueMap, Store.shelf_empty]
  shown node := by simp [empty, Views.empty]
  keptOfReachable h := by simp [empty] at h

/-! ## the maps that are kept -/

theorem all_applyBatch (s : State) (batch : List Property) (node : NodeId) :
    (s.applyBatch batch).2.views.all[node]? =
      if node ∈ (s.absorbAll batch).touched
      then some ((s.absorbAll batch).store.valueMap node) else s.views.all[node]? := by
  rw [applyBatch, Views.all_recordAll]
  simp only [Std.ExtTreeSet.mem_toList]

theorem all_moveTo (s : State) (c : TopologyChange) (node : NodeId) :
    (s.moveTo c).2.views.all[node]? =
      if node ∈ c.added then some (s.views.all.getD node ∅) else s.views.all[node]? := by
  rw [moveTo, Views.all_attachAll, Views.all_detachAll]
  simp only [Std.ExtTreeSet.mem_toList]

section
variable {s : State} (h : s.Coherent)
include h

theorem Coherent.absorbAll (batch : List Property) :
    (s.absorbAll batch).Coherent s.reachable s.store := by
  have start : (Progress.start s).Coherent s.reachable s.store :=
    ⟨h.filed, h.visible, fun _ => rfl⟩
  exact start.foldl batch

/-- an untouched node has the value map that it had -/
theorem Coherent.valueMap_absorbAll (batch : List Property) {node : NodeId}
    (hn : node ∉ (s.absorbAll batch).touched) :
    (s.absorbAll batch).store.valueMap node = s.store.valueMap node := by
  unfold Store.valueMap
  rw [(h.absorbAll batch).untouched hn]

theorem Coherent.applyBatch (batch : List Property) : (s.applyBatch batch).2.Coherent := by
  have hw := h.absorbAll batch
  refine ⟨hw.filed, hw.visible, fun node => ?_, fun node => ?_, fun {node} hn => ?_⟩
  · show (s.applyBatch batch).2.views.all.getD node ∅ = (s.absorbAll batch).store.valueMap node
    rw [Std.ExtTreeMap.getD_eq_getD_getElem?, all_applyBatch]
    by_cases ht : node ∈ (s.absorbAll batch).touched
    · rw [if_pos ht]
      rfl
    · rw [if_neg ht, ← Std.ExtTreeMap.getD_eq_getD_getElem?, h.kept, h.valueMap_absorbAll batch ht]
  · show (s.applyBatch batch).2.views.reachable[node]? =
      if node ∈ s.reachable then some ((s.absorbAll batch).store.valueMap node) else none
    rw [State.applyBatch, Views.reachable_recordAll, h.shown]
    by_cases hr : node ∈ s.reachable
    · by_cases ht : node ∈ (s.absorbAll batch).touched.toList
      · rw [if_pos ⟨ht, hr⟩, if_pos hr]
      · rw [if_neg fun e => ht e.1, if_pos hr, if_pos hr,
          h.valueMap_absorbAll batch fun e => ht (Std.ExtTreeSet.mem_toList.2 e)]
    · rw [if_neg fun e => hr e.2, if_neg hr, if_neg hr]
  · show node ∈ (s.applyBatch batch).2.views.all
    rw [← Std.ExtTreeMap.isSome_getElem?_iff_mem, all_applyBatch]
    split
    · rfl
    · exact Std.ExtTreeMap.isSome_getElem?_iff_mem.2 (h.keptOfReachable hn)

theorem Coherent.moveTo {c : TopologyChange} (hc : c.Fits s.reachable) : (s.moveTo c).2.Coherent := by
  refine ⟨h.filed, fun p => ?_, fun node => ?_, fun node => ?_, fun {node} hn => ?_⟩
  · show p ∈ (s.visible \ s.store.propertiesOf c.removed) ∪ s.store.propertiesOf c.added ↔
      p.node ∈ c.reachable ∧ s.store.get? p.node p.key = some p
    rw [Std.ExtTreeSet.mem_union_iff, Std.ExtTreeSet.mem_diff_iff, h.visible,
      h.filed.mem_propertiesOf, h.filed.mem_propertiesOf, hc.mem_reachable]
    tauto
  · show (s.moveTo c).2.views.all.getD node ∅ = s.store.valueMap node
    rw [Std.ExtTreeMap.getD_eq_getD_getElem?, all_moveTo, ← h.kept]
    split
    · rfl
    · rw [← Std.ExtTreeMap.getD_eq_getD_getElem?]
  · show (s.moveTo c).2.views.reachable[node]? =
      if node ∈ c.reachable then some (s.store.valueMap node) else none
    rw [State.moveTo, Views.reachable_attachAll, Views.reachable_detachAll, Views.all_detachAll,
      h.kept, h.shown]
    simp only [Std.ExtTreeSet.mem_toList, hc.mem_reachable]
    by_cases ha : node ∈ c.added
    · simp [ha]
    · by_cases hr : node ∈ c.removed <;> simp [ha, hr]
  · show node ∈ (s.moveTo c).2.views.all
    rw [← Std.ExtTreeMap.isSome_getElem?_iff_mem, all_moveTo]
    split
    · rfl
    · rename_i ha
      rcases (hc.mem_reachable node).1 hn with hr | hr
      · exact Std.ExtTreeMap.isSome_getElem?_iff_mem.2 (h.keptOfReachable hr.1)
      · exact absurd hr ha

theorem Coherent.advance (u : Update) : (s.advance u).Coherent := by
  cases u with
  | batch events => exact h.applyBatch events
  | topology c =>
    unfold State.advance State.update
    cases hc : c.check s.reachable with
    | error fault =>
      simp only [applyTopology_error hc]
      exact h
    | ok =>
      simp only [applyTopology_ok hc]
      exact h.moveTo (TopologyChange.check_eq_ok_iff.1 hc)

theorem Coherent.foldl_advance (updates : List Update) : (updates.foldl State.advance s).Coherent := by
  induction updates generalizing s with
  | nil => exact h
  | cons u rest ih => exact ih (h.advance u)

/-! ## the audit -/

theorem Coherent.auditVisible_eq_none : s.auditVisible = none := by
  have he : s.store.propertiesOf s.reachable = s.visible := by
    apply Std.ExtTreeSet.ext_mem
    intro p
    rw [h.filed.mem_propertiesOf, h.visible]
  exact if_pos he

theorem Coherent.auditShown_eq_none {entry : NodeId × ValueMap}
    (he : entry ∈ s.views.reachable.toList) : s.auditShown entry = none := by
  have hs : s.views.reachable[entry.1]? = some entry.2 :=
    Std.ExtTreeMap.mem_toList_iff_getElem?_eq_some.1 he
  rw [h.shown] at hs
  by_cases hr : entry.1 ∈ s.reachable
  · rw [if_pos hr] at hs
    simp [auditShown, hr, Option.some.inj hs]
  · rw [if_neg hr] at hs
    cases hs

theorem Coherent.auditNode_eq_none {node : NodeId} (hn : node ∈ s.reachable) :
    s.auditNode node = none := by
  refine if_neg fun e => e.2 ?_
  rw [← Std.ExtTreeMap.isSome_getElem?_iff_mem, h.shown, if_pos hn]
  rfl

theorem Coherent.audit_eq_none : s.audit = none := by
  have h1 : s.views.reachable.toList.findSome? s.auditShown = none :=
    List.findSome?_eq_none_iff.2 fun entry he => h.auditShown_eq_none he
  have h2 : s.reachable.toList.findSome? s.auditNode = none :=
    List.findSome?_eq_none_iff.2 fun node hn =>
      h.auditNode_eq_none (Std.ExtTreeSet.mem_toList.1 hn)
  rw [audit, h.auditVisible_eq_none, h1, h2]
  rfl

end

/-! ## what makes up a coherent state -/

section
variable {s t : State} (h : s.Coherent)
include h

theorem Coherent.getElem?_all (node : NodeId) :
    s.views.all[node]? = if node ∈ s.views.all then some (s.store.valueMap node) else none := by
  by_cases hn : node ∈ s.views.all
  · rw [if_pos hn, Std.ExtTreeMap.getElem?_eq_some_getD hn, h.kept]
  · rw [if_neg hn, Std.ExtTreeMap.getElem?_eq_none hn]

theorem Coherent.ext (k : t.Coherent) (store : t.store = s.store) (reachable : t.reachable = s.reachable)
    (kept : ∀ node, node ∈ t.views.all ↔ node ∈ s.views.all) : t = s := by
  have hvisible : t.visible = s.visible := by
    apply Std.ExtTreeSet.ext_mem
    intro p
    rw [k.visible, h.visible, store, reachable]
  have hall : t.views.all = s.views.all := by
    apply Std.ExtTreeMap.ext_getElem?
    intro node
    rw [k.getElem?_all, h.getElem?_all, store]
    simp only [kept]
  have hshown : t.views.reachable = s.views.reachable := by
    apply Std.ExtTreeMap.ext_getElem?
    intro node
    rw [k.shown, h.shown, store, reachable]
  calc t = ⟨t.store, t.reachable, t.visible, ⟨t.views.all, t.views.reachable⟩⟩ := rfl
    _ = s := by rw [store, reachable, hvisible, hall, hshown]

end

/-- a node and a key have one visible property at most -/
theorem Coherent.size_visible {s : State} (h : s.Coherent) : s.visible.size =
    Set.ncard {x : NodeId × String | x.1 ∈ s.reachable ∧ (s.store.get? x.1 x.2).isSome} := by
  let places := s.visible.toList.map fun p => (p.node, p.key)
  have hnodup : places.Nodup := by
    refine List.Nodup.map_on (fun p hp q hq he => ?_) ?_
    · obtain ⟨hn, hk⟩ := Prod.mk.inj he
      have hgp := ((h.visible p).1 (Std.ExtTreeSet.mem_toList.1 hp)).2
      have hgq := ((h.visible q).1 (Std.ExtTreeSet.mem_toList.1 hq)).2
      rw [hn, hk, hgq] at hgp
      exact (Option.some.inj hgp).symm
    · exact Std.ExtTreeSet.distinct_toList.imp fun hne he => hne (by simp [he])
  have hset : {x : NodeId × String | x.1 ∈ s.reachable ∧ (s.store.get? x.1 x.2).isSome} =
      (places.toFinset : Set _) := by
    ext ⟨node, key⟩
    simp only [Set.mem_ofPred_eq, List.coe_toFinset, places, List.mem_map, Std.ExtTreeSet.mem_toList,
      Prod.mk.injEq]
    constructor
    · rintro ⟨hr, hg⟩
      obtain ⟨p, hp⟩ := Option.isSome_iff_exists.1 hg
      obtain rfl : p.node = node := h.filed.node_eq hp
      obtain rfl : p.key = key := h.filed.key_eq hp
      exact ⟨p, (h.visible p).2 ⟨hr, hp⟩, rfl, rfl⟩
    · rintro ⟨p, hp, rfl, rfl⟩
      obtain ⟨hr, hg⟩ := (h.visible p).1 hp
      exact ⟨hr, by rw [hg]; rfl⟩
  rw [hset, Set.ncard_coe_finset, List.toFinset_card_of_nodup hnodup, List.length_map,
    Std.ExtTreeSet.length_toList]

theorem coherent_after (updates : List Update) : (State.after updates).Coherent :=
  coherent_empty.foldl_advance updates

/-- **The derived parts are exact after any updates**: every entry of the store is live and filed
under its own node and key, the visible properties are the entries of the reachable nodes, just the
reachable nodes are shown with a map, and every map that is shown or kept is the one the store gives. -/
theorem derived_parts_exact (updates : List Update) :
    let s := State.after updates
    (∀ node key p, s.store.get? node key = some p →
      p.node = node ∧ p.key = key ∧ p.isTombstone = false) ∧
    (∀ p, p ∈ s.visible ↔ ∃ node ∈ s.reachable, ∃ key, s.store.get? node key = some p) ∧
    (∀ node, node ∈ s.reachableValueMaps ↔ node ∈ s.reachable) ∧
    (∀ node values, s.reachableValueMap? node = some values →
      values = s.store.valueMap node ∧ s.valueMap? node = some values) ∧
    (∀ node values, s.valueMap? node = some values → values = s.store.valueMap node) ∧
    (∀ node key p, s.store.get? node key = some p → ∃ values, s.valueMap? node = some values) ∧
    s.audit = none := by
  intro s
  have h : s.Coherent := coherent_after updates
  have kept : ∀ node values, s.valueMap? node = some values → values = s.store.valueMap node := by
    intro node values hv
    rw [← h.kept, Std.ExtTreeMap.getD_eq_getD_getElem?, show s.views.all[node]? = some values from hv]
    rfl
  refine ⟨fun node key p hp => ⟨h.filed.node_eq hp, h.filed.key_eq hp, h.filed.live hp⟩,
    fun p => ?_, fun node => ?_, fun node values hv => ?_, kept, fun node key p hp => ?_,
    h.audit_eq_none⟩
  · rw [h.visible]
    constructor
    · rintro ⟨hn, hp⟩
      exact ⟨p.node, hn, p.key, hp⟩
    · rintro ⟨node, hn, key, hp⟩
      exact ⟨h.filed.node_eq hp ▸ hn, h.filed.get?_self hp⟩
  · show node ∈ s.views.reachable ↔ node ∈ s.reachable
    rw [← Std.ExtTreeMap.isSome_getElem?_iff_mem, h.shown]
    by_cases hn : node ∈ s.reachable <;> simp [hn]
  · have hs : s.views.reachable[node]? = some values := hv
    rw [h.shown] at hs
    by_cases hn : node ∈ s.reachable
    · obtain ⟨kv, hk⟩ := Option.isSome_iff_exists.1
        (Std.ExtTreeMap.isSome_getElem?_iff_mem.2 (h.keptOfReachable hn))
      rw [if_pos hn] at hs
      have he : values = s.store.valueMap node := (Option.some.inj hs).symm
      exact ⟨he, he ▸ kept node kv hk ▸ hk⟩
    · rw [if_neg hn] at hs
      cases hs
  · by_contra hne
    have hv : s.views.all[node]? = none := by
      cases hv : s.views.all[node]? with
      | none => rfl
      | some values => exact absurd ⟨values, hv⟩ hne
    have hm : s.store.valueMap node = ∅ := by
      rw [← h.kept, Std.ExtTreeMap.getD_eq_getD_getElem?, hv]
      rfl
    rw [(h.filed.valueMap_eq_empty_iff node).1 hm key] at hp
    cases hp

end State

end OverlayWatch
