import OverlayWatch.Proofs.State.Knowledge

/-!
# What cannot be seen of the other nodes

The store holds the events of all nodes, but what is told of an update depends on those of the nodes
that are reachable before it or after it.  Two states that AGREE on a set of nodes have the same
reachable nodes and the same entries for the nodes of the set; they may differ in all else.

* `Update.restrict`        an update without the events of other nodes;
* `State.Agree`            what two states have in common;
* `Agree.advance`          two updates with the same restriction keep it;
* `Agree.snapshot`, `Agree.visible`, `Agree.shown`   if no other node is reachable, what is reachable
                           looks the same;
* `Agree.update`, `Agree.deltas`   and so does what is told of the updates.
-/

namespace OverlayWatch

def Update.restrict (nodes : NodeSet) : Update → Update
  | .batch events => .batch (events.filter fun p => p.node ∈ nodes)
  | .topology c => .topology c

/-- two updates with the same restriction -/
theorem Update.restrict_cases {nodes : NodeSet} {u v : Update}
    (h : v.restrict nodes = u.restrict nodes) :
    (∃ events others, u = .batch events ∧ v = .batch others ∧
      others.filter (fun p => p.node ∈ nodes) = events.filter fun p => p.node ∈ nodes) ∨
    ∃ c, u = .topology c ∧ v = .topology c := by
  cases u with
  | batch events =>
    cases v with
    | batch others => exact .inl ⟨events, others, rfl, rfl, Update.batch.inj h⟩
    | topology d => cases h
  | topology c =>
    cases v with
    | batch others => cases h
    | topology d => exact .inr ⟨c, rfl, congrArg Update.topology (Update.topology.inj h)⟩

theorem eventsOf_filter {nodes : NodeSet} {node : NodeId} (h : node ∈ nodes) (events : List Property)
    (key : String) :
    eventsOf (events.filter fun p => p.node ∈ nodes) node key = eventsOf events node key := by
  unfold eventsOf
  rw [List.filter_filter]
  apply List.filter_congr
  intro p _
  by_cases hp : p.node = node ∧ p.key = key
  · simp [hp, h]
  · simp [hp]

theorem eventsOf_restrict {nodes : NodeSet} {u v : Update} (h : v.restrict nodes = u.restrict nodes)
    {node : NodeId} (hn : node ∈ nodes) (key : String) :
    eventsOf v.events node key = eventsOf u.events node key := by
  rcases Update.restrict_cases h with ⟨events, others, rfl, rfl, he⟩ | ⟨c, rfl, rfl⟩
  · calc eventsOf others node key
        = eventsOf (others.filter fun p => p.node ∈ nodes) node key :=
          (eventsOf_filter hn others key).symm
      _ = eventsOf events node key := by rw [he, eventsOf_filter hn]
  · rfl

theorem Store.valueMap_congr {s t : Store} (hs : s.WellFiled) (ht : t.WellFiled) {node : NodeId}
    (h : ∀ key, t.get? node key = s.get? node key) : t.valueMap node = s.valueMap node := by
  apply Std.ExtTreeMap.ext_getElem?
  intro key
  rw [ht.getElem?_valueMap, hs.getElem?_valueMap, h]

namespace State

theorem deltas_cons (s : State) (u : Update) (rest : List Update) : s.deltas (u :: rest) =
    ((s.update u).map Prod.fst).toOption.toList ++ (s.advance u).deltas rest := by
  cases h : s.update u with
  | error fault =>
    rw [deltas_cons_error h, advance_error h]
    rfl
  | ok result =>
    obtain ⟨d, next⟩ := result
    rw [deltas_cons_ok h, advance_ok h]
    rfl

/-! ## states that agree on some nodes -/

structure Agree (nodes : NodeSet) (s t : State) : Prop where
  reachable : t.reachable = s.reachable
  get? {node} : node ∈ nodes → ∀ key, t.store.get? node key = s.store.get? node key

namespace Agree

variable {nodes : NodeSet} {s t : State} {u v : Update}

theorem refl (nodes : NodeSet) (s : State) : Agree nodes s s := ⟨rfl, fun _ _ => rfl⟩

/-! ## what follows them -/

theorem get?_advance (h : Agree nodes s t) (hu : v.restrict nodes = u.restrict nodes) {node : NodeId}
    (hn : node ∈ nodes) (key : String) :
    (t.advance v).store.get? node key = (s.advance u).store.get? node key := by
  rw [store_advance, store_advance, Store.get?_applyAll_eq_entryAfter,
    Store.get?_applyAll_eq_entryAfter, h.get? hn, eventsOf_restrict hu hn]

theorem advance (h : Agree nodes s t) (hu : v.restrict nodes = u.restrict nodes) :
    Agree nodes (s.advance u) (t.advance v) := by
  refine ⟨?_, h.get?_advance hu⟩
  rcases Update.restrict_cases hu with ⟨events, others, rfl, rfl, -⟩ | ⟨c, rfl, rfl⟩
  · exact h.reachable
  · cases hc : c.check s.reachable with
    | error fault =>
      have ht : c.check t.reachable = .error fault := by rw [h.reachable, hc]
      rw [advance_topology_error hc, advance_topology_error ht, h.reachable]
    | ok =>
      have ht : c.check t.reachable = .ok () := by rw [h.reachable, hc]
      rw [advance_topology_ok hc, advance_topology_ok ht, reachable_moveTo, reachable_moveTo]

theorem foldl_advance {l k : List Update} (h : Agree nodes s t)
    (hl : k.map (Update.restrict nodes) = l.map (Update.restrict nodes)) :
    Agree nodes (l.foldl State.advance s) (k.foldl State.advance t) := by
  induction l generalizing s t k with
  | nil =>
    obtain rfl := List.map_eq_nil_iff.1 hl
    exact h
  | cons u l ih =>
    obtain ⟨v, k, rfl, hu, hk⟩ := List.map_eq_cons_iff.1 hl
    rw [List.foldl_cons, List.foldl_cons]
    exact ih (h.advance hu) hk

/-! ## what is seen of them -/

section
variable (h : Agree nodes s t) (hs : s.Coherent) (ht : t.Coherent)
  (hn : ∀ node ∈ s.reachable, node ∈ nodes)
include h hs ht

theorem valueMap {node : NodeId} (hm : node ∈ nodes) :
    t.store.valueMap node = s.store.valueMap node :=
  Store.valueMap_congr hs.filed ht.filed (h.get? hm)

theorem propertiesOf {some : NodeSet} (hm : ∀ node ∈ some, node ∈ nodes) :
    t.store.propertiesOf some = s.store.propertiesOf some := by
  apply Std.ExtTreeSet.ext_mem
  intro p
  rw [ht.filed.mem_propertiesOf, hs.filed.mem_propertiesOf]
  refine and_congr_right fun hp => ?_
  rw [h.get? (hm p.node hp)]

include hn

theorem visible : t.visible = s.visible := by
  apply Std.ExtTreeSet.ext_mem
  intro p
  rw [ht.visible, hs.visible, h.reachable]
  refine and_congr_right fun hp => ?_
  rw [h.get? (hn p.node hp)]

theorem shown : t.views.reachable = s.views.reachable := by
  apply Std.ExtTreeMap.ext_getElem?
  intro node
  rw [ht.shown, hs.shown, h.reachable]
  by_cases hr : node ∈ s.reachable
  · rw [if_pos hr, if_pos hr, h.valueMap hs ht (hn node hr)]
  · rw [if_neg hr, if_neg hr]

theorem snapshot : t.snapshot = s.snapshot := by
  rw [State.snapshot, State.snapshot, h.visible hs ht hn, h.shown hs ht hn]

/-! ## what is told of an update -/

theorem change_absorbAll {events others : List Property}
    (he : ∀ node ∈ nodes, ∀ key, eventsOf others node key = eventsOf events node key) :
    (t.absorbAll others).change = (s.absorbAll events).change := by
  -- each of the three sets asks for a reachable node, and then for its events
  have part : ∀ (kind : Property → Option Property → Property → Prop) (p : Property),
      (p.node ∈ t.reachable ∧
        Met (kind p) (t.store.get? p.node p.key) (eventsOf others p.node p.key)) ↔
      (p.node ∈ s.reachable ∧
        Met (kind p) (s.store.get? p.node p.key) (eventsOf events p.node p.key)) := by
    intro kind p
    rw [h.reachable]
    refine and_congr_right fun hp => ?_
    rw [h.get? (hn p.node hp), he p.node (hn p.node hp)]
  apply PropertyChange.ext_mem
  · intro p
    rw [ht.mem_added_iff, hs.mem_added_iff]
    exact part Property.AddedBy p
  · intro p
    rw [ht.mem_updated_iff, hs.mem_updated_iff]
    exact part Property.UpdatedBy p
  · intro p
    rw [ht.mem_removed_iff, hs.mem_removed_iff]
    exact part Property.RemovedBy p

theorem applyBatch {events others : List Property}
    (he : ∀ node ∈ nodes, ∀ key, eventsOf others node key = eventsOf events node key) :
    (t.applyBatch others).1 = (s.applyBatch events).1 := by
  have hchange := h.change_absorbAll hs ht hn he
  have hmaps : (t.applyBatch others).1.maps = (s.applyBatch events).1.maps := by
    apply Std.ExtTreeMap.ext_getElem?
    intro node
    rw [maps_applyBatch, maps_applyBatch, h.reachable]
    by_cases hr : node ∈ s.reachable
    · have hm : node ∈ nodes := hn node hr
      have htouched :
          node ∈ (t.absorbAll others).touched ↔ node ∈ (s.absorbAll events).touched := by
        simp only [mem_touched_absorbAll, h.get? hm, he node hm]
      have hv : (t.absorbAll others).store.valueMap node = (s.absorbAll events).store.valueMap node := by
        refine Store.valueMap_congr (hs.absorbAll events).filed (ht.absorbAll others).filed fun key => ?_
        rw [store_absorbAll, store_absorbAll, Store.get?_applyAll_eq_entryAfter,
          Store.get?_applyAll_eq_entryAfter, h.get? hm, he node hm]
      simp only [htouched, hv]
    · rw [if_neg fun e => hr e.2, if_neg fun e => hr e.2]
  calc (t.applyBatch others).1
      = ⟨if (t.absorbAll others).change.isEmpty then .none else some (t.absorbAll others).change,
          (t.applyBatch others).1.maps⟩ := rfl
    _ = (s.applyBatch events).1 := by rw [hchange, hmaps]; rfl

theorem moveTo {c : TopologyChange} (hc : c.Fits s.reachable)
    (hm : ∀ node ∈ c.reachable, node ∈ nodes) : (t.moveTo c).1 = (s.moveTo c).1 := by
  have hadded : ∀ node ∈ c.added, node ∈ nodes :=
    fun node ha => hm node ((hc.mem_reachable node).2 (.inr ha))
  have hremoved : ∀ node ∈ c.removed, node ∈ nodes :=
    fun node hr => hn node (hc.removed_reachable hr)
  have hmaps : (t.moveTo c).1.maps = (s.moveTo c).1.maps := by
    apply Std.ExtTreeMap.ext_getElem?
    intro node
    rw [maps_moveTo, maps_moveTo, ht.kept, hs.kept]
    by_cases ha : node ∈ c.added
    · rw [if_pos ha, if_pos ha, h.valueMap hs ht (hadded node ha)]
    · rw [if_neg ha, if_neg ha]
  calc (t.moveTo c).1
      = ⟨if (t.store.propertiesOf c.removed).isEmpty && (t.store.propertiesOf c.added).isEmpty
          then .none
          else some ⟨t.store.propertiesOf c.added, ∅, t.store.propertiesOf c.removed⟩,
          (t.moveTo c).1.maps⟩ := rfl
    _ = (s.moveTo c).1 := by
      rw [h.propertiesOf hs ht hadded, h.propertiesOf hs ht hremoved, hmaps, State.moveTo]

theorem update (hm : ∀ node ∈ (s.advance u).reachable, node ∈ nodes)
    (hu : v.restrict nodes = u.restrict nodes) :
    (t.update v).map Prod.fst = (s.update u).map Prod.fst := by
  rcases Update.restrict_cases hu with ⟨events, others, rfl, rfl, -⟩ | ⟨c, rfl, rfl⟩
  · have he : ∀ node ∈ nodes, ∀ key, eventsOf others node key = eventsOf events node key :=
      fun node hm key => eventsOf_restrict hu hm key
    exact congrArg Except.ok (h.applyBatch hs ht hn he)
  · show (t.applyTopology c).map Prod.fst = (s.applyTopology c).map Prod.fst
    cases hc : c.check s.reachable with
    | error fault =>
      have htc : c.check t.reachable = .error fault := by rw [h.reachable, hc]
      rw [applyTopology_error hc, applyTopology_error htc]
    | ok =>
      have htc : c.check t.reachable = .ok () := by rw [h.reachable, hc]
      rw [advance_topology_ok hc, reachable_moveTo] at hm
      rw [applyTopology_ok hc, applyTopology_ok htc]
      exact congrArg Except.ok (h.moveTo hs ht hn (TopologyChange.check_eq_ok_iff.1 hc) hm)

end

theorem deltas {l k : List Update} (h : Agree nodes s t) (hs : s.Coherent) (ht : t.Coherent)
    (hl : k.map (Update.restrict nodes) = l.map (Update.restrict nodes))
    (hn : ∀ node ∈ s.everReachable l, node ∈ nodes) : t.deltas k = s.deltas l := by
  induction l generalizing s t k with
  | nil =>
    obtain rfl := List.map_eq_nil_iff.1 hl
    rfl
  | cons u l ih =>
    obtain ⟨v, k, rfl, hu, hk⟩ := List.map_eq_cons_iff.1 hl
    obtain ⟨hnow, hnext, hlater⟩ := of_everReachable_cons hn
    rw [deltas_cons, deltas_cons, h.update hs ht hnow hnext hu,
      ih (h.advance hu) (hs.advance u) (ht.advance v) hk hlater]

end Agree

end State

end OverlayWatch
