import Mathlib.Data.Set.Card
import OverlayWatch.Store

/-!
# What a store holds

A store that events alone have built is WELL FILED: what is filed for a node under a key is live and
carries that node and that key.  In such a store the value map of a node and its properties are two
readings of `Store.get?`:

* `Store.get?_apply`             an event leaves itself, or nothing, under its own node and key;
* `Store.ext_get?`               any store is its known nodes and its entries;
* `WellFiled.applyAll`           events keep a store well filed;
* `WellFiled.getElem?_valueMap`  the value map of a node, key by key;
* `WellFiled.mem_properties`     the properties of a node;
* `Store.count_eq_ncard`         the number of properties is the number of entries, in any store.
-/

namespace OverlayWatch

theorem ofList_toList {α β : Type} [Ord α] [Std.TransOrd α] [Std.LawfulEqOrd α] [DecidableEq α]
    (m : Std.ExtTreeMap α β) : Std.ExtTreeMap.ofList m.toList = m := by
  apply Std.ExtTreeMap.ext_getElem?
  intro k
  cases h : m[k]? with
  | some v =>
    exact Std.ExtTreeMap.getElem?_ofList_of_mem (Std.ReflOrd.compare_self)
      Std.ExtTreeMap.distinct_keys_toList (Std.ExtTreeMap.mem_toList_iff_getElem?_eq_some.2 h)
  | none =>
    apply Std.ExtTreeMap.getElem?_ofList_of_contains_eq_false
    rw [Std.ExtTreeMap.map_fst_toList_eq_keys]
    simpa using h

theorem Property.live?_eq_none_iff {p : Property} : p.live? = none ↔ p.isTombstone = true := by
  unfold live?
  cases p.isTombstone <;> simp

theorem Property.live?_eq_some_iff {p q : Property} :
    p.live? = some q ↔ p = q ∧ q.isTombstone = false := by
  unfold live?
  cases h : p.isTombstone with
  | true =>
    simp only [if_true, reduceCtorEq, false_iff]
    rintro ⟨rfl, hq⟩
    rw [h] at hq
    cases hq
  | false =>
    simp only [Bool.false_eq_true, if_false, Option.some.injEq]
    exact ⟨fun e => ⟨e, e ▸ h⟩, fun e => e.1⟩

namespace Store

theorem get?_apply (s : Store) (p : Property) (node : NodeId) (key : String) :
    (s.apply p).2.get? node key
      = if p.node = node ∧ p.key = key then p.live? else s.get? node key := by
  by_cases hn : p.node = node
  · subst hn
    by_cases hk : p.key = key
    · subst hk
      rw [get?_apply_self, if_pos ⟨rfl, rfl⟩]
    · rw [get?_apply_of_key_ne hk, if_neg fun h => hk h.2]
  · rw [get?_apply_of_node_ne hn, if_neg fun h => hn h.1]

theorem valueMap_of_not_known {s : Store} {node : NodeId} (h : s.isKnown node = false) :
    s.valueMap node = ∅ := by
  have hn : node ∉ s.shelves := fun hn => by
    have hk : s.isKnown node = true := Std.ExtTreeMap.contains_iff_mem.2 hn
    rw [h] at hk
    cases hk
  simp [valueMap, shelf_eq_getD, Std.ExtTreeMap.getD_eq_fallback hn]

/-- a tombstone that takes nothing back leaves every shelf as it is -/
theorem shelf_apply_of_unchanged {s : Store} {p : Property} (h : s.outcome p = .unchanged)
    (node : NodeId) : (s.apply p).2.shelf node = s.shelf node := by
  apply Std.ExtTreeMap.ext_getElem?
  intro key
  show (s.apply p).2.get? node key = s.get? node key
  rw [get?_apply]
  by_cases e : p.node = node ∧ p.key = key
  · obtain ⟨rfl, rfl⟩ := e
    rw [if_pos ⟨rfl, rfl⟩]
    unfold outcome at h
    cases hg : s.get? p.node p.key <;> cases ht : p.isTombstone <;> simp_all [Property.live?]
  · rw [if_neg e]

/-- a store is the nodes that it knows and what it has filed for them -/
theorem ext_get? {s t : Store} (hk : ∀ node, t.isKnown node = s.isKnown node)
    (hg : ∀ node key, t.get? node key = s.get? node key) : t = s := by
  have hshelf : ∀ node, t.shelf node = s.shelf node :=
    fun node => Std.ExtTreeMap.ext_getElem? (hg node)
  have hshelves : t.shelves = s.shelves := by
    apply Std.ExtTreeMap.ext_getElem?
    intro node
    have hmem : node ∈ t.shelves ↔ node ∈ s.shelves := by
      rw [← Std.ExtTreeMap.contains_iff_mem, ← Std.ExtTreeMap.contains_iff_mem]
      exact Bool.eq_iff_iff.1 (hk node)
    by_cases hn : node ∈ s.shelves
    · rw [Std.ExtTreeMap.getElem?_eq_some_getD (hmem.2 hn), Std.ExtTreeMap.getElem?_eq_some_getD hn]
      have hnode := hshelf node
      rw [shelf_eq_getD, shelf_eq_getD] at hnode
      exact congrArg some hnode
    · rw [Std.ExtTreeMap.getElem?_eq_none (mt hmem.1 hn), Std.ExtTreeMap.getElem?_eq_none hn]
  calc t = ⟨t.shelves⟩ := rfl
    _ = s := by rw [hshelves]

/-! ## well-filed stores -/

structure WellFiled (s : Store) : Prop where
  node_eq {node key p} : s.get? node key = some p → p.node = node
  key_eq {node key p} : s.get? node key = some p → p.key = key
  live {node key p} : s.get? node key = some p → p.isTombstone = false

theorem wellFiled_empty : empty.WellFiled := by
  constructor <;> simp [get?_empty]

theorem WellFiled.apply {s : Store} (h : s.WellFiled) (p : Property) : (s.apply p).2.WellFiled := by
  have step : ∀ {node key q}, (s.apply p).2.get? node key = some q →
      (q.node = node ∧ q.key = key) ∧ q.isTombstone = false := by
    intro node key q hq
    rw [get?_apply] at hq
    split at hq
    · rename_i e
      obtain ⟨rfl, hl⟩ := Property.live?_eq_some_iff.1 hq
      exact ⟨e, hl⟩
    · exact ⟨⟨h.node_eq hq, h.key_eq hq⟩, h.live hq⟩
  exact ⟨fun hq => (step hq).1.1, fun hq => (step hq).1.2, fun hq => (step hq).2⟩

theorem WellFiled.applyAll {s : Store} (h : s.WellFiled) (events : List Property) :
    (s.applyAll events).WellFiled := by
  induction events generalizing s with
  | nil => exact h
  | cons p events ih => exact ih (h.apply p)

section
variable {s : Store} (h : s.WellFiled)
include h

/-- what is filed under one key is not filed under another -/
theorem WellFiled.get?_self {node : NodeId} {key : String} {p : Property}
    (hp : s.get? node key = some p) : s.get? p.node p.key = some p := by
  rw [h.node_eq hp, h.key_eq hp, hp]

theorem WellFiled.mem_properties {node : NodeId} {p : Property} :
    p ∈ s.properties node ↔ p.node = node ∧ s.get? p.node p.key = some p := by
  rw [Store.mem_properties]
  constructor
  · rintro ⟨key, hp⟩
    exact ⟨h.node_eq hp, h.get?_self hp⟩
  · rintro ⟨rfl, hp⟩
    exact ⟨p.key, hp⟩

theorem WellFiled.valueMap_eq (node : NodeId) :
    s.valueMap node = (s.shelf node).filterMap fun _ p => p.value := by
  rw [← ofList_toList ((s.shelf node).filterMap fun _ p => p.value),
    Std.ExtTreeMap.toList_filterMap]
  unfold valueMap
  congr 1
  apply List.filterMap_congr
  intro e he
  have hk : e.2.key = e.1 := h.key_eq (Std.ExtTreeMap.mem_toList_iff_getElem?_eq_some.1 he)
  rw [hk]

theorem WellFiled.getElem?_valueMap (node : NodeId) (key : String) :
    (s.valueMap node)[key]? = (s.get? node key).bind Property.value := by
  rw [h.valueMap_eq, Std.ExtTreeMap.getElem?_filterMap']
  rfl

theorem WellFiled.valueMap_eq_empty_iff (node : NodeId) :
    s.valueMap node = ∅ ↔ ∀ key, s.get? node key = none := by
  constructor
  · intro hv key
    have hk : (s.valueMap node)[key]? = none := by rw [hv]; simp
    rw [h.getElem?_valueMap] at hk
    cases hg : s.get? node key with
    | none => rfl
    | some p =>
      have hl := h.live hg
      rw [hg] at hk
      simp_all [Property.isTombstone]
  · intro hn
    apply Std.ExtTreeMap.ext_getElem?
    intro key
    rw [h.getElem?_valueMap, hn key]
    simp

end

/-! ## counting -/

/-- node and key of every entry -/
def places (s : Store) : List (NodeId × String) :=
  s.shelves.toList.flatMap fun e => e.2.keys.map fun key => (e.1, key)

theorem mem_places {s : Store} {x : NodeId × String} :
    x ∈ s.places ↔ (s.get? x.1 x.2).isSome := by
  obtain ⟨node, key⟩ := x
  simp only [places, List.mem_flatMap, List.mem_map, Prod.mk.injEq, Std.ExtTreeMap.mem_keys]
  constructor
  · rintro ⟨⟨n, filed⟩, he, k, hk, rfl, rfl⟩
    have hs : s.shelves[n]? = some filed := Std.ExtTreeMap.mem_toList_iff_getElem?_eq_some.1 he
    rw [get?, shelf_eq_getD, Std.ExtTreeMap.getD_eq_getD_getElem?, hs]
    exact Std.ExtTreeMap.isSome_getElem?_iff_mem.2 hk
  · intro h
    rw [get?, shelf_eq_getD, Std.ExtTreeMap.getD_eq_getD_getElem?] at h
    cases hs : s.shelves[node]? with
    | none => simp [hs] at h
    | some filed =>
      rw [hs] at h
      exact ⟨(node, filed), Std.ExtTreeMap.mem_toList_iff_getElem?_eq_some.2 hs, key,
        Std.ExtTreeMap.isSome_getElem?_iff_mem.1 h, rfl, rfl⟩

theorem nodup_places (s : Store) : s.places.Nodup := by
  refine List.nodup_flatMap.2 ⟨fun e _ => ?_, ?_⟩
  · have hk : e.2.keys.Nodup := Std.ExtTreeMap.distinct_keys.imp fun h he => h (by simp [he])
    exact hk.map fun a b h => (Prod.mk.inj h).2
  · refine (Std.ExtTreeMap.distinct_keys_toList (t := s.shelves)).imp fun {a b} hne x ha hb => ?_
    obtain ⟨_, _, rfl⟩ := List.mem_map.1 ha
    obtain ⟨_, _, hx⟩ := List.mem_map.1 hb
    exact hne (by rw [(Prod.mk.inj hx).1]; exact Std.ReflOrd.compare_self)

theorem count_eq_length (s : Store) : s.count = s.places.length := by
  rw [count, places, List.length_flatMap, List.sum_eq_foldl, List.foldl_map]
  congr 1
  funext n e
  rw [List.length_map, Std.ExtTreeMap.length_keys]

theorem count_eq_ncard (s : Store) :
    s.count = Set.ncard {x : NodeId × String | (s.get? x.1 x.2).isSome} := by
  have hs : {x : NodeId × String | (s.get? x.1 x.2).isSome} = (s.places.toFinset : Set _) := by
    ext x
    simp [mem_places]
  rw [hs, Set.ncard_coe_finset, List.toFinset_card_of_nodup s.nodup_places, count_eq_length]

end Store

end OverlayWatch
