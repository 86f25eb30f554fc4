import OverlayWatch.Proofs.State.History

/-!
# An observer's copy of the value maps

An observer that listens to value maps only keeps a copy: it takes over the maps of its snapshot and
then, delta by delta, puts in every new map and drops every node that is gone.

* `Replica.take`              one entry of a delta;
* `Replica.follow`            a whole delta;
* `Replica.follow_eq_of_perm`  the order of the entries does not matter;
* `Replica.properties`        the properties that can be read off the copy;
* `State.replica_exact`       the copy is what the service would answer, after every update.

Both kinds of update report each node whose shown map they change, and report it with the map that is
shown afterwards (`State.shown_update`).  This needs no invariant: the report and the cache are
written from the same map.  That the properties come out as well does need `State.Coherent`.
-/

namespace OverlayWatch

abbrev Replica := Std.ExtTreeMap NodeId ValueMap

namespace Replica

def take (r : Replica) (entry : NodeId × Option ValueMap) : Replica :=
  match entry.2 with
  | some values => r.insert entry.1 values
  | none => r.erase entry.1

def follow (r : Replica) (maps : MapDelta) : Replica := maps.toList.foldl take r

theorem getElem?_take (r : Replica) (entry : NodeId × Option ValueMap) (node : NodeId) :
    (r.take entry)[node]? = if entry.1 = node then entry.2 else r[node]? := by
  obtain ⟨n, values⟩ := entry
  cases values with
  | some values => simp [take, Std.ExtTreeMap.getElem?_insert]
  | none =>
    by_cases h : n = node
    · simp [take, h]
    · simp [take, h, Std.ExtTreeMap.getElem?_erase]

/-- no two entries are about one node, so each of them has the last word on its own -/
theorem getElem?_foldl_take {entries : List (NodeId × Option ValueMap)}
    (hd : entries.Pairwise fun a b => a.1 ≠ b.1) (r : Replica) (node : NodeId) :
    (∀ values, (node, values) ∈ entries → (entries.foldl take r)[node]? = values) ∧
    ((∀ values, (node, values) ∉ entries) → (entries.foldl take r)[node]? = r[node]?) := by
  induction entries generalizing r with
  | nil => exact ⟨fun _ hv => absurd hv List.not_mem_nil, fun _ => rfl⟩
  | cons entry rest ih =>
    obtain ⟨hne, hrest⟩ := List.pairwise_cons.1 hd
    obtain ⟨ihIn, ihOut⟩ := ih hrest (r.take entry)
    rw [List.foldl_cons]
    refine ⟨fun values hv => ?_, fun hout => ?_⟩
    · rcases List.mem_cons.1 hv with rfl | hv
      · rw [ihOut fun v hmem => hne _ hmem rfl, getElem?_take, if_pos rfl]
      · exact ihIn values hv
    · rw [ihOut fun v hmem => hout v (List.mem_cons_of_mem _ hmem), getElem?_take, if_neg]
      rintro rfl
      exact hout entry.2 List.mem_cons_self

theorem pairwise_toList (maps : MapDelta) : maps.toList.Pairwise fun a b => a.1 ≠ b.1 :=
  Std.ExtTreeMap.distinct_keys_toList.imp fun h e => h (by rw [e]; exact Std.ReflOrd.compare_self)

theorem getElem?_foldl_take_perm {entries : List (NodeId × Option ValueMap)} {maps : MapDelta}
    (hp : entries.Perm maps.toList) (r : Replica) (node : NodeId) :
    (entries.foldl take r)[node]? = maps[node]?.getD r[node]? := by
  obtain ⟨hIn, hOut⟩ := getElem?_foldl_take
    (hp.symm.pairwise (pairwise_toList maps) fun h => h.symm) r node
  cases h : maps[node]? with
  | some values => exact hIn values (hp.mem_iff.2 (Std.ExtTreeMap.mem_toList_iff_getElem?_eq_some.2 h))
  | none =>
    refine hOut fun values hv => ?_
    rw [Std.ExtTreeMap.mem_toList_iff_getElem?_eq_some.1 (hp.mem_iff.1 hv)] at h
    cases h

theorem getElem?_follow (r : Replica) (maps : MapDelta) (node : NodeId) :
    (r.follow maps)[node]? = maps[node]?.getD r[node]? :=
  getElem?_foldl_take_perm (List.Perm.refl _) r node

/-- the entries of a delta may be taken in any order -/
theorem follow_eq_of_perm (r : Replica) {maps : MapDelta} {entries : List (NodeId × Option ValueMap)}
    (hp : entries.Perm maps.toList) : entries.foldl take r = r.follow maps := by
  apply Std.ExtTreeMap.ext_getElem?
  intro node
  rw [getElem?_foldl_take_perm hp, getElem?_follow]

/-- node, key and value of everything in the copy -/
def properties (r : Replica) : PropertySet :=
  .ofList (r.toList.flatMap fun e => e.2.toList.map fun v => Property.live e.1 v.1 v.2)

theorem mem_properties {r : Replica} {p : Property} :
    p ∈ r.properties ↔ ∃ values value, r[p.node]? = some values ∧ values[p.key]? = some value ∧
      p = .live p.node p.key value := by
  simp only [properties, Std.ExtTreeSet.mem_ofList, List.contains_iff_mem, List.mem_flatMap,
    List.mem_map]
  constructor
  · rintro ⟨e, he, v, hv, rfl⟩
    exact ⟨e.2, v.2, Std.ExtTreeMap.mem_toList_iff_getElem?_eq_some.1 he,
      Std.ExtTreeMap.mem_toList_iff_getElem?_eq_some.1 hv, rfl⟩
  · rintro ⟨values, value, hn, hk, hp⟩
    exact ⟨(p.node, values), Std.ExtTreeMap.mem_toList_iff_getElem?_eq_some.2 hn, (p.key, value),
      Std.ExtTreeMap.mem_toList_iff_getElem?_eq_some.2 hk, hp.symm⟩

end Replica

namespace State

/-! ## what an update reports -/

theorem shown_applyBatch (s : State) (batch : List Property) (node : NodeId) :
    (s.applyBatch batch).2.views.reachable[node]?
      = (s.applyBatch batch).1.maps[node]?.getD s.views.reachable[node]? := by
  simp only [applyBatch, Views.reachable_recordAll, Views.maps_recordAll]
  split <;> simp

theorem shown_moveTo (s : State) (c : TopologyChange) (node : NodeId) :
    (s.moveTo c).2.views.reachable[node]?
      = (s.moveTo c).1.maps[node]?.getD s.views.reachable[node]? := by
  simp only [moveTo, Views.reachable_attachAll, Views.reachable_detachAll, Views.maps_attachAll,
    Views.maps_detachAll]
  split
  · rfl
  · split <;> simp

theorem shown_update {s next : State} {u : Update} {d : Delta} (h : s.update u = .ok (d, next))
    (node : NodeId) : next.views.reachable[node]? = d.maps[node]?.getD s.views.reachable[node]? := by
  rcases update_ok_cases h with ⟨events, rfl, hb⟩ | ⟨c, rfl, -, hm⟩
  · have hs := shown_applyBatch s events node
    rw [hb] at hs
    exact hs
  · have hs := shown_moveTo s c node
    rw [hm] at hs
    exact hs

theorem follow_shown {s next : State} {u : Update} {d : Delta} (h : s.update u = .ok (d, next)) :
    Replica.follow s.views.reachable d.maps = next.views.reachable := by
  apply Std.ExtTreeMap.ext_getElem?
  intro node
  rw [Replica.getElem?_follow, shown_update h]

theorem foldl_follow_shown (s : State) (updates : List Update) :
    (s.deltas updates).foldl (fun r d => Replica.follow r d.maps) s.views.reachable
      = (updates.foldl advance s).views.reachable := by
  induction updates generalizing s with
  | nil => rfl
  | cons u rest ih =>
    rw [List.foldl_cons]
    cases h : s.update u with
    | error fault => rw [deltas_cons_error h, advance_error h, ih]
    | ok r => rw [deltas_cons_ok h, advance_ok h, List.foldl_cons, follow_shown h, ih]

theorem follow_snapshot (s : State) : Replica.follow ∅ s.snapshot.2 = s.views.reachable := by
  apply Std.ExtTreeMap.ext_getElem?
  intro node
  rw [Replica.getElem?_follow, snapshot, Std.ExtTreeMap.getElem?_map]
  cases s.views.reachable[node]? <;> simp

theorem Coherent.properties_shown {s : State} (h : s.Coherent) :
    Replica.properties s.views.reachable = s.visible := by
  apply Std.ExtTreeSet.ext_mem
  intro p
  rw [Replica.mem_properties, h.visible, h.shown]
  constructor
  · rintro ⟨values, value, hn, hk, hp⟩
    by_cases hr : p.node ∈ s.reachable
    · rw [if_pos hr] at hn
      rw [← Option.some.inj hn, h.filed.getElem?_valueMap] at hk
      obtain ⟨q, hq, hv⟩ := Option.bind_eq_some_iff.1 hk
      refine ⟨hr, hq ▸ ?_⟩
      rw [hp, ← h.filed.node_eq hq, ← h.filed.key_eq hq, Property.live, ← hv]
    · rw [if_neg hr] at hn
      cases hn
  · rintro ⟨hr, hp⟩
    have hl := h.filed.live hp
    obtain ⟨node, key, value⟩ := p
    cases value with
    | none => cases hl
    | some value =>
      refine ⟨s.store.valueMap node, value, if_pos hr, ?_, rfl⟩
      rw [h.filed.getElem?_valueMap, hp]
      rfl

/-- **The copy is exact after every update**, from whichever moment on it was kept: it is the answer
to a query for the value maps, and the visible properties can be read off it. -/
theorem replica_exact (before later : List Update) :
    let s := after before
    let start := Replica.follow ∅ s.snapshot.2
    let replica := (s.deltas later).foldl (fun r d => Replica.follow r d.maps) start
    let now := after (before ++ later)
    replica = now.reachableValueMaps ∧ replica.properties = now.visible := by
  intro s start replica now
  have hr : replica = now.reachableValueMaps := by
    show (s.deltas later).foldl (fun r d => Replica.follow r d.maps) start = now.views.reachable
    rw [show start = s.views.reachable from follow_snapshot s, foldl_follow_shown]
    exact congrArg (fun t => t.views.reachable) (after_append before later).symm
  refine ⟨hr, ?_⟩
  rw [hr]
  exact (coherent_after (before ++ later)).properties_shown

end State

end OverlayWatch
