import OverlayWatch.Proofs.State.History

/-!
# What a batch reports, key by key

The report of a batch grows event by event, and what an event adds to it depends on the entry that
the store has at that point for the node and the key of the event.  So every key can be followed by
itself: all that counts is the entry before the batch and the events of the key, in their order.

* `eventsOf`, `entryAfter`   the events of one node and key, and the entry that they leave;
* `Property.AddedBy`, `Property.UpdatedBy`, `Property.RemovedBy`   when an event that finds an entry
                             makes a property one of the added, updated or removed ones;
* `Met`                      one of the events of the key does so;
* `met_append`, `Met.exists_split`   the same for events in two parts, and which event it was;
* `Coherent.mem_added_iff`, `Coherent.mem_updated_iff`, `Coherent.mem_removed_iff`   the three sets
                             of the report;
* `PropertyChange.Tells`     what a change has of one key;
* `PropertySet.entry?`       what a set of properties has for a node and a key;
* `State.maps_applyBatch`, `State.maps_moveTo`   the value maps that go with a report.
-/

namespace OverlayWatch

/-! ## the events of one key -/

def eventsOf (events : List Property) (node : NodeId) (key : String) : List Property :=
  events.filter fun p => p.node = node ∧ p.key = key

theorem eventsOf_cons (p : Property) (events : List Property) (node : NodeId) (key : String) :
    eventsOf (p :: events) node key =
      if p.node = node ∧ p.key = key then p :: eventsOf events node key
      else eventsOf events node key := by
  unfold eventsOf
  by_cases h : p.node = node ∧ p.key = key
  · rw [if_pos h, List.filter_cons_of_pos (by simpa using h)]
  · rw [if_neg h, List.filter_cons_of_neg (by simpa using h)]

theorem eventsOf_append (a b : List Property) (node : NodeId) (key : String) :
    eventsOf (a ++ b) node key = eventsOf a node key ++ eventsOf b node key :=
  List.filter_append a b

/-- every event leaves itself if it is live, and nothing otherwise -/
def entryAfter (entry : Option Property) (events : List Property) : Option Property :=
  events.foldl (fun _ p => p.live?) entry

theorem entryAfter_cons (entry : Option Property) (p : Property) (events : List Property) :
    entryAfter entry (p :: events) = entryAfter p.live? events := rfl

/-- the entry is the one before, or what the last of the events leaves -/
theorem entryAfter_cases (entry : Option Property) (events : List Property) :
    entryAfter entry events = entry ∨ ∃ q ∈ events, entryAfter entry events = q.live? := by
  rcases List.eq_nil_or_concat events with rfl | ⟨earlier, q, rfl⟩
  · exact .inl rfl
  · exact .inr ⟨q, by simp, by simp [entryAfter]⟩

theorem Store.get?_applyAll_eq_entryAfter (s : Store) (events : List Property) (node : NodeId)
    (key : String) :
    (s.applyAll events).get? node key = entryAfter (s.get? node key) (eventsOf events node key) := by
  induction events generalizing s with
  | nil => rfl
  | cons p events ih =>
    rw [applyAll_cons, ih, eventsOf_cons, get?_apply]
    by_cases h : p.node = node ∧ p.key = key
    · rw [if_pos h, if_pos h, entryAfter_cons]
    · rw [if_neg h, if_neg h]

namespace Property

/-- the event files the property where there was nothing -/
def AddedBy (q : Property) (entry : Option Property) (event : Property) : Prop :=
  event = q ∧ event.isTombstone = false ∧ entry = none

/-- the event files the property in the place of an entry, which may be the same one -/
def UpdatedBy (q : Property) (entry : Option Property) (event : Property) : Prop :=
  event = q ∧ event.isTombstone = false ∧ entry ≠ none

/-- the event takes the property back -/
def RemovedBy (q : Property) (entry : Option Property) (event : Property) : Prop :=
  event.isTombstone = true ∧ entry = some q

end Property

/-- one of the events of a key is of this kind, given the entry that it finds -/
def Met (kind : Option Property → Property → Prop) : Option Property → List Property → Prop
  | _, [] => False
  | entry, p :: events => kind entry p ∨ Met kind p.live? events

section
variable {kind : Option Property → Property → Prop} {x : Property} {entry : Option Property}
  {events : List Property}

/-- events that come later find what the earlier ones have left -/
theorem met_append {later : List Property} : Met kind entry (events ++ later) ↔
    Met kind entry events ∨ Met kind (entryAfter entry events) later := by
  induction events generalizing entry with
  | nil => exact (or_iff_right id).symm
  | cons p events ih => rw [List.cons_append, Met, ih, Met, or_assoc, entryAfter_cons]

/-- the event that does it, at its position -/
theorem Met.exists_split (h : Met kind entry events) : ∃ earlier p later,
    events = earlier ++ p :: later ∧ kind (entryAfter entry earlier) p := by
  induction events generalizing entry with
  | nil => exact absurd h id
  | cons p events ih =>
    rcases h with h | h
    · exact ⟨[], p, events, rfl, h⟩
    · obtain ⟨earlier, q, later, rfl, hk⟩ := ih h
      exact ⟨p :: earlier, q, later, rfl, hk⟩

/-- the event that does it, and where the entry that it finds comes from -/
theorem Met.exists_event (h : Met kind entry events) : ∃ found, ∃ p ∈ events, kind found p ∧
    (found = entry ∨ ∃ q ∈ events, found = q.live?) := by
  obtain ⟨earlier, p, later, rfl, hk⟩ := h.exists_split
  refine ⟨entryAfter entry earlier, p, by simp, hk, ?_⟩
  rcases entryAfter_cases entry earlier with he | ⟨q, hq, he⟩
  · exact .inl he
  · exact .inr ⟨q, List.mem_append_left _ hq, he⟩

theorem Met.of_added (h : Met x.AddedBy entry events) : x ∈ events ∧ x.isTombstone = false := by
  obtain ⟨-, p, hp, ⟨rfl, ht, -⟩, -⟩ := h.exists_event
  exact ⟨hp, ht⟩

theorem Met.of_updated (h : Met x.UpdatedBy entry events) : x ∈ events ∧ x.isTombstone = false := by
  obtain ⟨-, p, hp, ⟨rfl, ht, -⟩, -⟩ := h.exists_event
  exact ⟨hp, ht⟩

/-- what is taken back was there, or one of the events put it there -/
theorem Met.of_removed (h : Met x.RemovedBy entry events) : entry = some x ∨ x ∈ events := by
  obtain ⟨found, p, -, ⟨-, rfl⟩, he | ⟨q, hq, hl⟩⟩ := h.exists_event
  · exact .inl he.symm
  · obtain ⟨rfl, -⟩ := Property.live?_eq_some_iff.1 hl.symm
    exact .inr hq

end

/-! ## the three sets -/

namespace State

theorem Progress.change_reveal_congr (w v : Progress) (p : Property) (outcome : Outcome)
    (h : w.change = v.change) : (w.reveal p outcome).change = (v.reveal p outcome).change := by
  cases outcome <;> simp [reveal, h]

theorem Progress.change_absorb (reachable : NodeSet) (w : Progress) (p : Property) :
    (w.absorb reachable p).change =
      if p.node ∈ reachable then (w.reveal p (w.store.outcome p)).change else w.change := by
  by_cases h : p.node ∈ reachable
  · simp only [absorb, if_pos h]
    exact change_reveal_congr _ w p (w.store.outcome p) rfl
  · simp only [absorb, if_neg h]

section
variable {w : Progress} {store : Store} {p q : Property}

theorem Progress.mem_added_reveal :
    q ∈ (w.reveal p (store.outcome p)).change.added ↔
      q ∈ w.change.added ∨ q.AddedBy (store.get? p.node p.key) p := by
  unfold Store.outcome Property.AddedBy
  cases hg : store.get? p.node p.key with
  | none => cases ht : p.isTombstone <;> simp [reveal, or_comm]
  | some previous => cases ht : p.isTombstone <;> simp [reveal]

theorem Progress.mem_updated_reveal :
    q ∈ (w.reveal p (store.outcome p)).change.updated ↔
      q ∈ w.change.updated ∨ q.UpdatedBy (store.get? p.node p.key) p := by
  unfold Store.outcome Property.UpdatedBy
  cases hg : store.get? p.node p.key with
  | none => cases ht : p.isTombstone <;> simp [reveal]
  | some previous => cases ht : p.isTombstone <;> simp [reveal, or_comm]

theorem Progress.mem_removed_reveal :
    q ∈ (w.reveal p (store.outcome p)).change.removed ↔
      q ∈ w.change.removed ∨ q.RemovedBy (store.get? p.node p.key) p := by
  unfold Store.outcome Property.RemovedBy
  cases hg : store.get? p.node p.key with
  | none => cases ht : p.isTombstone <;> simp [reveal]
  | some previous => cases ht : p.isTombstone <;> simp [reveal, or_comm]

end

section
variable (part : PropertyChange → PropertySet) {q : Property}
  {kind : Option Property → Property → Prop}

/-- one of the three sets, of which it is enough to know what a single event puts into it, and that
this event is then one of the property's own key -/
theorem mem_foldl_absorb {reachable : NodeSet}
    (reveal : ∀ (w : Progress) (p : Property), q ∈ part (w.reveal p (w.store.outcome p)).change ↔
      q ∈ part w.change ∨ kind (w.store.get? p.node p.key) p)
    (own : ∀ (store : Store) (p : Property), store.WellFiled →
      kind (store.get? p.node p.key) p → p.node = q.node ∧ p.key = q.key)
    {w : Progress} (hw : w.store.WellFiled) (batch : List Property) :
    q ∈ part (batch.foldl (Progress.absorb reachable) w).change ↔ q ∈ part w.change ∨
      q.node ∈ reachable ∧ Met kind (w.store.get? q.node q.key) (eventsOf batch q.node q.key) := by
  induction batch generalizing w with
  | nil => simp [eventsOf, Met]
  | cons p batch ih =>
    have hn : (w.absorb reachable p).store.WellFiled := by
      rw [Progress.store_absorb]
      exact hw.apply p
    rw [List.foldl_cons, ih hn, Progress.change_absorb, Progress.store_absorb, Store.get?_apply,
      eventsOf_cons]
    by_cases h : p.node = q.node ∧ p.key = q.key
    · rw [if_pos h, if_pos h, Met, ← h.1, ← h.2]
      by_cases hr : p.node ∈ reachable
      · rw [if_pos hr, reveal]
        tauto
      · rw [if_neg hr]
        tauto
    · rw [if_neg h, if_neg h]
      have hk : ¬ kind (w.store.get? p.node p.key) p := fun hk => h (own w.store p hw hk)
      by_cases hr : p.node ∈ reachable
      · rw [if_pos hr, reveal]
        tauto
      · rw [if_neg hr]

end

namespace Coherent

variable {s : State} (h : s.Coherent)
include h

theorem mem_added_iff (batch : List Property) (q : Property) :
    q ∈ (s.absorbAll batch).change.added ↔ q.node ∈ s.reachable ∧
      Met q.AddedBy (s.store.get? q.node q.key) (eventsOf batch q.node q.key) := by
  have hs : (Progress.start s).store.WellFiled := h.filed
  rw [State.absorbAll, mem_foldl_absorb PropertyChange.added (fun w p => Progress.mem_added_reveal) ?_ hs]
  · simp [Progress.start, PropertyChange.none]
  · rintro store p - ⟨rfl, -⟩
    exact ⟨rfl, rfl⟩

theorem mem_updated_iff (batch : List Property) (q : Property) :
    q ∈ (s.absorbAll batch).change.updated ↔ q.node ∈ s.reachable ∧
      Met q.UpdatedBy (s.store.get? q.node q.key) (eventsOf batch q.node q.key) := by
  have hs : (Progress.start s).store.WellFiled := h.filed
  rw [State.absorbAll,
    mem_foldl_absorb PropertyChange.updated (fun w p => Progress.mem_updated_reveal) ?_ hs]
  · simp [Progress.start, PropertyChange.none]
  · rintro store p - ⟨rfl, -⟩
    exact ⟨rfl, rfl⟩

theorem mem_removed_iff (batch : List Property) (q : Property) :
    q ∈ (s.absorbAll batch).change.removed ↔ q.node ∈ s.reachable ∧
      Met q.RemovedBy (s.store.get? q.node q.key) (eventsOf batch q.node q.key) := by
  have hs : (Progress.start s).store.WellFiled := h.filed
  rw [State.absorbAll,
    mem_foldl_absorb PropertyChange.removed (fun w p => Progress.mem_removed_reveal) ?_ hs]
  · simp [Progress.start, PropertyChange.none]
  · rintro store p hf ⟨-, hg⟩
    exact ⟨(hf.node_eq hg).symm, (hf.key_eq hg).symm⟩

end Coherent

end State

/-- two changes with the same three sets -/
theorem PropertyChange.ext_mem {c d : PropertyChange} (added : ∀ p, p ∈ c.added ↔ p ∈ d.added)
    (updated : ∀ p, p ∈ c.updated ↔ p ∈ d.updated)
    (removed : ∀ p, p ∈ c.removed ↔ p ∈ d.removed) : c = d := by
  have hadded : c.added = d.added := Std.ExtTreeSet.ext_mem added
  have hupdated : c.updated = d.updated := Std.ExtTreeSet.ext_mem updated
  have hremoved : c.removed = d.removed := Std.ExtTreeSet.ext_mem removed
  calc c = ⟨c.added, c.updated, c.removed⟩ := rfl
    _ = d := by rw [hadded, hupdated, hremoved]

/-! ## one key -/

theorem eventsOf_own {events : List Property} {node : NodeId} {key : String} {p : Property}
    (h : p ∈ eventsOf events node key) : (p.node, p.key) = (node, key) := by
  have hp : p.node = node ∧ p.key = key := by simpa using (List.mem_filter.1 h).2
  rw [hp.1, hp.2]

/-- the change has of the key what its events did to this entry -/
structure PropertyChange.Tells (c : PropertyChange) (node : NodeId) (key : String)
    (entry : Option Property) (events : List Property) : Prop where
  added : ∀ p : Property, (p.node, p.key) = (node, key) →
    (p ∈ c.added ↔ Met p.AddedBy entry events)
  updated : ∀ p : Property, (p.node, p.key) = (node, key) →
    (p ∈ c.updated ↔ Met p.UpdatedBy entry events)
  removed : ∀ p : Property, (p.node, p.key) = (node, key) →
    (p ∈ c.removed ↔ Met p.RemovedBy entry events)

/-- what a set of properties has for a node and a key; the first, should it have several -/
def PropertySet.entry? (s : PropertySet) (node : NodeId) (key : String) : Option Property :=
  s.toList.find? fun p => p.node = node ∧ p.key = key

namespace State

/-- no change stands for three empty sets -/
theorem change_applyBatch (s : State) (batch : List Property) :
    (s.applyBatch batch).1.change.getD .none = (s.absorbAll batch).change := by
  unfold applyBatch
  by_cases he : (s.absorbAll batch).change.isEmpty = true
  · simp only [if_pos he]
    exact ((PropertyChange.isEmpty_iff _).1 he).symm
  · simp only [if_neg he]
    rfl

/-- nothing is told exactly if no event has put anything into the three sets -/
theorem change_applyBatch_eq_none_iff (s : State) (batch : List Property) :
    (s.applyBatch batch).1.change = none ↔ (s.absorbAll batch).change.isEmpty = true := by
  unfold applyBatch
  by_cases he : (s.absorbAll batch).change.isEmpty = true <;> simp [he]

/-- the maps that are told are those of the reachable nodes that an event has had an effect on -/
theorem maps_applyBatch (s : State) (batch : List Property) (node : NodeId) :
    (s.applyBatch batch).1.maps[node]? =
      if node ∈ (s.absorbAll batch).touched ∧ node ∈ s.reachable
      then some (some ((s.absorbAll batch).store.valueMap node)) else none := by
  rw [applyBatch, Views.maps_recordAll, Std.ExtTreeMap.getElem?_empty]
  simp only [Std.ExtTreeSet.mem_toList]

theorem change_moveTo (s : State) (c : TopologyChange) : (s.moveTo c).1.change.getD .none =
    ⟨s.store.propertiesOf c.added, ∅, s.store.propertiesOf c.removed⟩ := by
  unfold moveTo
  by_cases he : ((s.store.propertiesOf c.removed).isEmpty &&
      (s.store.propertiesOf c.added).isEmpty) = true
  · simp only [if_pos he]
    simp only [Bool.and_eq_true, Std.ExtTreeSet.isEmpty_iff] at he
    rw [he.1, he.2]
    rfl
  · simp only [if_neg he]
    rfl

theorem change_moveTo_eq_none_iff (s : State) (c : TopologyChange) :
    (s.moveTo c).1.change = none ↔
      s.store.propertiesOf c.removed = ∅ ∧ s.store.propertiesOf c.added = ∅ := by
  rw [← Std.ExtTreeSet.isEmpty_iff, ← Std.ExtTreeSet.isEmpty_iff, ← Bool.and_eq_true]
  unfold moveTo
  by_cases he : ((s.store.propertiesOf c.removed).isEmpty &&
      (s.store.propertiesOf c.added).isEmpty) = true <;> simp only [he] <;> simp

/-- the nodes that come are shown with the map that was kept for them, and the ones that go without -/
theorem maps_moveTo (s : State) (c : TopologyChange) (node : NodeId) : (s.moveTo c).1.maps[node]? =
    if node ∈ c.added then some (some (s.views.all.getD node ∅))
    else if node ∈ c.removed then some none else none := by
  rw [moveTo, Views.maps_attachAll, Views.maps_detachAll, Views.all_detachAll,
    Std.ExtTreeMap.getElem?_empty]
  simp only [Std.ExtTreeSet.mem_toList]

theorem store_absorbAll (s : State) (batch : List Property) :
    (s.absorbAll batch).store = s.store.applyAll batch :=
  store_foldl_absorb s.reachable (.start s) batch

theorem get?_applyBatch (s : State) (batch : List Property) (node : NodeId) (key : String) :
    (s.applyBatch batch).2.store.get? node key =
      entryAfter (s.store.get? node key) (eventsOf batch node key) := by
  rw [store_applyBatch, store_absorbAll, Store.get?_applyAll_eq_entryAfter]

namespace Coherent

variable {s : State} (h : s.Coherent)
include h

theorem tells_absorbAll (batch : List Property) {node : NodeId} (hr : node ∈ s.reachable)
    (key : String) : (s.absorbAll batch).change.Tells node key (s.store.get? node key)
      (eventsOf batch node key) := by
  constructor
  · rintro p ⟨⟩
    rw [h.mem_added_iff]
    exact and_iff_right hr
  · rintro p ⟨⟩
    rw [h.mem_updated_iff]
    exact and_iff_right hr
  · rintro p ⟨⟩
    rw [h.mem_removed_iff]
    exact and_iff_right hr

theorem get?_own {node : NodeId} {key : String} {p : Property}
    (hg : s.store.get? node key = some p) : (p.node, p.key) = (node, key) :=
  Prod.ext (h.filed.node_eq hg) (h.filed.key_eq hg)

theorem entry?_visible (node : NodeId) (key : String) :
    PropertySet.entry? s.visible node key =
      if node ∈ s.reachable then s.store.get? node key else none := by
  unfold PropertySet.entry?
  cases hf : s.visible.toList.find? fun p => p.node = node ∧ p.key = key with
  | some p =>
    have hp := List.mem_of_find?_eq_some hf
    obtain ⟨rfl, rfl⟩ : p.node = node ∧ p.key = key := by simpa using List.find?_some hf
    obtain ⟨hr, hg⟩ := (h.visible p).1 (Std.ExtTreeSet.mem_toList.1 hp)
    rw [if_pos hr, hg]
  | none =>
    by_cases hr : node ∈ s.reachable
    · rw [if_pos hr]
      cases hg : s.store.get? node key with
      | none => rfl
      | some p =>
        obtain ⟨⟩ := h.get?_own hg
        have hp : p ∈ s.visible := (h.visible p).2 ⟨hr, hg⟩
        have hn := List.find?_eq_none.1 hf p (Std.ExtTreeSet.mem_toList.2 hp)
        simp at hn
    · rw [if_neg hr]

/-- a coherent state has one visible property for a node and a key at most -/
theorem entry?_eq_some_iff {node : NodeId} {key : String} {p : Property} :
    PropertySet.entry? s.visible node key = some p ↔
      p ∈ s.visible ∧ (p.node, p.key) = (node, key) := by
  rw [h.entry?_visible, h.visible]
  by_cases hr : node ∈ s.reachable
  · rw [if_pos hr]
    constructor
    · intro hg
      obtain ⟨⟩ := h.get?_own hg
      exact ⟨⟨hr, hg⟩, rfl⟩
    · rintro ⟨⟨-, hg⟩, ⟨⟩⟩
      exact hg
  · rw [if_neg hr]
    constructor
    · rintro ⟨⟩
    · rintro ⟨⟨hn, -⟩, ⟨⟩⟩
      exact absurd hn hr

/-- a key of a reachable node is visible as its events leave it -/
theorem entry?_applyBatch (batch : List Property) (node : NodeId) (key : String) :
    PropertySet.entry? (s.applyBatch batch).2.visible node key =
      if node ∈ s.reachable then entryAfter (s.store.get? node key) (eventsOf batch node key)
      else none := by
  rw [(h.applyBatch batch).entry?_visible, reachable_applyBatch, get?_applyBatch]

end Coherent

end State

end OverlayWatch
