import OverlayWatch.Proofs.State.Reports

/-!
# What can be inferred from a property change

A property change is three sets for a whole batch, while the events of the batch are classified one by
one.  A property that is set and taken back is added and removed, and so is one that is set, taken back
and set again: the change alone does not say what has become of it.

* `PropertyChange.Settles`   the change leaves no doubt about what is visible for a key now;
* `Tells.entryAfter_eq`      then all events that the change can be made of leave the same entry;
* `Tells.exists_event`       and if there is a doubt, one more event changes the entry and not the change;
* `State.change_settles_visible`   so what is visible after a batch is known by its change exactly if
                             the change settles every key of the reachable nodes.

What settles a key: it has a property which is not removed, and no other one of the key is updated; or
it has none, and none is added.
-/

namespace OverlayWatch

/-! ## events of one key -/

section
variable {kind : Option Property → Property → Prop} {x : Property} {entry : Option Property}
  {events : List Property}

/-- what is neither taken back nor updated stays -/
theorem entryAfter_some_of_not_met (hr : ¬ Met x.RemovedBy (some x) events)
    (hu : ∀ y : Property, Met y.UpdatedBy (some x) events → y = x) :
    entryAfter (some x) events = some x := by
  induction events with
  | nil => rfl
  | cons p events ih =>
    rw [entryAfter_cons]
    cases ht : p.isTombstone with
    | true => exact absurd (.inl ⟨ht, rfl⟩) hr
    | false =>
      obtain rfl : p = x := hu p (.inl ⟨rfl, ht, by simp⟩)
      have hl : p.live? = some p := Property.live?_eq_some_iff.2 ⟨rfl, ht⟩
      rw [Met, hl] at hr
      rw [hl]
      refine ih (fun h => hr (.inr h)) fun y hy => hu y ?_
      rw [Met, hl]
      exact .inr hy

/-- where nothing is added, nothing comes -/
theorem entryAfter_none_of_not_met (ha : ∀ y : Property, ¬ Met y.AddedBy none events) :
    entryAfter none events = none := by
  induction events with
  | nil => rfl
  | cons p events ih =>
    rw [entryAfter_cons]
    cases ht : p.isTombstone with
    | true =>
      have hl : p.live? = none := Property.live?_eq_none_iff.2 ht
      rw [hl]
      refine ih fun y hy => ha y ?_
      rw [Met, hl]
      exact .inr hy
    | false => exact absurd (.inl ⟨rfl, ht, rfl⟩) (ha p)

/-- what is there in the end was there before, or was added or updated -/
theorem met_of_entryAfter_eq_some (h : entryAfter entry events = some x) :
    entry = some x ∨ Met x.AddedBy entry events ∨ Met x.UpdatedBy entry events := by
  induction events generalizing entry with
  | nil => exact .inl h
  | cons p events ih =>
    rcases ih h with hl | hm | hm
    · obtain ⟨rfl, ht⟩ := Property.live?_eq_some_iff.1 hl
      cases he : entry with
      | none => exact .inr (.inl (.inl ⟨rfl, ht, rfl⟩))
      | some q => exact .inr (.inr (.inl ⟨rfl, ht, by simp⟩))
    · exact .inr (.inl (.inr hm))
    · exact .inr (.inr (.inr hm))

theorem met_of_entryAfter_eq_none (h : entryAfter entry events = none) :
    entry = none ∨ ∃ y : Property, Met y.RemovedBy entry events := by
  induction events generalizing entry with
  | nil => exact .inl h
  | cons p events ih =>
    rcases ih h with hl | ⟨y, hm⟩
    · cases he : entry with
      | none => exact .inl rfl
      | some q =>
        have ht : p.isTombstone = true := Property.live?_eq_none_iff.1 hl
        exact .inr ⟨q, .inl ⟨ht, rfl⟩⟩
    · exact .inr ⟨y, .inr hm⟩

/-- an event that leaves `x`, of which nothing is taken back and in whose place nothing else is put -/
theorem entryAfter_some_of_met (h : Met kind entry events)
    (leaves : ∀ found p, kind found p → p.live? = some x) (hr : ¬ Met x.RemovedBy entry events)
    (hu : ∀ y : Property, Met y.UpdatedBy entry events → y = x) :
    entryAfter entry events = some x := by
  induction events generalizing entry with
  | nil => exact absurd h id
  | cons p events ih =>
    have hr : ¬ Met x.RemovedBy p.live? events := fun h => hr (.inr h)
    have hu : ∀ y : Property, Met y.UpdatedBy p.live? events → y = x := fun y h => hu y (.inr h)
    rw [entryAfter_cons]
    rcases h with h | h
    · rw [leaves entry p h] at hr hu ⊢
      exact entryAfter_some_of_not_met hr hu
    · exact ih h hr hu

theorem entryAfter_none_of_met (h : Met x.RemovedBy entry events)
    (ha : ∀ y : Property, ¬ Met y.AddedBy entry events) : entryAfter entry events = none := by
  induction events generalizing entry with
  | nil => exact absurd h id
  | cons p events ih =>
    have ha : ∀ y : Property, ¬ Met y.AddedBy p.live? events := fun y h => ha y (.inr h)
    rw [entryAfter_cons]
    rcases h with ⟨ht, -⟩ | h
    · have hl : p.live? = none := Property.live?_eq_none_iff.2 ht
      rw [hl] at ha ⊢
      exact entryAfter_none_of_not_met ha
    · exact ih h ha

end

/-! ## what a change settles -/

/-- there is no doubt left, given that the key has `now`, that it has nothing else -/
def PropertyChange.Settles (c : PropertyChange) (node : NodeId) (key : String) :
    (now : Option Property) → Prop
  | some p => p ∉ c.removed ∧ ∀ q ∈ c.updated, (q.node, q.key) = (node, key) → q = p
  | Option.none => ∀ q ∈ c.added, (q.node, q.key) ≠ (node, key)

namespace PropertyChange.Tells

variable {c : PropertyChange} {node : NodeId} {key : String} {entry : Option Property}
  {events others : List Property}

/-- the events of a change that settles the key leave what any such events leave -/
theorem entryAfter_eq (h : c.Tells node key entry events) (k : c.Tells node key entry others)
    (own : ∀ p, entry = some p → (p.node, p.key) = (node, key))
    (he : ∀ p ∈ events, (p.node, p.key) = (node, key))
    (ho : ∀ p ∈ others, (p.node, p.key) = (node, key))
    (hs : c.Settles node key (entryAfter entry events)) :
    entryAfter entry others = entryAfter entry events := by
  cases hf : entryAfter entry events with
  | some x =>
    rw [hf] at hs
    have hm := met_of_entryAfter_eq_some hf
    have hx : (x.node, x.key) = (node, key) := by
      rcases hm with hm | hm | hm
      · exact own x hm
      · exact he x hm.of_added.1
      · exact he x hm.of_updated.1
    have hr : ¬ Met x.RemovedBy entry others := fun hr => hs.1 ((k.removed x hx).2 hr)
    have hu : ∀ y : Property, Met y.UpdatedBy entry others → y = x := by
      intro y hy
      have hyk := ho y hy.of_updated.1
      exact hs.2 y ((k.updated y hyk).2 hy) hyk
    rcases hm with rfl | hm | hm
    · exact entryAfter_some_of_not_met hr hu
    · refine entryAfter_some_of_met ((k.added x hx).1 ((h.added x hx).2 hm)) ?_ hr hu
      rintro found p ⟨rfl, ht, -⟩
      exact Property.live?_eq_some_iff.2 ⟨rfl, ht⟩
    · refine entryAfter_some_of_met ((k.updated x hx).1 ((h.updated x hx).2 hm)) ?_ hr hu
      rintro found p ⟨rfl, ht, -⟩
      exact Property.live?_eq_some_iff.2 ⟨rfl, ht⟩
  | none =>
    rw [hf] at hs
    have ha : ∀ y : Property, ¬ Met y.AddedBy entry others := by
      intro y hy
      have hyk := ho y hy.of_added.1
      exact hs y ((k.added y hyk).2 hy) hyk
    rcases met_of_entryAfter_eq_none hf with rfl | ⟨y, hy⟩
    · exact entryAfter_none_of_not_met ha
    · have hyk : (y.node, y.key) = (node, key) := by
        rcases hy.of_removed with hb | hb
        · exact own y hb
        · exact he y hb
      exact entryAfter_none_of_met ((k.removed y hyk).1 ((h.removed y hyk).2 hy)) ha

/-- a doubt is there because of one more event that would do nothing new, and leave something else -/
theorem exists_event (h : c.Tells node key entry events) {now : Option Property}
    (hs : ¬ c.Settles node key now) : ∃ p : Property, (p.node, p.key) = (node, key) ∧
      p.live? ≠ now ∧ (p.AddedBy now p → p ∈ c.added) ∧ (p.UpdatedBy now p → p ∈ c.updated) ∧
      ∀ q : Property, q.RemovedBy now p → q ∈ c.removed := by
  cases now with
  | some x =>
    by_cases hx : x ∈ c.removed
    · refine ⟨.tombstone node key, rfl, ?_, ?_, ?_, ?_⟩
      · show Option.none ≠ some x
        simp
      · rintro ⟨-, ht, -⟩
        cases ht
      · rintro ⟨-, ht, -⟩
        cases ht
      · rintro q ⟨-, ⟨⟩⟩
        exact hx
    · have hu : ∃ y ∈ c.updated, (y.node, y.key) = (node, key) ∧ y ≠ x := by
        by_contra hn
        exact hs ⟨hx, fun y hy hk => by_contra fun hne => hn ⟨y, hy, hk, hne⟩⟩
      obtain ⟨y, hy, hk, hne⟩ := hu
      have ht := ((h.updated y hk).1 hy).of_updated.2
      have hl : y.live? = some y := Property.live?_eq_some_iff.2 ⟨rfl, ht⟩
      refine ⟨y, hk, ?_, ?_, fun _ => hy, ?_⟩
      · rw [hl]
        simpa using hne
      · rintro ⟨-, -, hn⟩
        cases hn
      · rintro q ⟨hq, -⟩
        rw [ht] at hq
        cases hq
  | none =>
    have ha : ∃ y ∈ c.added, (y.node, y.key) = (node, key) := by
      by_contra hn
      exact hs fun y hy hk => hn ⟨y, hy, hk⟩
    obtain ⟨y, hy, hk⟩ := ha
    have ht := ((h.added y hk).1 hy).of_added.2
    have hl : y.live? = some y := Property.live?_eq_some_iff.2 ⟨rfl, ht⟩
    refine ⟨y, hk, ?_, fun _ => hy, ?_, ?_⟩
    · rw [hl]
      simp
    · rintro ⟨-, -, hn⟩
      exact absurd rfl hn
    · rintro q ⟨-, ⟨⟩⟩

/-- a single event leaves no doubt -/
theorem settles (h : c.Tells node key entry events)
    (own : ∀ p, entry = some p → (p.node, p.key) = (node, key))
    (he : ∀ p ∈ events, (p.node, p.key) = (node, key)) (one : events.length ≤ 1) :
    c.Settles node key (entryAfter entry events) := by
  rcases events with _ | ⟨event, _ | ⟨second, rest⟩⟩
  · show c.Settles node key entry
    cases entry with
    | some x =>
      have hx := own x rfl
      exact ⟨fun hr => (h.removed x hx).1 hr, fun q hq hk => absurd ((h.updated q hk).1 hq) id⟩
    | none => exact fun q hq hk => (h.added q hk).1 hq
  · have hek := he event List.mem_cons_self
    show c.Settles node key event.live?
    cases ht : event.isTombstone with
    | true =>
      have hl : event.live? = .none := Property.live?_eq_none_iff.2 ht
      rw [hl]
      intro q hq hk
      obtain ⟨hm, hn⟩ := ((h.added q hk).1 hq).of_added
      obtain rfl := List.mem_singleton.1 hm
      rw [ht] at hn
      cases hn
    | false =>
      have hl : event.live? = some event := Property.live?_eq_some_iff.2 ⟨rfl, ht⟩
      rw [hl]
      refine ⟨fun hr => ?_, fun q hq hk => List.mem_singleton.1 ((h.updated q hk).1 hq).of_updated.1⟩
      rcases (h.removed event hek).1 hr with ⟨hn, -⟩ | hn
      · rw [ht] at hn
        cases hn
      · exact hn
  · simp at one

end PropertyChange.Tells

/-! ## batches with the same change -/

namespace State

/-- an event that does nothing new does not show in the change -/
theorem Progress.change_reveal_eq {w : Progress} {store : Store} {p : Property}
    (ha : p.AddedBy (store.get? p.node p.key) p → p ∈ w.change.added)
    (hu : p.UpdatedBy (store.get? p.node p.key) p → p ∈ w.change.updated)
    (hr : ∀ q : Property, q.RemovedBy (store.get? p.node p.key) p → q ∈ w.change.removed) :
    (w.reveal p (store.outcome p)).change = w.change := by
  apply PropertyChange.ext_mem
  · intro q
    rw [mem_added_reveal, or_iff_left_iff_imp]
    rintro ⟨rfl, hq⟩
    exact ha ⟨rfl, hq⟩
  · intro q
    rw [mem_updated_reveal, or_iff_left_iff_imp]
    rintro ⟨rfl, hq⟩
    exact hu ⟨rfl, hq⟩
  · intro q
    rw [mem_removed_reveal, or_iff_left_iff_imp]
    exact hr q

theorem change_applyBatch_eq_iff (s : State) (a b : List Property) :
    (s.applyBatch a).1.change = (s.applyBatch b).1.change ↔
      (s.absorbAll a).change = (s.absorbAll b).change := by
  constructor
  · intro h
    rw [← change_applyBatch, ← change_applyBatch, h]
  · intro h
    simp only [applyBatch, h]

namespace Coherent

variable {s : State} (h : s.Coherent)
include h

/-- batches that settle a key in the same change leave it alike, and only they do -/
theorem settles_iff {node : NodeId} (hr : node ∈ s.reachable) (key : String)
    (batch : List Property) :
    (s.absorbAll batch).change.Settles node key
        (PropertySet.entry? (s.applyBatch batch).2.visible node key) ↔
      ∀ other, (s.absorbAll other).change = (s.absorbAll batch).change →
        PropertySet.entry? (s.applyBatch other).2.visible node key =
          PropertySet.entry? (s.applyBatch batch).2.visible node key := by
  have ht := h.tells_absorbAll batch hr key
  have own : ∀ p, s.store.get? node key = some p → (p.node, p.key) = (node, key) :=
    fun p hg => h.get?_own hg
  simp only [h.entry?_applyBatch, if_pos hr]
  constructor
  · intro hs other ho
    have hto := h.tells_absorbAll other hr key
    rw [ho] at hto
    exact ht.entryAfter_eq hto own (fun p hp => eventsOf_own hp) (fun p hp => eventsOf_own hp) hs
  · intro hall
    by_contra hs
    -- the same batch with one event more is reported alike and leaves something else
    obtain ⟨p, hpk, hne, ha, hu, hrem⟩ := ht.exists_event hs
    obtain ⟨⟩ := hpk
    have hg : (s.absorbAll batch).store.get? p.node p.key =
        entryAfter (s.store.get? p.node p.key) (eventsOf batch p.node p.key) := by
      rw [store_absorbAll, Store.get?_applyAll_eq_entryAfter]
    rw [← hg] at ha hu hrem hne hall
    have hc : (s.absorbAll (batch ++ [p])).change = (s.absorbAll batch).change := by
      rw [absorbAll_append, List.foldl_cons, List.foldl_nil, Progress.change_absorb, if_pos hr]
      exact Progress.change_reveal_eq ha hu hrem
    have hl := hall (batch ++ [p]) hc
    rw [← Store.get?_applyAll_eq_entryAfter, Store.applyAll_append, ← store_absorbAll,
      Store.applyAll_cons, Store.applyAll_nil, Store.get?_apply, if_pos ⟨rfl, rfl⟩] at hl
    exact hne hl

theorem visible_eq_iff {t : State} (k : t.Coherent) : t.visible = s.visible ↔
    ∀ node key, PropertySet.entry? t.visible node key = PropertySet.entry? s.visible node key := by
  constructor
  · intro he node key
    rw [he]
  · intro he
    apply Std.ExtTreeSet.ext_mem
    intro p
    have hp : PropertySet.entry? t.visible p.node p.key = some p ↔ p ∈ t.visible ∧ _ :=
      k.entry?_eq_some_iff
    rw [he, h.entry?_eq_some_iff] at hp
    simpa using hp.symm

end Coherent

/-- **A change tells what is visible exactly as far as it settles it**: a batch that is reported by the
same change leaves a key of a reachable node alike if the change settles the key, and otherwise not
every such batch does.  The change settles all that is visible if no such key has several events. -/
theorem change_settles_visible (updates : List Update) (batch : List Property) :
    let s := after updates
    let told := (s.applyBatch batch).1.change
    let seen := (s.applyBatch batch).2.visible
    (∀ node ∈ s.reachable, ∀ key,
      (told.getD .none).Settles node key (PropertySet.entry? seen node key) ↔
        ∀ other, (s.applyBatch other).1.change = told →
          PropertySet.entry? (s.applyBatch other).2.visible node key =
            PropertySet.entry? seen node key) ∧
    ((∀ node ∈ s.reachable, ∀ key,
      (told.getD .none).Settles node key (PropertySet.entry? seen node key)) ↔
        ∀ other, (s.applyBatch other).1.change = told → (s.applyBatch other).2.visible = seen) ∧
    ((∀ node ∈ s.reachable, ∀ key, (eventsOf batch node key).length ≤ 1) →
      ∀ other, (s.applyBatch other).1.change = told → (s.applyBatch other).2.visible = seen) := by
  intro s told seen
  have h : s.Coherent := coherent_after updates
  have hkey : ∀ node ∈ s.reachable, ∀ key,
      (told.getD .none).Settles node key (PropertySet.entry? seen node key) ↔
        ∀ other, (s.applyBatch other).1.change = told →
          PropertySet.entry? (s.applyBatch other).2.visible node key =
            PropertySet.entry? seen node key := by
    intro node hr key
    rw [change_applyBatch]
    simp only [told, change_applyBatch_eq_iff]
    exact h.settles_iff hr key batch
  have hall : (∀ node ∈ s.reachable, ∀ key,
      (told.getD .none).Settles node key (PropertySet.entry? seen node key)) ↔
        ∀ other, (s.applyBatch other).1.change = told → (s.applyBatch other).2.visible = seen := by
    constructor
    · intro hs other ho
      rw [(h.applyBatch batch).visible_eq_iff (h.applyBatch other)]
      intro node key
      by_cases hr : node ∈ s.reachable
      · exact (hkey node hr key).1 (hs node hr key) other ho
      · rw [h.entry?_applyBatch, h.entry?_applyBatch, if_neg hr, if_neg hr]
    · intro hv node hr key
      rw [hkey node hr key]
      intro other ho
      rw [hv other ho]
  refine ⟨hkey, hall, fun one => hall.1 fun node hr key => ?_⟩
  rw [change_applyBatch, h.entry?_applyBatch, if_pos hr]
  exact (h.tells_absorbAll batch hr key).settles (fun p hg => h.get?_own hg)
    (fun p hp => eventsOf_own hp) (one node hr key)

/-- what is set and taken back is in the same sets when it is then set once more -/
theorem not_same_visible_of_same_change :
    ¬ ∀ (updates : List Update) (batch other : List Property),
      ((after updates).applyBatch other).1.change = ((after updates).applyBatch batch).1.change →
        ((after updates).applyBatch other).2.visible =
          ((after updates).applyBatch batch).2.visible := by
  intro h
  have hv := h [.topology (.between ∅ {⟨"n"⟩})]
    [.live ⟨"n"⟩ "k" "v", .tombstone ⟨"n"⟩ "k"]
    [.live ⟨"n"⟩ "k" "v", .tombstone ⟨"n"⟩ "k", .live ⟨"n"⟩ "k" "v"] (by decide +kernel)
  revert hv
  decide +kernel

end State

end OverlayWatch
