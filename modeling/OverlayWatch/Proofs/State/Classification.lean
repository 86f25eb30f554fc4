import OverlayWatch.Proofs.State.Reports

/-!
# How a batch is classified

Which of the three sets an event goes into depends on what it finds under its node and key: what the
nearest earlier event of the batch for them left there or, if the batch has none, what was filed before
the batch.  So the report can be read off the batch and the store before it, without following the loop.

* `foundAfter`                 what the next event for a node and a key finds;
* `met_iff_exists_split`       an event of a kind is met at some position of the batch;
* `met_filed_iff`, `met_removed_iff`   the kinds that matter: a property is filed, or taken back;
* `State.change_eq_none_iff`   nothing is reported when nothing came, changed or went;
* `State.batch_classified`     the three sets, position by position.
-/

namespace OverlayWatch

/-- after these events, with this entry before them -/
def foundAfter (entry : Option Property) (earlier : List Property) (node : NodeId) (key : String) :
    Option Property :=
  (lastEvent earlier node key).elim entry Property.live?

section
variable (entry : Option Property) (node : NodeId) (key : String)

theorem foundAfter_cons (p : Property) (earlier : List Property) :
    foundAfter entry (p :: earlier) node key =
      foundAfter (if p.node = node ∧ p.key = key then p.live? else entry) earlier node key := by
  unfold foundAfter
  rw [lastEvent_cons]
  by_cases h : p.node = node ∧ p.key = key
  · rw [if_pos h, if_pos h]
    cases lastEvent earlier node key <;> rfl
  · rw [if_neg h, if_neg h]

/-- nothing is found after a tombstone, and where there was nothing and nothing came -/
theorem foundAfter_eq_none_iff (earlier : List Property) :
    foundAfter entry earlier node key = none ↔
      (∃ e, lastEvent earlier node key = some e ∧ e.isTombstone = true) ∨
      lastEvent earlier node key = none ∧ entry = none := by
  unfold foundAfter
  cases lastEvent earlier node key with
  | none => simp
  | some e => simp [Property.live?_eq_none_iff]

/-- something is found after a live event, and where there was something and nothing came -/
theorem foundAfter_ne_none_iff (earlier : List Property) :
    foundAfter entry earlier node key ≠ none ↔
      (∃ e, lastEvent earlier node key = some e ∧ e.isTombstone = false) ∨
      lastEvent earlier node key = none ∧ entry ≠ none := by
  unfold foundAfter
  cases lastEvent earlier node key with
  | none => simp
  | some e => simp [Property.live?_eq_none_iff]

theorem foundAfter_eq_some_iff (earlier : List Property) (q : Property) :
    foundAfter entry earlier node key = some q ↔
      (lastEvent earlier node key = some q ∧ q.isTombstone = false) ∨
      lastEvent earlier node key = none ∧ entry = some q := by
  unfold foundAfter
  cases lastEvent earlier node key with
  | none => simp
  | some e =>
    rw [Option.elim_some, Property.live?_eq_some_iff]
    constructor
    · rintro ⟨rfl, ht⟩
      exact .inl ⟨rfl, ht⟩
    · rintro (⟨he, ht⟩ | ⟨he, -⟩)
      · obtain rfl := Option.some.inj he
        exact ⟨rfl, ht⟩
      · cases he

end

/-! ## positions -/

section
variable {kind : Option Property → Property → Prop} {node : NodeId} {key : String}

/-- each event of the key is looked at with what it finds at its own position -/
theorem met_iff_exists_split {entry : Option Property} {batch : List Property} :
    Met kind entry (eventsOf batch node key) ↔
      ∃ earlier p later, batch = earlier ++ p :: later ∧ p.node = node ∧ p.key = key ∧
        kind (foundAfter entry earlier node key) p := by
  induction batch generalizing entry with
  | nil => simp [eventsOf, Met]
  | cons e batch ih =>
    -- the position is the first one, or one of the rest with the first event before it
    have split : (∃ earlier p later, e :: batch = earlier ++ p :: later ∧ p.node = node ∧
          p.key = key ∧ kind (foundAfter entry earlier node key) p) ↔
        (e.node = node ∧ e.key = key ∧ kind entry e) ∨
        ∃ earlier p later, batch = earlier ++ p :: later ∧ p.node = node ∧ p.key = key ∧
          kind (foundAfter (if e.node = node ∧ e.key = key then e.live? else entry)
            earlier node key) p := by
      constructor
      · rintro ⟨earlier, p, later, hb, hn, hk, hp⟩
        rcases List.cons_eq_append_iff.1 hb with ⟨rfl, hc⟩ | ⟨rest, rfl, hc⟩
        · obtain ⟨rfl, rfl⟩ := List.cons.inj hc
          exact .inl ⟨hn, hk, hp⟩
        · rw [foundAfter_cons] at hp
          exact .inr ⟨rest, p, later, hc, hn, hk, hp⟩
      · rintro (⟨hn, hk, hp⟩ | ⟨earlier, p, later, rfl, hn, hk, hp⟩)
        · exact ⟨[], e, batch, rfl, hn, hk, hp⟩
        · rw [← foundAfter_cons] at hp
          exact ⟨e :: earlier, p, later, rfl, hn, hk, hp⟩
    rw [split, ← ih, eventsOf_cons]
    by_cases h : e.node = node ∧ e.key = key
    · rw [if_pos h, if_pos h, Met]
      simp only [h.1, h.2, true_and]
    · rw [if_neg h, if_neg h]
      constructor
      · exact .inr
      · rintro (⟨hn, hk, -⟩ | hm)
        · exact absurd ⟨hn, hk⟩ h
        · exact hm

variable {q : Property} {entry : Option Property} {batch : List Property}

/-- an event that files `q` is `q` itself -/
theorem met_filed_iff {found : Option Property → Prop} :
    Met (fun entry p => p = q ∧ p.isTombstone = false ∧ found entry) entry
        (eventsOf batch q.node q.key) ↔
      ∃ earlier later, batch = earlier ++ q :: later ∧ q.isTombstone = false ∧
        found (foundAfter entry earlier q.node q.key) := by
  rw [met_iff_exists_split]
  constructor
  · rintro ⟨earlier, p, later, hb, -, -, rfl, ht, hf⟩
    exact ⟨earlier, later, hb, ht, hf⟩
  · rintro ⟨earlier, later, hb, ht, hf⟩
    exact ⟨earlier, q, later, hb, rfl, rfl, rfl, ht, hf⟩

theorem met_removed_iff :
    Met q.RemovedBy entry (eventsOf batch q.node q.key) ↔
      ∃ earlier t later, batch = earlier ++ t :: later ∧ t.isTombstone = true ∧ t.node = q.node ∧
        t.key = q.key ∧ foundAfter entry earlier q.node q.key = some q := by
  rw [met_iff_exists_split]
  constructor
  · rintro ⟨earlier, t, later, hb, hn, hk, ht, hf⟩
    exact ⟨earlier, t, later, hb, ht, hn, hk, hf⟩
  · rintro ⟨earlier, t, later, hb, ht, hn, hk, hf⟩
    exact ⟨earlier, t, later, hb, hn, hk, ht, hf⟩

end

namespace State

theorem change_eq_none_iff (s : State) (batch : List Property) :
    (s.applyBatch batch).1.change = none ↔
      let c := (s.applyBatch batch).1.change.getD .none
      c.added = ∅ ∧ c.updated = ∅ ∧ c.removed = ∅ := by
  rw [change_applyBatch_eq_none_iff, change_applyBatch]
  simp only [PropertyChange.isEmpty, Bool.and_eq_true, Std.ExtTreeSet.isEmpty_iff, and_assoc]

/-- **The report of a batch, position by position**: a live event of a reachable node is added if the
nearest earlier event of the batch for its node and key is a tombstone, or there is none and nothing was
filed; it is updated if that event is live, or there is none and something was filed, be it the same
property.  A property is removed where a tombstone for its node and key finds it: the nearest earlier
event is the live property, or there is none and the property was filed.  Nothing is reported exactly if
the three sets are empty, and none of them has a tombstone. -/
theorem batch_classified (updates : List Update) (batch : List Property) :
    let s := State.after updates
    let report := (s.applyBatch batch).1.change
    let c := report.getD .none
    (∀ p, p ∈ c.added ↔ p.node ∈ s.reachable ∧ ∃ earlier later,
      batch = earlier ++ p :: later ∧ p.isTombstone = false ∧
      ((∃ e, lastEvent earlier p.node p.key = some e ∧ e.isTombstone = true) ∨
        lastEvent earlier p.node p.key = none ∧ s.store.get? p.node p.key = none)) ∧
    (∀ p, p ∈ c.updated ↔ p.node ∈ s.reachable ∧ ∃ earlier later,
      batch = earlier ++ p :: later ∧ p.isTombstone = false ∧
      ((∃ e, lastEvent earlier p.node p.key = some e ∧ e.isTombstone = false) ∨
        lastEvent earlier p.node p.key = none ∧ s.store.get? p.node p.key ≠ none)) ∧
    (∀ p, p ∈ c.removed ↔ p.node ∈ s.reachable ∧ ∃ earlier t later,
      batch = earlier ++ t :: later ∧ t.isTombstone = true ∧ t.node = p.node ∧ t.key = p.key ∧
      ((lastEvent earlier p.node p.key = some p ∧ p.isTombstone = false) ∨
        lastEvent earlier p.node p.key = none ∧ s.store.get? p.node p.key = some p)) ∧
    (report = none ↔ c.added = ∅ ∧ c.updated = ∅ ∧ c.removed = ∅) ∧
    ∀ p, p ∈ c.added ∨ p ∈ c.updated ∨ p ∈ c.removed → p.isTombstone = false := by
  intro s report c
  have h : s.Coherent := coherent_after updates
  have hc : c = (s.absorbAll batch).change := change_applyBatch s batch
  have hadded : ∀ p, p ∈ c.added ↔ p.node ∈ s.reachable ∧
      Met p.AddedBy (s.store.get? p.node p.key) (eventsOf batch p.node p.key) := by
    rw [hc]
    exact h.mem_added_iff batch
  have hupdated : ∀ p, p ∈ c.updated ↔ p.node ∈ s.reachable ∧
      Met p.UpdatedBy (s.store.get? p.node p.key) (eventsOf batch p.node p.key) := by
    rw [hc]
    exact h.mem_updated_iff batch
  have hremoved : ∀ p, p ∈ c.removed ↔ p.node ∈ s.reachable ∧
      Met p.RemovedBy (s.store.get? p.node p.key) (eventsOf batch p.node p.key) := by
    rw [hc]
    exact h.mem_removed_iff batch
  refine ⟨fun p => ?_, fun p => ?_, fun p => ?_, change_eq_none_iff s batch, ?_⟩
  · simp only [← foundAfter_eq_none_iff]
    exact (hadded p).trans (and_congr_right fun _ => met_filed_iff)
  · simp only [← foundAfter_ne_none_iff]
    exact (hupdated p).trans (and_congr_right fun _ => met_filed_iff)
  · simp only [← foundAfter_eq_some_iff]
    exact (hremoved p).trans (and_congr_right fun _ => met_removed_iff)
  · rintro p (hp | hp | hp)
    · exact ((hadded p).1 hp).2.of_added.2
    · exact ((hupdated p).1 hp).2.of_updated.2
    · obtain ⟨earlier, t, later, -, -, -, -, hf⟩ := met_removed_iff.1 ((hremoved p).1 hp).2
      rcases (foundAfter_eq_some_iff _ _ _ _ _).1 hf with ⟨-, ht⟩ | ⟨-, hg⟩
      · exact ht
      · exact h.filed.live hg

end State

end OverlayWatch
