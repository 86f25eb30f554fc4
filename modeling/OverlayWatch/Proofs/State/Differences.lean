import OverlayWatch.Proofs.State.Batching
import OverlayWatch.Proofs.State.Inference
import OverlayWatch.Proofs.State.Replica

/-!
# Reports against what is visible before and after

A report is made while the visible properties are being changed, not by comparing them.  This module
compares.

For a batch the three sets are bounds.  A property can be added, taken back and set again in one batch,
so a set may name it although nothing of it shows in the end; but nothing comes, changes or goes
without a trace in one of the sets, and nothing is in a set that was not there before or came in the
batch:

* `Tells.of_left`, `Tells.of_lost`   what a key has afterwards, and what it has no longer;
* `Tells.of_removed`, `Tells.of_updated`, `Tells.of_added`   what must have been there for a set to
                             have a property of the key;
* `State.visible_accounted`  the same for all that is visible.

For a topology change they are exact:

* `Coherent.visible_diff_moveTo`   what comes is filed for the nodes that come, and what goes for those
                             that go;
* `State.topology_delta_exact`   so the report is the difference, whatever has happened to the nodes
                             while they were out of reach.
-/

namespace OverlayWatch

/-! ## one key of a batch -/

namespace PropertyChange.Tells

variable {c : PropertyChange} {node : NodeId} {key : String} {entry : Option Property}
  {events : List Property} {x : Property}

section
variable (h : c.Tells node key entry events) (he : ∀ p ∈ events, (p.node, p.key) = (node, key))
include h he

/-- what the key has afterwards was there, or came -/
theorem of_left (hx : entryAfter entry events = some x) :
    entry = some x ∨ x ∈ c.added ∨ x ∈ c.updated := by
  rcases met_of_entryAfter_eq_some hx with hm | hm | hm
  · exact .inl hm
  · exact .inr (.inl ((h.added x (he x hm.of_added.1)).2 hm))
  · exact .inr (.inr ((h.updated x (he x hm.of_updated.1)).2 hm))

/-- what is there before and not afterwards has been taken back, or something else has been put in its
place -/
theorem of_lost (own : (x.node, x.key) = (node, key)) (hx : entry = some x)
    (hn : entryAfter entry events ≠ some x) :
    x ∈ c.removed ∨ ∃ q ∈ c.updated, (q.node, q.key) = (node, key) := by
  by_contra hno
  rw [not_or] at hno
  refine hn (hx ▸ entryAfter_some_of_not_met (fun hr => ?_) fun y hy => ?_)
  · exact hno.1 ((h.removed x own).2 (hx ▸ hr))
  · have hyk := he y hy.of_updated.1
    exact absurd ⟨y, (h.updated y hyk).2 (hx ▸ hy), hyk⟩ hno.2

end

/-- without a report the key is as it was -/
theorem entryAfter_eq_of_none (h : PropertyChange.none.Tells node key entry events)
    (own : ∀ p, entry = some p → (p.node, p.key) = (node, key))
    (he : ∀ p ∈ events, (p.node, p.key) = (node, key)) : entryAfter entry events = entry := by
  by_contra hne
  cases hx : entryAfter entry events with
  | some x =>
    rcases h.of_left he hx with hs | hs | hs
    · exact hne (hx.trans hs.symm)
    · simp [PropertyChange.none] at hs
    · simp [PropertyChange.none] at hs
  | none =>
    cases hy : entry with
    | none => exact hne (hx.trans hy.symm)
    | some y =>
      have hn : entryAfter entry events ≠ some y := by simp [hx]
      rcases h.of_lost he (own y hy) hy hn with hs | ⟨q, hs, -⟩
      · simp [PropertyChange.none] at hs
      · simp [PropertyChange.none] at hs

section
variable (h : c.Tells node key entry events) (he : ∀ p ∈ events, (p.node, p.key) = (node, key))
  (hk : (x.node, x.key) = (node, key))
include h he hk

/-- what is taken back was there, or came in the batch -/
theorem of_removed (hx : x ∈ c.removed) : entry = some x ∨ x ∈ c.added ∨ x ∈ c.updated := by
  obtain ⟨earlier, p, later, rfl, -, hf⟩ := ((h.removed x hk).1 hx).exists_split
  rcases met_of_entryAfter_eq_some hf with hm | hm | hm
  · exact .inl hm
  · exact .inr (.inl ((h.added x hk).2 (met_append.2 (.inl hm))))
  · exact .inr (.inr ((h.updated x hk).2 (met_append.2 (.inl hm))))

/-- an update is made where something was, or had been added -/
theorem of_updated (hx : x ∈ c.updated) :
    entry ≠ .none ∨ ∃ q ∈ c.added, (q.node, q.key) = (node, key) := by
  obtain ⟨earlier, p, later, rfl, -, -, hf⟩ := ((h.updated x hk).1 hx).exists_split
  by_cases hn : entry = .none
  · by_contra hno
    rw [not_or] at hno
    refine hf (hn ▸ entryAfter_none_of_not_met fun y hy => hno.2 ?_)
    have hm : Met y.AddedBy entry (earlier ++ p :: later) := met_append.2 (.inl (hn ▸ hy))
    have hyk := he y hm.of_added.1
    exact ⟨y, (h.added y hyk).2 hm, hyk⟩
  · exact .inl hn

/-- something is added where nothing was, or what was there had been taken back -/
theorem of_added (own : ∀ p, entry = some p → (p.node, p.key) = (node, key)) (hx : x ∈ c.added) :
    entry = .none ∨ ∃ q ∈ c.removed, (q.node, q.key) = (node, key) := by
  obtain ⟨earlier, p, later, rfl, -, -, hf⟩ := ((h.added x hk).1 hx).exists_split
  rcases met_of_entryAfter_eq_none hf with hn | ⟨y, hy⟩
  · exact .inl hn
  · have hm : Met y.RemovedBy entry (earlier ++ p :: later) := met_append.2 (.inl hy)
    have hyk : (y.node, y.key) = (node, key) := hm.of_removed.elim (own y) (he y)
    exact .inr ⟨y, (h.removed y hyk).2 hm, hyk⟩

end

end PropertyChange.Tells

namespace State

/-! ## all that is visible around a batch -/

namespace Coherent

variable {s : State} (h : s.Coherent)
include h

/-- the maps of the reachable nodes follow from what is visible -/
theorem maps_eq_of_visible_eq {t : State} (k : t.Coherent) (hr : t.reachable = s.reachable)
    (hv : t.visible = s.visible) : t.reachableValueMaps = s.reachableValueMaps ∧
      ∀ node ∈ s.reachable, t.valueMap? node = s.valueMap? node := by
  have hmap : ∀ node ∈ s.reachable, t.store.valueMap node = s.store.valueMap node := by
    intro node hn
    refine Store.valueMap_congr h.filed k.filed fun key => ?_
    have he := k.entry?_visible node key
    rw [hv, hr, h.entry?_visible, if_pos hn, if_pos hn] at he
    exact he.symm
  constructor
  · apply Std.ExtTreeMap.ext_getElem?
    intro node
    show t.views.reachable[node]? = s.views.reachable[node]?
    rw [k.shown, h.shown, hr]
    by_cases hn : node ∈ s.reachable
    · rw [if_pos hn, if_pos hn, hmap node hn]
    · rw [if_neg hn, if_neg hn]
  · intro node hn
    show t.views.all[node]? = s.views.all[node]?
    rw [k.getElem?_all, h.getElem?_all, if_pos (k.keptOfReachable (hr ▸ hn)),
      if_pos (h.keptOfReachable hn), hmap node hn]

theorem mem_visible_applyBatch (batch : List Property) (p : Property) :
    p ∈ (s.applyBatch batch).2.visible ↔ p.node ∈ s.reachable ∧
      entryAfter (s.store.get? p.node p.key) (eventsOf batch p.node p.key) = some p := by
  rw [(h.applyBatch batch).visible, reachable_applyBatch, get?_applyBatch]

theorem visible_applyBatch_of_silent {batch : List Property}
    (hnone : (s.applyBatch batch).1.change = none) : (s.applyBatch batch).2.visible = s.visible := by
  have hc : (s.absorbAll batch).change = .none := by rw [← change_applyBatch, hnone]; rfl
  apply Std.ExtTreeSet.ext_mem
  intro p
  rw [h.mem_visible_applyBatch, h.visible]
  refine and_congr_right fun hr => ?_
  have ht := h.tells_absorbAll batch hr p.key
  rw [hc] at ht
  rw [ht.entryAfter_eq_of_none (fun q hq => h.get?_own hq) fun q hq => eventsOf_own hq]

end Coherent

/-- **A batch changes nothing in silence and reports nothing that did not happen**: what is visible
afterwards was visible before, or is added or updated; what was visible before and is no longer is
removed, or its key is updated; what is removed was visible, added or updated; what is updated was there
or added, under its key; what is added had nothing under its key, or that was removed.  Without a report
nothing that an observer can see has changed. -/
theorem visible_accounted (updates : List Update) (batch : List Property) :
    let s := after updates
    let t := (s.applyBatch batch).2
    let told := (s.applyBatch batch).1.change
    let c := told.getD .none
    (∀ p ∈ t.visible, p ∈ s.visible ∨ p ∈ c.added ∨ p ∈ c.updated) ∧
    (∀ p ∈ s.visible, p ∉ t.visible →
      p ∈ c.removed ∨ ∃ q ∈ c.updated, (q.node, q.key) = (p.node, p.key)) ∧
    (∀ p ∈ c.removed, p ∈ s.visible ∨ p ∈ c.added ∨ p ∈ c.updated) ∧
    (∀ p ∈ c.updated, ∃ q, (q ∈ s.visible ∨ q ∈ c.added) ∧ (q.node, q.key) = (p.node, p.key)) ∧
    (∀ p ∈ c.added, (∀ q ∈ s.visible, (q.node, q.key) ≠ (p.node, p.key)) ∨
      ∃ q ∈ c.removed, (q.node, q.key) = (p.node, p.key)) ∧
    (told = none → t.visible = s.visible ∧ t.reachableValueMaps = s.reachableValueMaps ∧
      ∀ node ∈ s.reachable, t.valueMap? node = s.valueMap? node) := by
  intro s t told c
  have h : s.Coherent := coherent_after updates
  have hc : c = (s.absorbAll batch).change := change_applyBatch s batch
  have tells : ∀ p : Property, p.node ∈ s.reachable →
      c.Tells p.node p.key (s.store.get? p.node p.key) (eventsOf batch p.node p.key) := by
    intro p hr
    rw [hc]
    exact h.tells_absorbAll batch hr p.key
  have events : ∀ p q : Property, q ∈ eventsOf batch p.node p.key →
      (q.node, q.key) = (p.node, p.key) := fun p q => eventsOf_own
  refine ⟨fun p hp => ?_, fun p hp hn => ?_, fun p hp => ?_, fun p hp => ?_, fun p hp => ?_,
    fun hnone => ?_⟩
  · obtain ⟨hr, hg⟩ := (h.mem_visible_applyBatch batch p).1 hp
    exact ((tells p hr).of_left (events p) hg).imp_left fun hs => (h.visible p).2 ⟨hr, hs⟩
  · obtain ⟨hr, hg⟩ := (h.visible p).1 hp
    refine (tells p hr).of_lost (events p) rfl hg fun hl => hn ?_
    exact (h.mem_visible_applyBatch batch p).2 ⟨hr, hl⟩
  · have hr : p.node ∈ s.reachable := ((h.mem_removed_iff batch p).1 (hc ▸ hp)).1
    exact ((tells p hr).of_removed (events p) rfl hp).imp_left fun hs => (h.visible p).2 ⟨hr, hs⟩
  · have hr : p.node ∈ s.reachable := ((h.mem_updated_iff batch p).1 (hc ▸ hp)).1
    rcases (tells p hr).of_updated (events p) rfl hp with hs | ⟨q, hq, hqk⟩
    · obtain ⟨q, hq⟩ := Option.ne_none_iff_exists'.1 hs
      obtain ⟨hn, hk⟩ := Prod.mk.inj (h.get?_own hq)
      exact ⟨q, .inl ((h.visible q).2 ⟨hn ▸ hr, by rw [hn, hk, hq]⟩), h.get?_own hq⟩
    · exact ⟨q, .inr hq, hqk⟩
  · have hr : p.node ∈ s.reachable := ((h.mem_added_iff batch p).1 (hc ▸ hp)).1
    refine ((tells p hr).of_added (events p) rfl (fun q hq => h.get?_own hq) hp).imp_left ?_
    intro hs q hq hqk
    obtain ⟨hn, hk⟩ := Prod.mk.inj hqk
    have hg := ((h.visible q).1 hq).2
    rw [hn, hk, hs] at hg
    cases hg
  · have hv : t.visible = s.visible := h.visible_applyBatch_of_silent hnone
    exact ⟨hv, h.maps_eq_of_visible_eq (h.applyBatch batch) rfl hv⟩

/-! ## all that is visible around a topology change -/

namespace Coherent

variable {s : State} (h : s.Coherent) {c : TopologyChange} (hc : c.Fits s.reachable)
include h hc

/-- a node that comes was not reachable before, so nothing of it was visible -/
theorem visible_moveTo_diff :
    (s.moveTo c).2.visible \ s.visible = s.store.propertiesOf c.added := by
  apply Std.ExtTreeSet.ext_mem
  intro p
  rw [Std.ExtTreeSet.mem_diff_iff, (h.moveTo hc).visible, h.visible, reachable_moveTo, store_moveTo,
    h.filed.mem_propertiesOf, hc.mem_reachable]
  have hnew : p.node ∈ c.added → p.node ∉ s.reachable := hc.added_new
  tauto

/-- a node that goes was reachable before, and does not come as well -/
theorem visible_diff_moveTo :
    s.visible \ (s.moveTo c).2.visible = s.store.propertiesOf c.removed := by
  apply Std.ExtTreeSet.ext_mem
  intro p
  rw [Std.ExtTreeSet.mem_diff_iff, (h.moveTo hc).visible, h.visible, reachable_moveTo, store_moveTo,
    h.filed.mem_propertiesOf, hc.mem_reachable]
  have hold : p.node ∈ c.removed → p.node ∈ s.reachable := hc.removed_reachable
  have hdis : p.node ∈ c.added → p.node ∉ c.removed := hc.disjoint
  tauto

theorem change_moveTo_eq : (s.moveTo c).1.change.getD .none =
    ⟨(s.moveTo c).2.visible \ s.visible, ∅, s.visible \ (s.moveTo c).2.visible⟩ := by
  rw [change_moveTo, h.visible_moveTo_diff hc, h.visible_diff_moveTo hc]

theorem change_moveTo_eq_none_iff_visible :
    (s.moveTo c).1.change = none ↔ s.visible = (s.moveTo c).2.visible := by
  rw [change_moveTo_eq_none_iff, ← h.visible_diff_moveTo hc, ← h.visible_moveTo_diff hc]
  simp only [Std.ExtTreeSet.eq_empty_iff_forall_not_mem, Std.ExtTreeSet.mem_diff_iff, not_and_not_right]
  constructor
  · rintro ⟨hgone, hcame⟩
    exact Std.ExtTreeSet.ext_mem fun p => ⟨hgone p, hcame p⟩
  · intro he
    rw [← he]
    exact ⟨fun _ => id, fun _ => id⟩

end Coherent

theorem mem_maps_moveTo (s : State) (c : TopologyChange) (node : NodeId) :
    node ∈ (s.moveTo c).1.maps ↔ node ∈ c.added ∨ node ∈ c.removed := by
  rw [← Std.ExtTreeMap.isSome_getElem?_iff_mem, maps_moveTo]
  by_cases ha : node ∈ c.added <;> by_cases hr : node ∈ c.removed <;> simp [ha, hr]

/-- **A topology delta is the exact difference**: what is reported as added and removed is what has
become visible and what is no longer, and nothing is reported if that is nothing.  The value maps are
those of the nodes that came, as the store has them now, and of the nodes that went, without a map.  The
store, the maps shown for all other nodes and every map that was kept are as they were. -/
theorem topology_delta_exact (updates : List Update) {c : TopologyChange} {d : Delta} {t : State}
    (taken : (after updates).applyTopology c = .ok (d, t)) :
    let s := after updates
    d.change.getD .none = ⟨t.visible \ s.visible, ∅, s.visible \ t.visible⟩ ∧
    (d.change = none ↔ s.visible = t.visible) ∧
    (∀ node, node ∈ d.maps ↔ node ∈ c.added ∨ node ∈ c.removed) ∧
    (∀ node ∈ c.removed, d.maps[node]? = some none) ∧
    (∀ node ∈ c.added, d.maps[node]? = some (some (s.store.valueMap node)) ∧
      (s.store.isKnown node = false → s.store.valueMap node = ∅)) ∧
    t.store = s.store ∧
    (∀ node, node ∉ c.added → node ∉ c.removed →
      t.reachableValueMap? node = s.reachableValueMap? node) ∧
    ∀ node values, s.valueMap? node = some values → t.valueMap? node = some values := by
  intro s
  have h : s.Coherent := coherent_after updates
  obtain ⟨hc, hm⟩ := applyTopology_eq_ok_iff.1 taken
  obtain ⟨rfl, rfl⟩ : (s.moveTo c).1 = d ∧ (s.moveTo c).2 = t := Prod.mk.inj hm
  refine ⟨h.change_moveTo_eq hc, h.change_moveTo_eq_none_iff_visible hc, mem_maps_moveTo s c,
    fun node hr => ?_, fun node ha => ⟨?_, fun hk => ?_⟩, store_moveTo s c, fun node ha hr => ?_,
    fun node values hv => ?_⟩
  · have ha : node ∉ c.added := fun ha => hc.disjoint ha hr
    rw [maps_moveTo, if_neg ha, if_pos hr]
  · rw [maps_moveTo, if_pos ha, h.kept]
  · exact Store.valueMap_of_not_known hk
  · show (s.moveTo c).2.views.reachable[node]? = s.views.reachable[node]?
    rw [shown_moveTo, maps_moveTo, if_neg ha, if_neg hr, Option.getD_none]
  · have hv : s.views.all[node]? = some values := hv
    show (s.moveTo c).2.views.all[node]? = some values
    rw [all_moveTo, Std.ExtTreeMap.getD_eq_getD_getElem?, hv, Option.getD_some, ite_self]

/-- a node goes out of reach, and a value of it is changed -/
def drifted : List Update :=
  [.batch [.live ⟨"m"⟩ "k" "1", .live ⟨"n"⟩ "k" "1"], .topology (.between ∅ {⟨"m"⟩, ⟨"n"⟩}),
    .topology (.between {⟨"m"⟩, ⟨"n"⟩} {⟨"m"⟩}), .batch [.live ⟨"n"⟩ "k" "2", .tombstone ⟨"n"⟩ "j"]]

/-- it comes again, with a node that nothing is known of, and the other one goes -/
def returning : TopologyChange := .between {⟨"m"⟩} {⟨"n"⟩, ⟨"o"⟩}

theorem topology_delta_exact_returning :
    let r := (after drifted).moveTo returning
    (after drifted).applyTopology returning = .ok (r.1, r.2) ∧
      r.1.change.getD .none = ⟨{.live ⟨"n"⟩ "k" "2"}, ∅, {.live ⟨"m"⟩ "k" "1"}⟩ ∧
      r.1.maps[(⟨"m"⟩ : NodeId)]? = some none ∧ r.1.maps[(⟨"o"⟩ : NodeId)]? = some (some ∅) := by
  intro r
  have taken : (after drifted).applyTopology returning = .ok (r.1, r.2) :=
    applyTopology_ok (by decide +kernel)
  obtain ⟨hchange, -, -, hremoved, hadded, -, -, -⟩ := topology_delta_exact drifted taken
  obtain ⟨hmap, hempty⟩ := hadded ⟨"o"⟩ (by decide +kernel)
  rw [hempty (by decide +kernel)] at hmap
  exact ⟨taken, hchange.trans (by decide +kernel), hremoved ⟨"m"⟩ (by decide +kernel), hmap⟩

end State

end OverlayWatch
