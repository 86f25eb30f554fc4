import OverlayWatch.Proofs.State.Reports

/-!
# An observer's copy of the properties

An observer that listens to property changes only keeps a copy of the visible properties, by node and
key.  It starts from the properties of its snapshot.  Of a later change it drops what went, if it is
what the copy holds, and then it keeps what came and what changed.

* `Mirror.drop`, `Mirror.keep`   one property that went, and one that came or changed;
* `Mirror.Follows`         a whole change, each of its sets walked through in some order;
* `Mirror.FollowsAll`      the changes of several updates;
* `PropertyChange.Leads`   the change tells of one key what it was before and what it is now;
* `Leads.follow`           such a change takes the copy along, in whatever order it is walked through;
* `State.leads_update`     the changes that are reported are like that, for every key of which a batch
                           has one event at most;
* `State.mirror_exact`     so the copy is exact for these keys.

A batch that has several events of one key may be reported in a way that leaves open what came last.
Only the keys of nodes that are reachable can suffer from this: the others are not reported.
-/

namespace OverlayWatch

instance : Ord (NodeId × String) := lexOrd

abbrev Mirror := Std.ExtTreeMap (NodeId × String) Property

namespace Mirror

/-- a property that is not held, or no longer, is left out -/
def drop (m : Mirror) (p : Property) : Mirror :=
  if m[(p.node, p.key)]? = some p then m.erase (p.node, p.key) else m

def keep (m : Mirror) (p : Property) : Mirror := m.insert (p.node, p.key) p

def walk (m : Mirror) (removed added updated : List Property) : Mirror :=
  (added ++ updated).foldl keep (removed.foldl drop m)

/-- nothing is said of the order in which the properties of a set come -/
def Follows (m : Mirror) (c : PropertyChange) (n : Mirror) : Prop :=
  ∃ removed added updated : List Property,
    removed.Perm c.removed.toList ∧ added.Perm c.added.toList ∧ updated.Perm c.updated.toList ∧
      n = m.walk removed added updated

/-- an update without a property change leaves the copy as it is -/
inductive FollowsAll : Mirror → List Delta → Mirror → Prop
  | nil (m : Mirror) : FollowsAll m [] m
  | silent {m n : Mirror} {d : Delta} {rest : List Delta} (hd : d.change = none)
    (h : FollowsAll m rest n) : FollowsAll m (d :: rest) n
  | told {m k n : Mirror} {d : Delta} {c : PropertyChange} {rest : List Delta}
    (hd : d.change = some c) (hc : m.Follows c k) (h : FollowsAll k rest n) :
    FollowsAll m (d :: rest) n

/-- the copy of an observer that walks through every set in an order of its own -/
def takeAll (order : PropertySet → List Property) (m : Mirror) (ds : List Delta) : Mirror :=
  ds.foldl
    (fun m d => d.change.elim m fun c => m.walk (order c.removed) (order c.added) (order c.updated)) m

theorem followsAll_takeAll {order : PropertySet → List Property} (h : ∀ s, (order s).Perm s.toList)
    (m : Mirror) (ds : List Delta) : m.FollowsAll ds (m.takeAll order ds) := by
  induction ds generalizing m with
  | nil => exact .nil m
  | cons d ds ih =>
    cases hd : d.change with
    | none =>
      have hk : m.takeAll order (d :: ds) = m.takeAll order ds := by simp [takeAll, hd]
      rw [hk]
      exact .silent hd (ih m)
    | some c =>
      let k := m.walk (order c.removed) (order c.added) (order c.updated)
      have hk : m.takeAll order (d :: ds) = k.takeAll order ds := by simp [takeAll, hd, k]
      rw [hk]
      exact .told hd ⟨_, _, _, h _, h _, h _, rfl⟩ (ih k)

/-! ## one entry -/

section
variable {m : Mirror} {node : NodeId} {key : String} {l : List Property}

theorem getElem?_drop (p : Property) : (m.drop p)[(node, key)]? =
    if (p.node, p.key) = (node, key) ∧ m[(node, key)]? = some p then none else m[(node, key)]? := by
  unfold drop
  by_cases e : (p.node, p.key) = (node, key)
  · by_cases hp : m[(node, key)]? = some p
    · rw [e, if_pos hp, if_pos ⟨rfl, hp⟩, Std.ExtTreeMap.getElem?_erase_self]
    · rw [e, if_neg hp, if_neg fun h => hp h.2]
  · have hn : ¬ ((p.node, p.key) = (node, key) ∧ m[(node, key)]? = some p) := fun h => e h.1
    rw [if_neg hn]
    split
    · rw [Std.ExtTreeMap.getElem?_erase]
      simp only [Std.compare_eq_iff_eq, if_neg e]
    · rfl

theorem getElem?_keep (p : Property) : (m.keep p)[(node, key)]? =
    if (p.node, p.key) = (node, key) then some p else m[(node, key)]? := by
  rw [keep, Std.ExtTreeMap.getElem?_insert]
  simp only [Std.compare_eq_iff_eq]

/-- what is not held does not come by dropping, and what is not dropped stays -/
theorem getElem?_foldl_drop_of_not_mem (h : ∀ p ∈ l, m[(node, key)]? ≠ some p) :
    (l.foldl drop m)[(node, key)]? = m[(node, key)]? := by
  induction l generalizing m with
  | nil => rfl
  | cons p l ih =>
    have hp : (m.drop p)[(node, key)]? = m[(node, key)]? := by
      rw [getElem?_drop, if_neg fun e => h p List.mem_cons_self e.2]
    rw [List.foldl_cons, ih, hp]
    intro q hq
    rw [hp]
    exact h q (List.mem_cons_of_mem p hq)

theorem getElem?_foldl_drop_of_mem {p : Property} (hp : p ∈ l)
    (hm : m[(p.node, p.key)]? = some p) : (l.foldl drop m)[(p.node, p.key)]? = none := by
  induction l generalizing m with
  | nil => cases hp
  | cons q l ih =>
    rw [List.foldl_cons]
    by_cases e : q = p
    · subst e
      have hd : (m.drop q)[(q.node, q.key)]? = none := by
        rw [getElem?_drop, if_pos ⟨rfl, hm⟩]
      rw [getElem?_foldl_drop_of_not_mem, hd]
      intro q _
      rw [hd]
      simp
    · have hd : (m.drop q)[(p.node, p.key)]? = some p := by
        rw [getElem?_drop, if_neg, hm]
        rintro ⟨-, hq⟩
        rw [hm] at hq
        exact e (Option.some.inj hq).symm
      refine ih ?_ hd
      rcases List.mem_cons.1 hp with rfl | hp
      · exact absurd rfl e
      · exact hp

theorem getElem?_foldl_keep_of_not_mem (h : ∀ p ∈ l, (p.node, p.key) ≠ (node, key)) :
    (l.foldl keep m)[(node, key)]? = m[(node, key)]? := by
  induction l generalizing m with
  | nil => rfl
  | cons p l ih =>
    rw [List.foldl_cons, ih fun q hq => h q (List.mem_cons_of_mem p hq), getElem?_keep,
      if_neg (h p List.mem_cons_self)]

/-- when all that is kept for a key is the same, the order does not matter -/
theorem getElem?_foldl_keep_of_mem {entry : Option Property} {p : Property} (hp : p ∈ l)
    (hk : (p.node, p.key) = (node, key))
    (h : ∀ q ∈ l, (q.node, q.key) = (node, key) → entry = some q) :
    (l.foldl keep m)[(node, key)]? = entry := by
  induction l generalizing m p with
  | nil => cases hp
  | cons q l ih =>
    have hl : ∀ q ∈ l, (q.node, q.key) = (node, key) → entry = some q :=
      fun r hr => h r (List.mem_cons_of_mem q hr)
    rw [List.foldl_cons]
    by_cases hm : ∃ r ∈ l, (r.node, r.key) = (node, key)
    · obtain ⟨r, hr, hrk⟩ := hm
      exact ih hr hrk hl
    · rw [getElem?_foldl_keep_of_not_mem fun r hr e => hm ⟨r, hr, e⟩]
      rcases List.mem_cons.1 hp with rfl | hp
      · rw [getElem?_keep, if_pos hk, h p List.mem_cons_self hk]
      · exact absurd ⟨p, hp, hk⟩ hm

end

end Mirror

/-! ## what a change says of one key -/

/-- nothing is added or updated but what the key has now; and if that is nothing, or has not come by
the change, it follows from what is removed -/
structure PropertyChange.Leads (c : PropertyChange) (node : NodeId) (key : String)
    (before now : Option Property) : Prop where
  only : ∀ p, p ∈ c.added ∨ p ∈ c.updated → (p.node, p.key) = (node, key) → now = some p
  settled : (∃ p, (p ∈ c.added ∨ p ∈ c.updated) ∧ (p.node, p.key) = (node, key)) ∨
    (now = before ∧ ∀ p ∈ c.removed, before ≠ some p) ∨
    (now = .none ∧ ∃ p ∈ c.removed, before = some p)

namespace PropertyChange

variable {c : PropertyChange} {node : NodeId} {key : String} {before now : Option Property}

theorem Leads.eq_of_none (h : none.Leads node key before now) : now = before := by
  rcases h.settled with ⟨p, hp, -⟩ | ⟨he, -⟩ | ⟨-, p, hp, -⟩
  · simp [PropertyChange.none] at hp
  · exact he
  · simp [PropertyChange.none] at hp

/-- the change takes a copy along that is right for the key -/
theorem Leads.follow {m n : Mirror} (h : c.Leads node key before now)
    (own : ∀ p, before = some p → (p.node, p.key) = (node, key))
    (hm : m[(node, key)]? = before) (hc : m.Follows c n) : n[(node, key)]? = now := by
  obtain ⟨removed, added, updated, hr, ha, hu, rfl⟩ := hc
  have hkept : ∀ p, p ∈ added ++ updated ↔ p ∈ c.added ∨ p ∈ c.updated := by
    intro p
    rw [List.mem_append, ha.mem_iff, hu.mem_iff, Std.ExtTreeSet.mem_toList,
      Std.ExtTreeSet.mem_toList]
  have hgone : ∀ p, p ∈ removed ↔ p ∈ c.removed := by
    intro p
    rw [hr.mem_iff, Std.ExtTreeSet.mem_toList]
  unfold Mirror.walk
  by_cases hk : ∃ p ∈ added ++ updated, (p.node, p.key) = (node, key)
  · obtain ⟨p, hp, hk⟩ := hk
    exact Mirror.getElem?_foldl_keep_of_mem hp hk fun q hq => h.only q ((hkept q).1 hq)
  · rw [Mirror.getElem?_foldl_keep_of_not_mem fun p hp e => hk ⟨p, hp, e⟩]
    rcases h.settled with ⟨p, hp, hpk⟩ | ⟨he, hn⟩ | ⟨he, p, hp, hb⟩
    · exact absurd ⟨p, (hkept p).2 hp, hpk⟩ hk
    · rw [Mirror.getElem?_foldl_drop_of_not_mem, hm, he]
      intro p hp
      rw [hm]
      exact hn p ((hgone p).1 hp)
    · have ho := own p hb
      rw [← ho, Mirror.getElem?_foldl_drop_of_mem ((hgone p).2 hp), he]
      rw [ho, hm, hb]

/-- the key has no event, or a single one -/
theorem Tells.leads {events : List Property} (h : c.Tells node key before events)
    (own : ∀ p, before = some p → (p.node, p.key) = (node, key))
    (hk : ∀ p ∈ events, (p.node, p.key) = (node, key)) (one : events.length ≤ 1) :
    c.Leads node key before (entryAfter before events) := by
  have hreported : ∀ p, p ∈ c.added ∨ p ∈ c.updated → (p.node, p.key) = (node, key) →
      p ∈ events ∧ p.isTombstone = false := by
    rintro p (hp | hp) hpk
    · exact ((h.added p hpk).1 hp).of_added
    · exact ((h.updated p hpk).1 hp).of_updated
  rcases events with _ | ⟨event, _ | ⟨second, rest⟩⟩
  · constructor
    · intro p hp hpk
      exact absurd (hreported p hp hpk).1 List.not_mem_nil
    · refine .inr (.inl ⟨rfl, fun p hp hb => ?_⟩)
      exact absurd ((h.removed p (own p hb)).1 hp) id
  · have hek := hk event List.mem_cons_self
    show c.Leads node key before event.live?
    cases ht : event.isTombstone with
    | false =>
      have hl : event.live? = some event := Property.live?_eq_some_iff.2 ⟨rfl, ht⟩
      rw [hl]
      constructor
      · intro p hp hpk
        rw [List.mem_singleton.1 (hreported p hp hpk).1]
      · refine .inl ⟨event, ?_, hek⟩
        cases hb : before with
        | none => exact .inl ((h.added event hek).2 (.inl ⟨rfl, ht, hb⟩))
        | some p => exact .inr ((h.updated event hek).2 (.inl ⟨rfl, ht, by simp [hb]⟩))
    | true =>
      have hl : event.live? = .none := Property.live?_eq_none_iff.2 ht
      rw [hl]
      constructor
      · intro p hp hpk
        obtain ⟨hm, hn⟩ := hreported p hp hpk
        rw [List.mem_singleton.1 hm, ht] at hn
        cases hn
      · cases hb : before with
        | none => exact .inr (.inl ⟨rfl, fun p _ => by simp⟩)
        | some p => exact .inr (.inr ⟨rfl, p, (h.removed p (own p hb)).2 (.inl ⟨ht, hb⟩), rfl⟩)
  · simp at one

end PropertyChange

/-! ## what is reported -/

namespace State

variable {s next : State} {node : NodeId} {key : String}

theorem Coherent.leads_initial (h : s.Coherent) : (PropertyChange.initial s.visible).Leads node key
    none (PropertySet.entry? s.visible node key) := by
  constructor
  · intro p hp hk
    have hp : p ∈ s.visible := by simpa [PropertyChange.initial] using hp
    exact h.entry?_eq_some_iff.2 ⟨hp, hk⟩
  · cases he : PropertySet.entry? s.visible node key with
    | none => exact .inr (.inl ⟨rfl, fun p _ => by simp⟩)
    | some p =>
      obtain ⟨hp, hk⟩ := h.entry?_eq_some_iff.1 he
      exact .inl ⟨p, .inl hp, hk⟩

theorem Coherent.leads_applyBatch (h : s.Coherent) {batch : List Property}
    (one : node ∈ s.reachable → (eventsOf batch node key).length ≤ 1) :
    (s.absorbAll batch).change.Leads node key (PropertySet.entry? s.visible node key)
      (PropertySet.entry? (s.applyBatch batch).2.visible node key) := by
  rw [h.entry?_visible, h.entry?_applyBatch]
  by_cases hr : node ∈ s.reachable
  · rw [if_pos hr, if_pos hr]
    exact (h.tells_absorbAll batch hr key).leads (fun p hg => h.get?_own hg)
      (fun p hp => eventsOf_own hp) (one hr)
  · rw [if_neg hr, if_neg hr]
    constructor
    · rintro p (hp | hp) ⟨⟩
      · exact absurd ((h.mem_added_iff batch p).1 hp).1 hr
      · exact absurd ((h.mem_updated_iff batch p).1 hp).1 hr
    · exact .inr (.inl ⟨rfl, fun p _ => by simp⟩)

/-- the properties of a node go when it does, and come when it does -/
theorem Coherent.leads_moveTo (h : s.Coherent) {c : TopologyChange} (hc : c.Fits s.reachable) :
    PropertyChange.Leads ⟨s.store.propertiesOf c.added, ∅, s.store.propertiesOf c.removed⟩ node key
      (PropertySet.entry? s.visible node key)
      (PropertySet.entry? (s.moveTo c).2.visible node key) := by
  rw [h.entry?_visible, (h.moveTo hc).entry?_visible, reachable_moveTo, store_moveTo]
  have hm := hc.mem_reachable node
  have only : ∀ p : Property, p ∈ s.store.propertiesOf c.added ∨ p ∈ (∅ : PropertySet) →
      (p.node, p.key) = (node, key) → node ∈ c.added ∧ s.store.get? node key = some p := by
    rintro p (hp | hp) ⟨⟩
    · exact h.filed.mem_propertiesOf.1 hp
    · simp at hp
  by_cases ha : node ∈ c.added
  · rw [if_neg (hc.added_new ha), if_pos (hm.2 (.inr ha))]
    constructor
    · exact fun p hp hk => (only p hp hk).2
    · cases hg : s.store.get? node key with
      | none => exact .inr (.inl ⟨rfl, fun p _ => by simp⟩)
      | some p =>
        obtain ⟨⟩ := h.get?_own hg
        exact .inl ⟨p, .inl (h.filed.mem_propertiesOf.2 ⟨ha, hg⟩), rfl⟩
  · have honly : ∀ p : Property, p ∈ s.store.propertiesOf c.added ∨ p ∈ (∅ : PropertySet) →
        (p.node, p.key) ≠ (node, key) := fun p hp hk => ha (only p hp hk).1
    by_cases hr : node ∈ c.removed
    · have hn : node ∉ c.reachable := by
        rw [hm]
        tauto
      rw [if_pos (hc.removed_reachable hr), if_neg hn]
      constructor
      · exact fun p hp hk => absurd hk (honly p hp)
      · cases hg : s.store.get? node key with
        | none => exact .inr (.inl ⟨rfl, fun p _ => by simp⟩)
        | some p =>
          obtain ⟨⟩ := h.get?_own hg
          exact .inr (.inr ⟨rfl, p, h.filed.mem_propertiesOf.2 ⟨hr, hg⟩, rfl⟩)
    · have hn : node ∈ c.reachable ↔ node ∈ s.reachable := by
        rw [hm]
        tauto
      simp only [hn]
      constructor
      · exact fun p hp hk => absurd hk (honly p hp)
      · refine .inr (.inl ⟨rfl, fun p hp hb => hr ?_⟩)
        have hk := h.entry?_eq_some_iff.1 (h.entry?_visible node key ▸ hb)
        obtain ⟨⟩ := hk.2
        exact (h.filed.mem_propertiesOf.1 hp).1

/-- an update that is taken in -/
theorem Coherent.leads_update (h : s.Coherent) {u : Update} {d : Delta}
    (hu : s.update u = .ok (d, next))
    (one : node ∈ s.reachable → (eventsOf u.events node key).length ≤ 1) :
    (d.change.getD .none).Leads node key (PropertySet.entry? s.visible node key)
      (PropertySet.entry? next.visible node key) := by
  rcases update_ok_cases hu with ⟨events, rfl, hb⟩ | ⟨c, rfl, hc, hm⟩
  · have one : node ∈ s.reachable → (eventsOf events node key).length ≤ 1 := one
    have hl := h.leads_applyBatch one
    rw [← change_applyBatch, hb] at hl
    exact hl
  · have hl : PropertyChange.Leads _ node key _ _ := h.leads_moveTo hc
    rw [← change_moveTo, hm] at hl
    exact hl

/-! ## whole runs -/

/-- no batch has several events of the key while its node is reachable -/
def Sparse (s : State) (node : NodeId) (key : String) (updates : List Update) : Prop :=
  ∀ earlier events rest, updates = earlier ++ .batch events :: rest →
    node ∈ (earlier.foldl advance s).reachable → (eventsOf events node key).length ≤ 1

theorem sparse_nil : s.Sparse node key [] := by
  intro earlier events rest he
  simp at he

theorem sparse_cons_iff {u : Update} {rest : List Update} : s.Sparse node key (u :: rest) ↔
    (node ∈ s.reachable → (eventsOf u.events node key).length ≤ 1) ∧
      (s.advance u).Sparse node key rest := by
  constructor
  · intro h
    refine ⟨fun hr => ?_, fun earlier events later he => ?_⟩
    · cases u with
      | batch events => exact h [] events rest rfl hr
      | topology c => exact Nat.zero_le 1
    · exact h (u :: earlier) events later (by rw [he, List.cons_append])
  · rintro ⟨hone, htail⟩ earlier events later he
    cases earlier with
    | nil =>
      obtain ⟨rfl, rfl⟩ := List.cons.inj he
      exact hone
    | cons v earlier =>
      obtain ⟨rfl, rfl⟩ := List.cons.inj he
      exact htail earlier events later rfl

instance decidableSparse (node : NodeId) (key : String) :
    (s : State) → (updates : List Update) → Decidable (s.Sparse node key updates)
  | _, [] => .isTrue sparse_nil
  | s, u :: rest =>
    have := decidableSparse node key (s.advance u) rest
    decidable_of_iff _ sparse_cons_iff.symm

theorem Coherent.mirror_deltas (h : s.Coherent) {later : List Update}
    (hl : s.Sparse node key later) {m n : Mirror}
    (hm : m[(node, key)]? = PropertySet.entry? s.visible node key)
    (hn : m.FollowsAll (s.deltas later) n) :
    n[(node, key)]? = PropertySet.entry? (later.foldl State.advance s).visible node key := by
  induction later generalizing s m with
  | nil =>
    cases hn
    exact hm
  | cons u rest ih =>
    rw [List.foldl_cons]
    have ha := h.advance u
    obtain ⟨hone, hs⟩ := sparse_cons_iff.1 hl
    cases hu : s.update u with
    | error fault =>
      rw [deltas_cons_error hu] at hn
      rw [advance_error hu] at ha hs ⊢
      exact ih ha hs hm hn
    | ok result =>
      obtain ⟨d, next⟩ := result
      have hd := h.leads_update hu hone
      rw [deltas_cons_ok hu] at hn
      rw [advance_ok hu] at ha hs ⊢
      cases hn with
      | silent hc hn =>
        rw [hc] at hd
        exact ih ha hs (hm.trans hd.eq_of_none.symm) hn
      | told hc hf hn =>
        rw [hc] at hd
        have hk := hd.follow (fun p hp => (h.entry?_eq_some_iff.1 hp).2) hm hf
        exact ih ha hs hk hn

/-- **The copy is exact for every key that no batch has several events of**, from whichever moment on
it was kept and in whatever order the sets were walked through: it holds the property that is visible
for the key, and none if there is none. -/
theorem mirror_exact (before later : List Update) (node : NodeId) (key : String)
    (one : (after before).Sparse node key later) (start copy : Mirror)
    (hs : Mirror.Follows ∅ (after before).snapshot.1 start)
    (hc : start.FollowsAll ((after before).deltas later) copy) (p : Property) :
    copy[(node, key)]? = some p ↔
      p ∈ (after (before ++ later)).visible ∧ (p.node, p.key) = (node, key) := by
  have h : (after before).Coherent := coherent_after before
  have hstart : start[(node, key)]? = PropertySet.entry? (after before).visible node key :=
    h.leads_initial.follow (fun p hp => by cases hp) Std.ExtTreeMap.getElem?_empty hs
  have hcopy := h.mirror_deltas one hstart hc
  rw [← after_append] at hcopy
  rw [hcopy]
  exact (coherent_after (before ++ later)).entry?_eq_some_iff

/-- one reachable node, and one that only has its properties filed -/
def beforehand : List Update :=
  [.batch [.live ⟨"m"⟩ "k" "1", .live ⟨"n"⟩ "k" "1"], .topology (.between ∅ {⟨"m"⟩})]

/-- the key is updated twice while its node cannot be reached, and once in a batch that has a restless
key as well; then its node goes and comes again -/
def restless : List Update :=
  [.batch [.live ⟨"n"⟩ "k" "2", .tombstone ⟨"n"⟩ "k", .live ⟨"n"⟩ "k" "3"],
    .topology (.between {⟨"m"⟩} {⟨"m"⟩, ⟨"n"⟩}),
    .batch [.live ⟨"n"⟩ "j" "1", .live ⟨"n"⟩ "k" "4", .tombstone ⟨"n"⟩ "j"],
    .topology (.between {⟨"m"⟩, ⟨"n"⟩} {⟨"m"⟩}),
    .topology (.between {⟨"m"⟩} {⟨"n"⟩}),
    .batch [.tombstone ⟨"n"⟩ "k"],
    .batch [.live ⟨"n"⟩ "k" "5"]]

/-- an observer that walks backwards -/
def backwards (s : PropertySet) : List Property := s.toList.reverse

theorem mirror_exact_backwards :
    let start := (∅ : Mirror).walk [] (backwards (after beforehand).visible) []
    let copy := start.takeAll backwards ((after beforehand).deltas restless)
    (after beforehand).Sparse ⟨"n"⟩ "k" restless ∧
      copy[((⟨"n"⟩ : NodeId), "k")]? = some (Property.live ⟨"n"⟩ "k" "5") := by
  intro start copy
  have one : (after beforehand).Sparse ⟨"n"⟩ "k" restless := by decide +kernel
  have order : ∀ s : PropertySet, (backwards s).Perm s.toList := fun s => List.reverse_perm _
  have hs : Mirror.Follows ∅ (after beforehand).snapshot.1 start :=
    ⟨[], _, [], List.Perm.refl _, order _, List.Perm.refl _, rfl⟩
  have hc : start.FollowsAll ((after beforehand).deltas restless) copy :=
    Mirror.followsAll_takeAll order start _
  refine ⟨one, (mirror_exact beforehand restless _ _ one start copy hs hc _).2 ⟨?_, rfl⟩⟩
  decide +kernel

end State

end OverlayWatch
