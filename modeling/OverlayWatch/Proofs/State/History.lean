import OverlayWatch.Proofs.State.Coherence

/-!
# The state as a function of its history

However the events were put into batches and whatever topology changes came between them, all that
can be asked of the state follows from two things: the last event of every node and key, and the
reachable set of the last topology change that was taken in.

* `history`                the events of all batches, one after the other;
* `lastEvent`, `lastLive`  the last event for a node and a key, and the same if it is live;
* `State.accepted`         the topology changes that were taken in;
* `State.update_ok_cases`  what an update that is taken in does: one of two things;
* `State.deltas`           what observers are to be told, update by update;
* `State.after_eq_history` what the state answers, from these alone.
-/

namespace OverlayWatch

def Update.events : Update → List Property
  | .batch events => events
  | .topology _ => []

def history (updates : List Update) : List Property := updates.flatMap Update.events

theorem history_cons (u : Update) (rest : List Update) :
    history (u :: rest) = u.events ++ history rest := rfl

/-! ## last events -/

def lastEvent (events : List Property) (node : NodeId) (key : String) : Option Property :=
  (events.filter fun p => p.node = node ∧ p.key = key).getLast?

def lastLive (events : List Property) (node : NodeId) (key : String) : Option Property :=
  (lastEvent events node key).bind Property.live?

theorem lastEvent_nil (node : NodeId) (key : String) : lastEvent [] node key = none := rfl

theorem lastEvent_cons (p : Property) (events : List Property) (node : NodeId) (key : String) :
    lastEvent (p :: events) node key =
      if p.node = node ∧ p.key = key then some ((lastEvent events node key).getD p)
      else lastEvent events node key := by
  unfold lastEvent
  by_cases h : p.node = node ∧ p.key = key
  · rw [if_pos h, List.filter_cons_of_pos (by simpa using h), List.getLast?_cons]
  · rw [if_neg h, List.filter_cons_of_neg (by simpa using h)]

theorem Store.get?_applyAll (s : Store) (events : List Property) (node : NodeId) (key : String) :
    (s.applyAll events).get? node key
      = (lastEvent events node key).elim (s.get? node key) Property.live? := by
  induction events generalizing s with
  | nil => rfl
  | cons p events ih =>
    rw [applyAll_cons, ih, lastEvent_cons, get?_apply]
    by_cases h : p.node = node ∧ p.key = key
    · rw [if_pos h, if_pos h]
      cases lastEvent events node key <;> rfl
    · rw [if_neg h, if_neg h]

theorem Store.isKnown_applyAll (s : Store) (events : List Property) (node : NodeId) :
    (s.applyAll events).isKnown node = true ↔
      (∃ p ∈ events, p.node = node) ∨ s.isKnown node = true := by
  induction events generalizing s with
  | nil => simp [applyAll_nil]
  | cons p events ih =>
    rw [applyAll_cons, ih, isKnown_apply, List.exists_mem_cons_iff, or_left_comm, or_assoc]

/-! ## accepted updates -/

namespace State

/-- what observers are to be told of the updates that are not refused, in their order -/
def deltas (s : State) : List Update → List Delta
  | [] => []
  | u :: rest =>
    match s.update u with
    | .ok (d, next) => d :: next.deltas rest
    | .error _ => s.deltas rest

/-- the topology changes among the updates that are not refused -/
def accepted (s : State) : List Update → List TopologyChange
  | [] => []
  | .batch events :: rest => (s.advance (.batch events)).accepted rest
  | .topology c :: rest =>
    match s.applyTopology c with
    | .ok (_, next) => c :: next.accepted rest
    | .error _ => s.accepted rest

/-- the reachable set of the last change that was taken in -/
def lastReachable (updates : List Update) : NodeSet :=
  ((empty.accepted updates).getLast?.map TopologyChange.reachable).getD ∅

theorem deltas_cons_ok {s next : State} {u : Update} {d : Delta} (h : s.update u = .ok (d, next))
    (rest : List Update) : s.deltas (u :: rest) = d :: next.deltas rest := by
  simp [deltas, h]

theorem deltas_cons_error {s : State} {u : Update} {fault : TopologyFault}
    (h : s.update u = .error fault) (rest : List Update) : s.deltas (u :: rest) = s.deltas rest := by
  simp [deltas, h]

theorem advance_ok {s next : State} {u : Update} {d : Delta} (h : s.update u = .ok (d, next)) :
    s.advance u = next := by
  simp [advance, h]

theorem advance_error {s : State} {u : Update} {fault : TopologyFault}
    (h : s.update u = .error fault) : s.advance u = s := by
  simp [advance, h]

theorem deltas_append (s : State) (l k : List Update) :
    s.deltas (l ++ k) = s.deltas l ++ (l.foldl advance s).deltas k := by
  induction l generalizing s with
  | nil => rfl
  | cons u l ih =>
    rw [List.cons_append, List.foldl_cons]
    cases h : s.update u with
    | error fault => rw [deltas_cons_error h, deltas_cons_error h, advance_error h, ih]
    | ok result =>
      obtain ⟨d, next⟩ := result
      rw [deltas_cons_ok h, deltas_cons_ok h, advance_ok h, ih, List.cons_append]

theorem advance_topology_ok {s : State} {c : TopologyChange} (h : c.check s.reachable = .ok ()) :
    s.advance (.topology c) = (s.moveTo c).2 := by
  simp [advance, update, applyTopology_ok h]

theorem advance_topology_error {s : State} {c : TopologyChange} {fault : TopologyFault}
    (h : c.check s.reachable = .error fault) : s.advance (.topology c) = s := by
  simp [advance, update, applyTopology_error h]

theorem applyTopology_eq_ok_iff {s next : State} {c : TopologyChange} {d : Delta} :
    s.applyTopology c = .ok (d, next) ↔ c.Fits s.reachable ∧ s.moveTo c = (d, next) := by
  rw [← TopologyChange.check_eq_ok_iff]
  cases hc : c.check s.reachable with
  | error fault => simp [applyTopology_error hc]
  | ok => simp [applyTopology_ok hc]

/-- all that an update can do that is not refused -/
theorem update_ok_cases {s next : State} {u : Update} {d : Delta} (h : s.update u = .ok (d, next)) :
    (∃ events, u = .batch events ∧ s.applyBatch events = (d, next)) ∨
    ∃ c, u = .topology c ∧ c.Fits s.reachable ∧ s.moveTo c = (d, next) := by
  cases u with
  | batch events => exact .inl ⟨events, rfl, Except.ok.inj h⟩
  | topology c => exact .inr ⟨c, rfl, applyTopology_eq_ok_iff.1 h⟩

theorem reachable_foldl_advance (s : State) (updates : List Update) :
    (updates.foldl advance s).reachable
      = ((s.accepted updates).getLast?.map TopologyChange.reachable).getD s.reachable := by
  induction updates generalizing s with
  | nil => rfl
  | cons u rest ih =>
    rw [List.foldl_cons, ih]
    cases u with
    | batch events => rfl
    | topology c =>
      cases h : c.check s.reachable with
      | error fault => simp [accepted, applyTopology_error h, advance_topology_error h]
      | ok =>
        simp only [accepted, applyTopology_ok h, advance_topology_ok h, List.getLast?_cons,
          reachable_moveTo]
        cases ((s.moveTo c).2.accepted rest).getLast? <;> rfl

theorem store_advance (s : State) (u : Update) :
    (s.advance u).store = s.store.applyAll u.events := by
  cases u with
  | batch events => exact store_foldl_absorb s.reachable (.start s) events
  | topology c =>
    cases h : c.check s.reachable with
    | error fault => rw [advance_topology_error h]; rfl
    | ok => rw [advance_topology_ok h]; rfl

theorem store_foldl_advance (s : State) (updates : List Update) :
    (updates.foldl advance s).store = s.store.applyAll (history updates) := by
  induction updates generalizing s with
  | nil => rfl
  | cons u rest ih => rw [List.foldl_cons, ih, store_advance, history_cons, Store.applyAll_append]

theorem get?_store_after (updates : List Update) (node : NodeId) (key : String) :
    (after updates).store.get? node key = lastLive (history updates) node key := by
  rw [after, store_foldl_advance, Store.get?_applyAll, show empty.store = Store.empty from rfl,
    Store.get?_empty]
  unfold lastLive
  cases lastEvent (history updates) node key <;> rfl

theorem isKnown_store_after (updates : List Update) (node : NodeId) :
    (after updates).store.isKnown node = true ↔ ∃ p ∈ history updates, p.node = node := by
  rw [after, store_foldl_advance, Store.isKnown_applyAll]
  simp [show empty.store = Store.empty from rfl, Store.isKnown_empty]

theorem reachable_after (updates : List Update) : (after updates).reachable = lastReachable updates :=
  reachable_foldl_advance empty updates

/-- **The last writer wins, whatever came between**: every answer follows from the last event of each
node and key and from the reachable set of the last accepted topology change; two runs that agree on
these agree on all answers. -/
theorem after_eq_history (updates : List Update) :
    let s := after updates
    let events := history updates
    let nodes := lastReachable updates
    (∀ node key, s.store.get? node key = lastLive events node key) ∧
    (∀ node, s.store.isKnown node = true ↔ ∃ p ∈ events, p.node = node) ∧
    s.store.count = Set.ncard {x : NodeId × String | (lastLive events x.1 x.2).isSome} ∧
    s.reachable = nodes ∧
    (∀ p, p ∈ s.visible ↔ p.node ∈ nodes ∧ lastLive events p.node p.key = some p) ∧
    (∀ node, node ∉ nodes → s.reachableValueMap? node = none) ∧
    (∀ node, node ∈ nodes → ∃ values, s.reachableValueMap? node = some values ∧
      ∀ key, values[key]? = (lastLive events node key).bind Property.value) ∧
    ∀ others, (∀ node key, lastEvent (history others) node key = lastEvent events node key) →
      lastReachable others = nodes →
      let t := after others
      (∀ node key, t.store.get? node key = s.store.get? node key) ∧
      t.store.count = s.store.count ∧
      t.reachable = s.reachable ∧
      t.visible = s.visible ∧
      (∀ node, t.reachableValueMap? node = s.reachableValueMap? node) ∧
      ((∀ node, (∃ p ∈ history others, p.node = node) ↔ ∃ p ∈ events, p.node = node) →
        ∀ node, t.store.isKnown node = s.store.isKnown node) := by
  intro s events nodes
  have h : s.Coherent := coherent_after updates
  have hg : ∀ node key, s.store.get? node key = lastLive events node key := get?_store_after updates
  have hr : s.reachable = nodes := reachable_after updates
  have hs : ∀ node, s.reachableValueMap? node =
      if node ∈ nodes then some (s.store.valueMap node) else none := hr ▸ h.shown
  refine ⟨hg, isKnown_store_after updates, ?_, hr, fun p => ?_, fun node hn => ?_,
    fun node hn => ⟨s.store.valueMap node, ?_, fun key => ?_⟩, fun others hl hn => ?_⟩
  · simp only [Store.count_eq_ncard, hg]
  · rw [h.visible, hg, hr]
  · rw [hs, if_neg hn]
  · rw [hs, if_pos hn]
  · rw [h.filed.getElem?_valueMap, hg]
  · intro t
    have k : t.Coherent := coherent_after others
    have hgt : ∀ node key, t.store.get? node key = s.store.get? node key := by
      intro node key
      rw [get?_store_after, get?_store_after, lastLive, lastLive, hl]
    have hrt : t.reachable = s.reachable := by rw [hr, ← hn]; exact reachable_after others
    refine ⟨hgt, ?_, hrt, ?_, fun node => ?_, fun hk node => ?_⟩
    · simp only [Store.count_eq_ncard, hgt]
    · apply Std.ExtTreeSet.ext_mem
      intro p
      rw [k.visible, h.visible, hgt, hrt]
    · have hm : t.store.valueMap node = s.store.valueMap node := by
        apply Std.ExtTreeMap.ext_getElem?
        intro key
        rw [k.filed.getElem?_valueMap, h.filed.getElem?_valueMap, hgt]
      rw [reachableValueMap?, reachableValueMap?, k.shown, h.shown, hm, hrt]
    · rw [Bool.eq_iff_iff, isKnown_store_after, isKnown_store_after]
      exact hk node

/-- a value is changed after its node has become reachable -/
def stepwise : List Update :=
  [.batch [.live ⟨"n"⟩ "k" "1", .live ⟨"n"⟩ "j" "0"], .topology (.between ∅ {⟨"n"⟩}),
    .batch [.live ⟨"n"⟩ "k" "2"]]

/-- the same last events, batched otherwise, and all of them before -/
def atOnce : List Update :=
  [.batch [.live ⟨"n"⟩ "k" "2"], .batch [.live ⟨"n"⟩ "j" "0"], .topology (.between ∅ {⟨"n"⟩})]

theorem after_eq_history_rebatched :
    (after atOnce).visible = (after stepwise).visible ∧
    (∀ node, (after atOnce).reachableValueMap? node = (after stepwise).reachableValueMap? node) ∧
    ∀ node, (after atOnce).store.isKnown node = (after stepwise).store.isKnown node := by
  obtain ⟨-, -, -, -, -, -, -, h⟩ := after_eq_history stepwise
  have hl : ∀ node key,
      lastEvent (history atOnce) node key = lastEvent (history stepwise) node key := by
    intro node key
    show lastEvent [.live ⟨"n"⟩ "k" "2", .live ⟨"n"⟩ "j" "0"] node key
      = lastEvent [.live ⟨"n"⟩ "k" "1", .live ⟨"n"⟩ "j" "0", .live ⟨"n"⟩ "k" "2"] node key
    simp only [lastEvent_cons, lastEvent_nil, Property.live]
    by_cases hn : (⟨"n"⟩ : NodeId) = node
    · by_cases hk : "k" = key
      · subst hk
        simp [hn]
      · simp [hk]
    · simp [hn]
  obtain ⟨-, -, -, hv, hm, hk⟩ := h atOnce hl (by decide +kernel)
  refine ⟨hv, hm, hk fun node => ?_⟩
  simp [history, atOnce, stepwise, Update.events, Property.live]

end State

end OverlayWatch
