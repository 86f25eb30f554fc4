import OverlayWatch.Proofs.Delivery.Tasks

/-!
# A delivery at work

A delivery together with what goes on around it: a callback that not everyone has in the queue yet,
and drain tasks in the middle of a turn.  A move is what happens under one lock, or with none.  Whoever
makes the moves, and in whatever order they come: tasks are taken up at any moment, several at a time,
and go on while callbacks are being queued.

* `Turn`                where in its turn a drain task is;
* `Traffic.step`        one move, when it is possible;
* `Traffic.received`    the calls made to one registration, in their order;
* `Traffic.of_take` and the like   all that a move can do;
* `Traffic.effect`      what it does to the delivery;
* `Traffic.Share`       all there is of one registration;
* `share_step_of_concerns`   a move made for one registration has no part in the share of another;
* `Traffic.Sound`       the delivery is sound, and only tasks that are out are in a turn;
* `Sound.step`          every move keeps this.

The registry is locked while a callback is being queued: nobody comes in, is removed or is cancelled
then.  A queue is locked while its drain task looks whether it is to go on and takes a callback out:
nothing is queued there then, but the registration may be removed in between.  Nothing is locked while
a callback is run, nor between its failure and the cancelling of its registration.
-/

namespace OverlayWatch

/-- where a drain task is that is in the middle of a turn -/
inductive Turn (γ : Type) where
  /-- it has its queue locked, its registration was not cancelled, and it is about to take a callback
  out -/
  | looking
  /-- it runs a callback: whether a call has been made, and the calls left -/
  | inHand (begun : Bool) (left : List γ)
  /-- the callback has failed, and the registration is still to be cancelled for it -/
  | failed
deriving DecidableEq, Repr

namespace Turn

variable {γ : Type}

def isLooking : Turn γ → Bool
  | .looking => true
  | _ => false

def begun : Turn γ → Bool
  | .inHand begun _ => begun
  | _ => false

def left : Turn γ → List γ
  | .inHand _ left => left
  | _ => []

end Turn

structure Traffic (κ γ : Type) where
  delivery : Delivery κ
  /-- who is still to be queued the callback that was handed in last -/
  posting : Std.ExtTreeMap Registration κ
  underway : Std.ExtTreeMap Registration (Turn γ)
  /-- the calls made, in their order -/
  made : List (Registration × γ)

namespace Traffic

inductive Move (κ : Type) where
  | register (initial : Option κ)
  | remove (r : Registration)
  | enqueue (c : κ)
  | post (r : Registration)
  /-- the drain task locks its queue and looks whether its registration is cancelled -/
  | look (r : Registration)
  /-- it takes the next callback out and lets go of the queue -/
  | take (r : Registration)
  /-- the next call of the callback in hand -/
  | call (r : Registration)
  /-- the callback in hand has ended -/
  | finish (r : Registration)
  /-- the last call made has failed, and the callback ends with it -/
  | fail (r : Registration) (failure : Failure)
  /-- the registration is cancelled for that -/
  | cancel (r : Registration)
  /-- the owner of the delivery logs something -/
  | note (events : List Event)

/-- the move goes on with what has been begun: nothing is handed in by it, nobody comes or is removed -/
def Move.isInner {κ : Type} : Move κ → Bool
  | .post _ => true
  | .look _ => true
  | .take _ => true
  | .call _ => true
  | .finish _ => true
  | .fail _ _ => true
  | .cancel _ => true
  | _ => false

variable {κ γ : Type}

def start (policy : FailurePolicy) : Traffic κ γ := ⟨.empty policy, ∅, ∅, []⟩

def addressed (c : κ) (rs : List Registration) : Std.ExtTreeMap Registration κ :=
  rs.foldl (fun m r => m.insert r c) ∅

/-- the drain task has its queue locked -/
def isLooking (t : Traffic κ γ) (r : Registration) : Bool := t.underway[r]?.any Turn.isLooking

/-- `calls` are the calls that a callback consists of -/
def step (calls : κ → List γ) (t : Traffic κ γ) : Move κ → Option (Traffic κ γ)
  | .register initial =>
    if t.posting.isEmpty then some { t with delivery := (t.delivery.register initial).2 } else none
  | .remove r =>
    if t.posting.isEmpty then some { t with delivery := (t.delivery.remove r).2 } else none
  | .enqueue c =>
    if t.posting.isEmpty then some { t with posting := addressed c t.delivery.registered } else none
  | .post r =>
    match t.posting[r]?, t.isLooking r with
    | some c, false =>
      some { t with delivery := t.delivery.push c r, posting := t.posting.erase r }
    | _, _ => none
  | .look r =>
    if r ∈ t.delivery.executor.tasks ∧ t.underway[r]? = none then
      let (goesOn, delivery) := t.delivery.look r
      some { t with
        delivery
        underway := if goesOn then t.underway.insert r .looking else t.underway }
    else none
  | .take r =>
    match t.underway[r]? with
    | some .looking =>
      let (taken, delivery) := t.delivery.pop r
      some { t with
        delivery
        underway := taken.elim (t.underway.erase r) fun c =>
          t.underway.insert r (.inHand false (calls c)) }
    | _ => none
  | .call r =>
    match t.underway[r]? with
    | some (.inHand _ (call :: rest)) =>
      some { t with
        underway := t.underway.insert r (.inHand true rest)
        made := t.made ++ [(r, call)] }
    | _ => none
  | .finish r =>
    match t.underway[r]? with
    | some (.inHand _ []) => some { t with underway := t.underway.erase r }
    | _ => none
  | .fail r failure =>
    match t.underway[r]? with
    | some (.inHand true _) =>
      some { t with
        delivery := t.delivery.fail r failure
        underway :=
          if t.delivery.policy = .cancel then t.underway.insert r .failed else t.underway.erase r }
    | _ => none
  | .cancel r =>
    match t.underway[r]?, t.posting.isEmpty with
    | some .failed, true =>
      some { t with delivery := t.delivery.cancel r, underway := t.underway.erase r }
    | _, _ => none
  | .note events => some { t with delivery := t.delivery.noteAll events }

def received (t : Traffic κ γ) (r : Registration) : List γ :=
  (t.made.filter fun e => e.1 = r).map Prod.snd

/-- the calls of the callback that the task has in hand which are still to be made -/
def inHand (t : Traffic κ γ) (r : Registration) : List γ := (t.underway[r]?.map Turn.left).getD []

theorem getElem?_addressed (c : κ) (rs : List Registration) (r : Registration) :
    (addressed c rs)[r]? = if r ∈ rs then some c else none := by
  have h : ∀ m : Std.ExtTreeMap Registration κ,
      (rs.foldl (fun m r => m.insert r c) m)[r]? = if r ∈ rs then some c else m[r]? := by
    induction rs with
    | nil => intro m; rfl
    | cons q rs ih =>
      intro m
      rw [List.foldl_cons, ih, Std.ExtTreeMap.getElem?_insert]
      by_cases hm : r ∈ rs
      · simp [hm]
      · by_cases hq : q = r
        · simp [hq]
        · simp [hm, hq, Ne.symm hq]
  rw [addressed, h]
  simp

theorem received_append (t : Traffic κ γ) (q r : Registration) (call : γ) :
    Traffic.received { t with made := t.made ++ [(q, call)] } r
      = t.received r ++ if q = r then [call] else [] := by
  unfold received
  rw [List.filter_append, List.map_append]
  by_cases h : q = r
  · simp [h]
  · simp [h]

/-! ## what a move does -/

section

variable {calls : κ → List γ} {t u : Traffic κ γ} {r : Registration}

theorem of_register {initial : Option κ} (h : t.step calls (.register initial) = some u) :
    t.posting.isEmpty = true ∧ u = { t with delivery := (t.delivery.register initial).2 } := by
  obtain ⟨hp, hu⟩ := Option.ite_none_right_eq_some.1 h
  exact ⟨hp, (Option.some.inj hu).symm⟩

theorem of_remove (h : t.step calls (.remove r) = some u) :
    t.posting.isEmpty = true ∧ u = { t with delivery := (t.delivery.remove r).2 } := by
  obtain ⟨hp, hu⟩ := Option.ite_none_right_eq_some.1 h
  exact ⟨hp, (Option.some.inj hu).symm⟩

theorem of_enqueue {c : κ} (h : t.step calls (.enqueue c) = some u) :
    t.posting.isEmpty = true ∧ u = { t with posting := addressed c t.delivery.registered } := by
  obtain ⟨hp, hu⟩ := Option.ite_none_right_eq_some.1 h
  exact ⟨hp, (Option.some.inj hu).symm⟩

theorem of_post (h : t.step calls (.post r) = some u) :
    ∃ c, t.posting[r]? = some c ∧ t.isLooking r = false ∧
      u = { t with delivery := t.delivery.push c r, posting := t.posting.erase r } := by
  rw [step] at h
  split at h
  · rename_i c hc hl
    exact ⟨c, hc, hl, (Option.some.inj h).symm⟩
  · cases h

theorem of_look (h : t.step calls (.look r) = some u) :
    r ∈ t.delivery.executor.tasks ∧ t.underway[r]? = none ∧
      u = { t with
        delivery := (t.delivery.look r).2
        underway :=
          if t.delivery.isRegistered r then t.underway.insert r .looking else t.underway } := by
  obtain ⟨hr, hu⟩ := Option.ite_none_right_eq_some.1 h
  rw [← Delivery.look_answer]
  exact ⟨hr.1, hr.2, (Option.some.inj hu).symm⟩

theorem of_take (h : t.step calls (.take r) = some u) :
    t.underway[r]? = some .looking ∧
      u = { t with
        delivery := (t.delivery.pop r).2
        underway := (t.delivery.pop r).1.elim (t.underway.erase r) fun c =>
          t.underway.insert r (.inHand false (calls c)) } := by
  rw [step] at h
  split at h
  · exact ⟨‹_›, (Option.some.inj h).symm⟩
  · cases h

theorem of_call (h : t.step calls (.call r) = some u) :
    ∃ begun call rest, t.underway[r]? = some (.inHand begun (call :: rest)) ∧
      u = { t with
        underway := t.underway.insert r (.inHand true rest)
        made := t.made ++ [(r, call)] } := by
  rw [step] at h
  split at h
  · rename_i begun call rest hu
    exact ⟨begun, call, rest, hu, (Option.some.inj h).symm⟩
  · cases h

theorem of_finish (h : t.step calls (.finish r) = some u) :
    ∃ begun, t.underway[r]? = some (.inHand begun []) ∧
      u = { t with underway := t.underway.erase r } := by
  rw [step] at h
  split at h
  · rename_i begun hu
    exact ⟨begun, hu, (Option.some.inj h).symm⟩
  · cases h

theorem of_fail {failure : Failure} (h : t.step calls (.fail r failure) = some u) :
    ∃ left, t.underway[r]? = some (.inHand true left) ∧
      u = { t with
        delivery := t.delivery.fail r failure
        underway :=
          if t.delivery.policy = .cancel then t.underway.insert r .failed
          else t.underway.erase r } := by
  rw [step] at h
  split at h
  · rename_i left hu
    exact ⟨left, hu, (Option.some.inj h).symm⟩
  · cases h

theorem of_cancel (h : t.step calls (.cancel r) = some u) :
    t.posting.isEmpty = true ∧ t.underway[r]? = some .failed ∧
      u = { t with delivery := t.delivery.cancel r, underway := t.underway.erase r } := by
  rw [step] at h
  split at h
  · rename_i hu hp
    exact ⟨hp, hu, (Option.some.inj h).symm⟩
  · cases h

theorem of_note {events : List Event} (h : t.step calls (.note events) = some u) :
    u = { t with delivery := t.delivery.noteAll events } :=
  (Option.some.inj h).symm

theorem step_look (hr : r ∈ t.delivery.executor.tasks) (hn : t.underway[r]? = none) :
    t.step calls (.look r) = some { t with
      delivery := (t.delivery.look r).2
      underway :=
        if t.delivery.isRegistered r then t.underway.insert r .looking else t.underway } := by
  rw [step, if_pos ⟨hr, hn⟩, ← Delivery.look_answer]

theorem step_take (h : t.underway[r]? = some .looking) :
    t.step calls (.take r) = some { t with
      delivery := (t.delivery.pop r).2
      underway := (t.delivery.pop r).1.elim (t.underway.erase r) fun c =>
        t.underway.insert r (.inHand false (calls c)) } := by
  rw [step, h]

end

/-- what is done to the delivery, if the move is possible -/
def effect (t : Traffic κ γ) : Move κ → Delivery κ
  | .register initial => (t.delivery.register initial).2
  | .remove r => (t.delivery.remove r).2
  | .enqueue _ => t.delivery
  | .post r => t.posting[r]?.elim t.delivery fun c => t.delivery.push c r
  | .look r => (t.delivery.look r).2
  | .take r => (t.delivery.pop r).2
  | .call _ => t.delivery
  | .finish _ => t.delivery
  | .fail r failure => t.delivery.fail r failure
  | .cancel r => t.delivery.cancel r
  | .note events => t.delivery.noteAll events

theorem effect_post {t : Traffic κ γ} {r : Registration} {c : κ} (hc : t.posting[r]? = some c) :
    t.effect (.post r) = t.delivery.push c r := by
  rw [effect, hc]
  rfl

theorem delivery_step {calls : κ → List γ} {t u : Traffic κ γ} {m : Move κ}
    (hu : t.step calls m = some u) : u.delivery = t.effect m := by
  cases m with
  | register initial =>
    obtain ⟨-, rfl⟩ := of_register hu
    rfl
  | remove r =>
    obtain ⟨-, rfl⟩ := of_remove hu
    rfl
  | enqueue c =>
    obtain ⟨-, rfl⟩ := of_enqueue hu
    rfl
  | post r =>
    obtain ⟨c, hc, -, rfl⟩ := of_post hu
    exact (effect_post hc).symm
  | look r =>
    obtain ⟨-, -, rfl⟩ := of_look hu
    rfl
  | take r =>
    obtain ⟨-, rfl⟩ := of_take hu
    rfl
  | call r =>
    obtain ⟨begun, call, rest, -, rfl⟩ := of_call hu
    rfl
  | finish r =>
    obtain ⟨begun, -, rfl⟩ := of_finish hu
    rfl
  | fail r failure =>
    obtain ⟨left, -, rfl⟩ := of_fail hu
    rfl
  | cancel r =>
    obtain ⟨-, -, rfl⟩ := of_cancel hu
    rfl
  | note events =>
    obtain rfl := of_note hu
    rfl

/-! ## one registration -/

structure Share (κ γ : Type) where
  slot : Option (Slot κ)
  /-- what is still to be queued -/
  posted : Option κ
  turn : Option (Turn γ)
  received : List γ

def share (t : Traffic κ γ) (r : Registration) : Share κ γ :=
  ⟨t.delivery.slots[r]?, t.posting[r]?, t.underway[r]?, t.received r⟩

/-- the move is made for one registration, and this is it -/
def Move.concerns (r : Registration) : Move κ → Bool
  | .remove q => q = r
  | .post q => q = r
  | .look q => q = r
  | .take q => q = r
  | .call q => q = r
  | .finish q => q = r
  | .fail q _ => q = r
  | .cancel q => q = r
  | _ => false

section
variable {calls : κ → List γ} {t u : Traffic κ γ} {r q : Registration} {m : Move κ}

theorem share_eq_iff : t.share q = u.share q ↔ t.delivery.slots[q]? = u.delivery.slots[q]? ∧
    t.posting[q]? = u.posting[q]? ∧ t.underway[q]? = u.underway[q]? ∧
    t.received q = u.received q := by
  simp only [share, Share.mk.injEq]

theorem getElem?_underway_insert (w : Std.ExtTreeMap Registration (Turn γ)) (turn : Turn γ)
    (hq : r ≠ q) : (w.insert r turn)[q]? = w[q]? := by
  simp [Std.ExtTreeMap.getElem?_insert, hq]

theorem getElem?_underway_erase (w : Std.ExtTreeMap Registration (Turn γ)) (hq : r ≠ q) :
    (w.erase r)[q]? = w[q]? := by
  simp [Std.ExtTreeMap.getElem?_erase, hq]

theorem share_step_of_concerns (hm : m.concerns r = true) (hq : r ≠ q)
    (hu : t.step calls m = some u) : u.share q = t.share q := by
  cases m with
  | remove p =>
    obtain rfl : p = r := of_decide_eq_true hm
    obtain ⟨-, rfl⟩ := of_remove hu
    exact share_eq_iff.2 ⟨Delivery.slots_remove_of_ne _ hq, rfl, rfl, rfl⟩
  | post p =>
    obtain rfl : p = r := of_decide_eq_true hm
    obtain ⟨c, -, -, rfl⟩ := of_post hu
    refine share_eq_iff.2 ⟨?_, ?_, rfl, rfl⟩
    · show (t.delivery.push c p).slots[q]? = _
      rw [Delivery.slots_push, if_neg hq]
    · show (t.posting.erase p)[q]? = _
      simp [Std.ExtTreeMap.getElem?_erase, hq]
  | look p =>
    obtain rfl : p = r := of_decide_eq_true hm
    obtain ⟨-, -, rfl⟩ := of_look hu
    refine share_eq_iff.2 ⟨(t.delivery.works_look p).others q hq, rfl, ?_, rfl⟩
    show (if t.delivery.isRegistered p then t.underway.insert p .looking else t.underway)[q]? = _
    split
    · exact getElem?_underway_insert _ _ hq
    · rfl
  | take p =>
    obtain rfl : p = r := of_decide_eq_true hm
    obtain ⟨-, rfl⟩ := of_take hu
    refine share_eq_iff.2 ⟨(t.delivery.works_pop p).others q hq, rfl, ?_, rfl⟩
    cases (t.delivery.pop p).1 with
    | none => exact getElem?_underway_erase _ hq
    | some c => exact getElem?_underway_insert _ _ hq
  | call p =>
    obtain rfl : p = r := of_decide_eq_true hm
    obtain ⟨begun, call, rest, -, rfl⟩ := of_call hu
    refine share_eq_iff.2 ⟨rfl, rfl, getElem?_underway_insert _ _ hq, ?_⟩
    exact (received_append t p q call).trans (by rw [if_neg hq, List.append_nil])
  | finish p =>
    obtain rfl : p = r := of_decide_eq_true hm
    obtain ⟨begun, -, rfl⟩ := of_finish hu
    exact share_eq_iff.2 ⟨rfl, rfl, getElem?_underway_erase _ hq, rfl⟩
  | fail p failure =>
    obtain rfl : p = r := of_decide_eq_true hm
    obtain ⟨left, -, rfl⟩ := of_fail hu
    refine share_eq_iff.2 ⟨rfl, rfl, ?_, rfl⟩
    show (if t.delivery.policy = .cancel then t.underway.insert p .failed
      else t.underway.erase p)[q]? = _
    split
    · exact getElem?_underway_insert _ _ hq
    · exact getElem?_underway_erase _ hq
  | cancel p =>
    obtain rfl : p = r := of_decide_eq_true hm
    obtain ⟨-, -, rfl⟩ := of_cancel hu
    refine share_eq_iff.2 ⟨?_, rfl, getElem?_underway_erase _ hq, rfl⟩
    show (t.delivery.cancel p).slots[q]? = _
    rw [Delivery.slots_cancel, if_neg hq]
  | register initial => cases hm
  | enqueue c => cases hm
  | note events => cases hm

end

/-! ## what holds at every moment -/

/-- whatever the executor accepts or refuses -/
structure Sound (t : Traffic κ γ) : Prop where
  delivery : t.delivery.Sound
  underway : ∀ (r : Registration) (turn : Turn γ),
    t.underway[r]? = some turn → r ∈ t.delivery.executor.tasks
  made : ∀ (r : Registration) (call : γ), (r, call) ∈ t.made → r.number ≤ t.delivery.issued

theorem sound_start (policy : FailurePolicy) : (start policy : Traffic κ γ).Sound where
  delivery := Delivery.sound_empty policy
  underway r turn h := by simp [start] at h
  made r call h := by simp [start] at h

namespace Sound

variable {calls : κ → List γ} {t u : Traffic κ γ} {m : Move κ} {r : Registration}

/-- a turn that goes on, or is over, while the task stays out -/
theorem of_turn (h : t.Sound) (hr : r ∈ t.delivery.executor.tasks) (hd : u.delivery.Sound)
    (ht : u.delivery.executor.tasks = t.delivery.executor.tasks)
    (hi : u.delivery.issued = t.delivery.issued) (hm : u.made = t.made)
    (hw : ∀ q, r ≠ q → u.underway[q]? = t.underway[q]?) : u.Sound where
  delivery := hd
  underway q turn hq := by
    rw [ht]
    by_cases e : r = q
    · exact e ▸ hr
    · exact h.underway q turn (hw q e ▸ hq)
  made q call hq := by
    rw [hi]
    exact h.made q call (hm ▸ hq)

/-- a task that ends has no turn -/
theorem of_ended (h : t.Sound) (hd : u.delivery.Sound)
    (ht : u.delivery.executor.tasks = t.delivery.executor.tasks.erase r)
    (hi : u.delivery.issued = t.delivery.issued) (hm : u.made = t.made)
    (hw : ∀ q, r ≠ q → u.underway[q]? = t.underway[q]?) (hn : u.underway[r]? = none) : u.Sound where
  delivery := hd
  underway q turn hq := by
    rw [ht]
    by_cases e : r = q
    · rw [← e, hn] at hq
      cases hq
    · exact (List.mem_erase_of_ne (Ne.symm e)).2 (h.underway q turn (hw q e ▸ hq))
  made q call hq := by
    rw [hi]
    exact h.made q call (hm ▸ hq)

theorem look (h : t.Sound) (hu : t.step calls (.look r) = some u) : u.Sound := by
  obtain ⟨hr, hn, rfl⟩ := of_look hu
  obtain ⟨slot, hs, -⟩ := h.delivery.slot_of_task hr
  have hd : (t.delivery.look r).2.Sound := h.delivery.look r
  have hreg : t.delivery.isRegistered r = !slot.cancelled := by
    rw [Delivery.isRegistered, hs]
    rfl
  obtain ⟨hc, hl⟩ | ⟨hc, hl⟩ := t.delivery.look_cases r hs
  · have hd : (t.delivery.look r).2 = t.delivery := congrArg Prod.snd hl
    rw [hreg, hc, hd]
    exact h.of_turn hr h.delivery rfl rfl rfl fun q hq => getElem?_underway_insert _ _ hq
  · rw [hreg, hc]
    refine h.of_ended hd ?_ ?_ rfl (fun q hq => rfl) hn
    · show (t.delivery.look r).2.executor.tasks = _
      rw [hl]
      rfl
    · exact (t.delivery.works_look r).issued

theorem take (h : t.Sound) (hu : t.step calls (.take r) = some u) : u.Sound := by
  obtain ⟨hw, rfl⟩ := of_take hu
  have hr : r ∈ t.delivery.executor.tasks := h.underway r _ hw
  obtain ⟨slot, hs, -⟩ := h.delivery.slot_of_task hr
  have hd : (t.delivery.pop r).2.Sound := h.delivery.pop hr
  obtain ⟨c, rest, -, hp⟩ | ⟨-, hp⟩ := t.delivery.pop_cases r hs
  · rw [hp] at hd ⊢
    exact h.of_turn hr hd rfl rfl rfl fun q hq => getElem?_underway_insert _ _ hq
  · rw [hp] at hd ⊢
    exact h.of_ended hd rfl rfl rfl (fun q hq => getElem?_underway_erase _ hq)
      Std.ExtTreeMap.getElem?_erase_self

theorem call (h : t.Sound) (hu : t.step calls (.call r) = some u) : u.Sound := by
  obtain ⟨begun, call, rest, ht, rfl⟩ := of_call hu
  have hr : r ∈ t.delivery.executor.tasks := h.underway r _ ht
  refine ⟨h.delivery, fun q other hq => ?_, fun q made hq => ?_⟩
  · by_cases e : r = q
    · exact e ▸ hr
    · exact h.underway q other ((getElem?_underway_insert _ _ e).symm.trans hq)
  · rcases List.mem_append.1 hq with hq | hq
    · exact h.made q made hq
    · obtain ⟨rfl, rfl⟩ := Prod.mk.inj (List.mem_singleton.1 hq)
      obtain ⟨slot, hs, -⟩ := h.delivery.slot_of_task hr
      exact h.delivery.issued q slot hs

theorem step (h : t.Sound) (hu : t.step calls m = some u) : u.Sound := by
  cases m with
  | register initial =>
    obtain ⟨-, rfl⟩ := of_register hu
    refine ⟨h.delivery.register initial, fun q turn hq => ?_, fun q call hq => ?_⟩
    · exact t.delivery.mem_tasks_register q (h.underway q turn hq) initial
    · rw [Delivery.issued_register]
      exact Nat.le_succ_of_le (h.made q call hq)
  | remove r =>
    obtain ⟨-, rfl⟩ := of_remove hu
    refine ⟨h.delivery.remove r, fun q turn hq => ?_, fun q call hq => ?_⟩
    · rw [Delivery.executor_remove]
      exact h.underway q turn hq
    · rw [Delivery.issued_remove]
      exact h.made q call hq
  | enqueue c =>
    obtain ⟨-, rfl⟩ := of_enqueue hu
    exact ⟨h.delivery, h.underway, h.made⟩
  | post r =>
    obtain ⟨c, -, -, rfl⟩ := of_post hu
    refine ⟨h.delivery.push c r, fun q turn hq => ?_, fun q call hq => ?_⟩
    · exact t.delivery.mem_tasks_push c r q (h.underway q turn hq)
    · rw [Delivery.issued_push]
      exact h.made q call hq
  | look r => exact h.look hu
  | take r => exact h.take hu
  | call r => exact h.call hu
  | finish r =>
    obtain ⟨begun, hw, rfl⟩ := of_finish hu
    exact h.of_turn (h.underway r _ hw) h.delivery rfl rfl rfl fun q hq =>
      getElem?_underway_erase _ hq
  | fail r failure =>
    obtain ⟨left, hw, rfl⟩ := of_fail hu
    refine h.of_turn (h.underway r _ hw) (h.delivery.fail r failure) rfl rfl rfl fun q hq => ?_
    show (if t.delivery.policy = .cancel then t.underway.insert r .failed
      else t.underway.erase r)[q]? = _
    split
    · exact getElem?_underway_insert _ _ hq
    · exact getElem?_underway_erase _ hq
  | cancel r =>
    obtain ⟨-, hw, rfl⟩ := of_cancel hu
    exact h.of_turn (h.underway r _ hw) (h.delivery.cancel r)
      (congrArg Executor.tasks (t.delivery.executor_cancel r)) (t.delivery.issued_cancel r) rfl
      fun q hq => getElem?_underway_erase _ hq
  | note events =>
    obtain rfl := of_note hu
    exact ⟨h.delivery.noteAll events, h.underway, h.made⟩

end Sound

/-- the executor never goes back on taking tasks in -/
theorem accepts_step {calls : κ → List γ} {t u : Traffic κ γ} {m : Move κ}
    (hu : t.step calls m = some u) : u.delivery.executor.accepts = t.delivery.executor.accepts := by
  rw [delivery_step hu]
  cases m with
  | register initial => exact t.delivery.accepts_register initial
  | remove r => exact congrArg Executor.accepts (t.delivery.executor_remove r)
  | post r =>
    obtain ⟨c, hc, -, -⟩ := of_post hu
    rw [effect_post hc]
    exact t.delivery.accepts_push c r
  | look r => exact (t.delivery.works_look r).accepts
  | take r => exact (t.delivery.works_pop r).accepts
  | cancel r => exact congrArg Executor.accepts (t.delivery.executor_cancel r)
  | enqueue c => rfl
  | call r => rfl
  | finish r => rfl
  | fail r failure => rfl
  | note events => rfl

end Traffic

end OverlayWatch
