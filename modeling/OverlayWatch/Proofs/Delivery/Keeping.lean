import OverlayWatch.Proofs.Delivery.Traffic

/-!
# What a registration keeps

A callback that is handed to a slot finds a drain task out, or a task is submitted for it, which the
executor takes in or refuses.  Only in the last case is it lost.  What is kept is received, in the
hands of the drain task or queued, in the order in which it was handed over, and no move changes that.

* `Slot.fate`, `Handover`    what becomes of a callback that is handed to a slot;
* `Traffic.handed`           what a move hands to one registration;
* `handed_append_posting`    what is handed in for everyone is handed over to each, in order;
* `Traffic.taken`, `queue_step`   a queue is worked off in the order in which it is filled;
* `Traffic.Turned`, `turn_step`   all that a move can do to the turn of one registration;
* `Traffic.Retains`          the move neither removes the registration nor cancels it;
* `Traffic.Keeping`          what has been received, is in hand or waits;
* `Keeping.step`             a move adds to it what it hands over and is not refused, nothing else;
* `Keeping.register`         a new registration keeps its first callback, unless that is refused.
-/

namespace OverlayWatch

variable {κ γ : Type}

/-! ## handing over -/

inductive Fate where
  /-- a drain task is out that will come to it -/
  | waits
  /-- a drain task has been taken in for it -/
  | submitted
  | refused
deriving DecidableEq, Repr

/-- `taken` says whether the executor would take a new task -/
def Slot.fate (slot : Slot κ) (taken : Bool) : Fate :=
  if slot.draining then .waits else if taken then .submitted else .refused

structure Handover (κ : Type) where
  callback : κ
  fate : Fate
deriving DecidableEq, Repr

def Handover.kept (h : Handover κ) : List κ := if h.fate = .refused then [] else [h.callback]

theorem Slot.fate_ne_refused (slot : Slot κ) : slot.fate true ≠ .refused := by
  unfold fate
  split <;> simp

/-- nothing but the callback itself is lost, because nothing waits where no task is out -/
theorem Slot.pending_receive {slot : Slot κ} (idle : slot.draining = false → slot.pending = [])
    (taken : Bool) (c : κ) : (slot.receive taken c).pending
      = slot.pending ++ Handover.kept ⟨c, slot.fate taken⟩ := by
  unfold receive fate Handover.kept
  cases hd : slot.draining with
  | true => simp
  | false =>
    cases taken with
    | true => simp
    | false => simp [idle hd]

namespace Traffic

/-- at most one callback -/
def handed (t : Traffic κ γ) (r : Registration) : Move κ → List (Handover κ)
  | .register (some c) =>
    if r = ⟨t.delivery.issued + 1⟩ then [⟨c, (Slot.fresh : Slot κ).fate (t.delivery.executor.accepts r)⟩]
    else []
  | .post q =>
    if q = r then
      match t.posting[r]?, t.delivery.slots[r]? with
      | some c, some slot => [⟨c, slot.fate (t.delivery.executor.accepts r)⟩]
      | _, _ => []
    else []
  | _ => []

theorem handed_post {t : Traffic κ γ} {r : Registration} {c : κ} {slot : Slot κ}
    (hc : t.posting[r]? = some c) (hs : t.delivery.slots[r]? = some slot) :
    t.handed r (.post r) = [⟨c, slot.fate (t.delivery.executor.accepts r)⟩] := by
  simp [handed, hc, hs]

theorem handed_post_of_ne {t : Traffic κ γ} {q r : Registration} (h : q ≠ r) :
    t.handed r (.post q) = [] := by
  simp [handed, h]

theorem handed_register_of_ne {t : Traffic κ γ} {r : Registration}
    (h : r ≠ ⟨t.delivery.issued + 1⟩) (initial : Option κ) : t.handed r (.register initial) = [] := by
  cases initial with
  | none => rfl
  | some c => simp [handed, h]

theorem handed_register_self (t : Traffic κ γ) (c : κ) :
    t.handed ⟨t.delivery.issued + 1⟩ (.register (some c)) =
      [⟨c, (Slot.fresh : Slot κ).fate (t.delivery.executor.accepts ⟨t.delivery.issued + 1⟩)⟩] :=
  if_pos rfl

theorem callback_handed_register (t : Traffic κ γ) (initial : Option κ) :
    (t.handed ⟨t.delivery.issued + 1⟩ (.register initial)).map Handover.callback
      = initial.toList := by
  cases initial with
  | none => rfl
  | some c =>
    rw [handed_register_self]
    rfl

/-- an executor that takes every task loses nothing -/
theorem kept_handed {t : Traffic κ γ} {r : Registration}
    (ha : t.delivery.executor.accepts r = true) (m : Move κ) :
    (t.handed r m).flatMap Handover.kept = (t.handed r m).map Handover.callback := by
  have hk : ∀ (slot : Slot κ) (c : κ), Handover.kept ⟨c, slot.fate true⟩ = [c] := by
    intro slot c
    rw [Handover.kept, if_neg slot.fate_ne_refused]
  cases m with
  | register initial =>
    by_cases hr : r = ⟨t.delivery.issued + 1⟩
    · cases initial with
      | none => rfl
      | some c => simp [handed, ← hr, ha, hk]
    · rw [handed_register_of_ne hr]
      rfl
  | post q =>
    by_cases e : q = r
    · subst e
      cases hc : t.posting[q]? with
      | none => simp [handed, hc]
      | some c =>
        cases hs : t.delivery.slots[q]? with
        | none => simp [handed, hs]
        | some slot => simp [handed_post hc hs, ha, hk]
    · rw [handed_post_of_ne e]
      rfl
  | _ => rfl

/-- what the move hands in for everyone registered -/
def Move.queued : Move κ → List κ
  | .enqueue c => [c]
  | _ => []

theorem Move.queued_of_isInner {m : Move κ} (h : m.isInner = true) : m.queued = [] := by
  cases m with
  | enqueue c => cases h
  | _ => rfl

theorem getElem?_posting_of_isEmpty {t : Traffic κ γ} (h : t.posting.isEmpty = true)
    (r : Registration) : t.posting[r]? = none := by
  rw [Std.ExtTreeMap.isEmpty_iff.1 h, Std.ExtTreeMap.getElem?_empty]

section
variable {calls : κ → List γ} {t u : Traffic κ γ} {r : Registration} {m : Move κ}

/-- a callback that is handed over has been handed in before -/
theorem handed_append_posting (hs : t.Sound) (hr : t.delivery.isRegistered r = true)
    (hu : t.step calls m = some u) :
    (t.handed r m).map Handover.callback ++ u.posting[r]?.toList
      = t.posting[r]?.toList ++ m.queued := by
  obtain ⟨slot, hslot, -⟩ := (Option.any_eq_true _ _).1 hr
  have still : u.posting = t.posting → t.handed r m = [] → m.queued = [] →
      (t.handed r m).map Handover.callback ++ u.posting[r]?.toList
        = t.posting[r]?.toList ++ m.queued := by
    intro hp hh hq
    rw [hp, hh, hq]
    exact (List.append_nil _).symm
  cases m with
  | register initial =>
    obtain ⟨-, rfl⟩ := of_register hu
    have hn : r ≠ ⟨t.delivery.issued + 1⟩ := by
      rintro rfl
      rw [hs.delivery.slots_next] at hslot
      cases hslot
    exact still rfl (handed_register_of_ne hn initial) rfl
  | remove q =>
    obtain ⟨-, rfl⟩ := of_remove hu
    exact still rfl rfl rfl
  | enqueue c =>
    obtain ⟨hp, rfl⟩ := of_enqueue hu
    show [] ++ (addressed c t.delivery.registered)[r]?.toList = _
    rw [getElem?_addressed, if_pos (Delivery.mem_registered.2 hr), getElem?_posting_of_isEmpty hp]
    rfl
  | post q =>
    obtain ⟨c, hc, -, rfl⟩ := of_post hu
    show _ ++ (t.posting.erase q)[r]?.toList = _ ++ []
    rw [Std.ExtTreeMap.getElem?_erase]
    by_cases e : q = r
    · subst e
      rw [handed_post hc hslot, hc]
      simp
    · rw [handed_post_of_ne e]
      simp [e]
  | look q =>
    obtain ⟨-, -, rfl⟩ := of_look hu
    exact still rfl rfl rfl
  | take q =>
    obtain ⟨-, rfl⟩ := of_take hu
    exact still rfl rfl rfl
  | call q =>
    obtain ⟨begun, call, rest, -, rfl⟩ := of_call hu
    exact still rfl rfl rfl
  | finish q =>
    obtain ⟨begun, -, rfl⟩ := of_finish hu
    exact still rfl rfl rfl
  | fail q failure =>
    obtain ⟨left, -, rfl⟩ := of_fail hu
    exact still rfl rfl rfl
  | cancel q =>
    obtain ⟨-, -, rfl⟩ := of_cancel hu
    exact still rfl rfl rfl
  | note events =>
    obtain rfl := of_note hu
    exact still rfl rfl rfl

end

/-! ## the registration to come -/

namespace Sound

variable {t : Traffic κ γ} (hs : t.Sound)
include hs

theorem received_next : t.received ⟨t.delivery.issued + 1⟩ = [] := by
  unfold received
  rw [List.map_eq_nil_iff, List.filter_eq_nil_iff]
  rintro ⟨q, call⟩ hq
  have hn := hs.made q call hq
  rw [decide_eq_true_iff]
  rintro rfl
  exact Nat.not_succ_le_self _ hn

theorem underway_next : t.underway[(⟨t.delivery.issued + 1⟩ : Registration)]? = none := by
  rcases hn : t.underway[(⟨t.delivery.issued + 1⟩ : Registration)]? with _ | turn
  · rfl
  · obtain ⟨slot, hr, -⟩ := hs.delivery.slot_of_task (hs.underway _ turn hn)
    rw [hs.delivery.slots_next] at hr
    cases hr

end Sound

/-! ## the queue and the hand -/

/-- what the drain task of the registration takes out of the queue -/
def taken (t : Traffic κ γ) (r : Registration) : Move κ → List κ
  | .take q => if q = r then (t.delivery.pop q).1.toList else []
  | _ => []

theorem taken_take (t : Traffic κ γ) (r : Registration) :
    t.taken r (.take r) = (t.delivery.pop r).1.toList := if_pos rfl

/-- the move is made by the drain task of the registration -/
def Move.turns (r : Registration) : Move κ → Bool
  | .look q => q = r
  | .take q => q = r
  | .call q => q = r
  | .finish q => q = r
  | .fail q _ => q = r
  | .cancel q => q = r
  | _ => false

section
variable {calls : κ → List γ} {t u : Traffic κ γ} {r q : Registration} {m : Move κ} {slot : Slot κ}

theorem queue_take (hr : t.delivery.slots[r]? = some slot) (hu : t.step calls (.take r) = some u) :
    ∃ next, u.delivery.slots[r]? = some next ∧ next.cancelled = slot.cancelled ∧
      t.taken r (.take r) ++ next.pending = slot.pending := by
  rw [delivery_step hu, taken_take]
  show ∃ next, (t.delivery.pop r).2.slots[r]? = some next ∧ _
  obtain ⟨c, rest, hp, hd⟩ | ⟨hp, hd⟩ := t.delivery.pop_cases r hr
  · rw [hd, hp]
    exact ⟨{ slot with pending := rest }, Delivery.getElem?_slots_setSlot_self _ _ _, rfl, rfl⟩
  · rw [hd, hp]
    exact ⟨{ slot with pending := [], draining := false },
      Delivery.getElem?_slots_setSlot_self _ _ _, rfl, rfl⟩

/-- what is taken out is what was put in first -/
theorem queue_step (hs : t.Sound) (hr : t.delivery.slots[r]? = some slot)
    (hc : slot.cancelled = false) (hm : m ≠ .remove r) (hl : m ≠ .cancel r)
    (hu : t.step calls m = some u) :
    ∃ next, u.delivery.slots[r]? = some next ∧ next.cancelled = false ∧
      t.taken r m ++ next.pending = slot.pending ++ (t.handed r m).flatMap Handover.kept := by
  have frame : u.delivery.slots[r]? = t.delivery.slots[r]? → t.taken r m = [] → t.handed r m = [] →
      ∃ next, u.delivery.slots[r]? = some next ∧ next.cancelled = false ∧
        t.taken r m ++ next.pending = slot.pending ++ (t.handed r m).flatMap Handover.kept := by
    intro hslot htaken hhanded
    exact ⟨slot, hslot.trans hr, hc, by rw [htaken, hhanded]; exact (List.append_nil _).symm⟩
  have apart : ∀ q, m.concerns q = true → q ≠ r → u.delivery.slots[r]? = t.delivery.slots[r]? :=
    fun q hq hne => (share_eq_iff.1 (share_step_of_concerns hq hne hu)).1
  cases m with
  | register initial =>
    obtain ⟨-, rfl⟩ := of_register hu
    have hn : r ≠ ⟨t.delivery.issued + 1⟩ := by
      rintro rfl
      rw [hs.delivery.slots_next] at hr
      cases hr
    exact frame (Delivery.slots_register_of_ne _ hn initial) rfl (handed_register_of_ne hn initial)
  | remove q =>
    exact frame (apart q (decide_eq_true rfl) fun e => hm (e ▸ rfl)) rfl rfl
  | enqueue c =>
    obtain ⟨-, rfl⟩ := of_enqueue hu
    exact frame rfl rfl rfl
  | post q =>
    by_cases e : q = r
    · subst e
      obtain ⟨c, hq, -, rfl⟩ := of_post hu
      refine ⟨slot.receive (t.delivery.executor.accepts q) c, ?_, ?_, ?_⟩
      · rw [Delivery.slots_push, if_pos rfl, hr]
        rfl
      · rw [Slot.cancelled_receive, hc]
      · rw [Slot.pending_receive (hs.delivery.idle q slot hr), handed_post hq hr, List.flatMap_cons,
          List.flatMap_nil, List.append_nil]
        rfl
    · exact frame (apart q (decide_eq_true rfl) e) rfl (handed_post_of_ne e)
  | look q =>
    by_cases e : q = r
    · subst e
      refine frame ?_ rfl rfl
      obtain ⟨-, hl⟩ | ⟨hn, -⟩ := t.delivery.look_cases q hr
      · rw [delivery_step hu, effect, hl]
      · rw [hc] at hn
        cases hn
    · exact frame (apart q (decide_eq_true rfl) e) rfl rfl
  | take q =>
    by_cases e : q = r
    · subst e
      obtain ⟨next, hnext, hcn, hq⟩ := queue_take hr hu
      exact ⟨next, hnext, hcn.trans hc, hq.trans (List.append_nil _).symm⟩
    · exact frame (apart q (decide_eq_true rfl) e) (if_neg e) rfl
  | call q =>
    obtain ⟨begun, call, rest, -, rfl⟩ := of_call hu
    exact frame rfl rfl rfl
  | finish q =>
    obtain ⟨begun, -, rfl⟩ := of_finish hu
    exact frame rfl rfl rfl
  | fail q failure =>
    obtain ⟨left, -, rfl⟩ := of_fail hu
    exact frame rfl rfl rfl
  | cancel q =>
    exact frame (apart q (decide_eq_true rfl) fun e => hl (e ▸ rfl)) rfl rfl
  | note events =>
    obtain rfl := of_note hu
    exact frame rfl rfl rfl

/-- all that a move can do to the turn of a registration and to the calls that it has received -/
inductive Turned (calls : κ → List γ) (r : Registration) (t u : Traffic κ γ) : Move κ → Prop where
  | still {m : Move κ} (own : m.turns r = false) (received : u.received r = t.received r)
    (turn : u.underway[r]? = t.underway[r]?) : Turned calls r t u m
  | look (before : t.underway[r]? = none) (received : u.received r = t.received r)
    (turn : u.underway[r]? = if t.delivery.isRegistered r then some .looking else none) :
    Turned calls r t u (.look r)
  | take (before : t.underway[r]? = some .looking) (received : u.received r = t.received r)
    (turn : u.underway[r]? = (t.delivery.pop r).1.map fun c => .inHand false (calls c)) :
    Turned calls r t u (.take r)
  | call {begun : Bool} {call : γ} {rest : List γ}
    (before : t.underway[r]? = some (.inHand begun (call :: rest)))
    (received : u.received r = t.received r ++ [call])
    (turn : u.underway[r]? = some (.inHand true rest)) : Turned calls r t u (.call r)
  | finish {begun : Bool} (before : t.underway[r]? = some (.inHand begun []))
    (received : u.received r = t.received r) (turn : u.underway[r]? = none) :
    Turned calls r t u (.finish r)
  | fail {left : List γ} {failure : Failure} (before : t.underway[r]? = some (.inHand true left))
    (received : u.received r = t.received r)
    (turn : u.underway[r]? = if t.delivery.policy = .cancel then some .failed else none) :
    Turned calls r t u (.fail r failure)
  | cancel (before : t.underway[r]? = some .failed) (received : u.received r = t.received r)
    (turn : u.underway[r]? = none) : Turned calls r t u (.cancel r)

/-- the drain task's own moves -/
theorem turned_of_turns (hm : m.turns r = true) (hu : t.step calls m = some u) :
    Turned calls r t u m := by
  cases m with
  | look q =>
    obtain rfl : q = r := of_decide_eq_true hm
    obtain ⟨-, hn, rfl⟩ := of_look hu
    refine .look hn rfl ?_
    show (if _ then t.underway.insert q .looking else t.underway)[q]? = _
    split
    · exact Std.ExtTreeMap.getElem?_insert_self
    · exact hn
  | take q =>
    obtain rfl : q = r := of_decide_eq_true hm
    obtain ⟨hw, rfl⟩ := of_take hu
    refine .take hw rfl ?_
    cases (t.delivery.pop q).1 with
    | none => exact Std.ExtTreeMap.getElem?_erase_self
    | some c => exact Std.ExtTreeMap.getElem?_insert_self
  | call q =>
    obtain rfl : q = r := of_decide_eq_true hm
    obtain ⟨begun, call, rest, hw, rfl⟩ := of_call hu
    refine .call hw ?_ Std.ExtTreeMap.getElem?_insert_self
    exact (received_append t q q call).trans (by rw [if_pos rfl])
  | finish q =>
    obtain rfl : q = r := of_decide_eq_true hm
    obtain ⟨begun, hw, rfl⟩ := of_finish hu
    exact .finish hw rfl Std.ExtTreeMap.getElem?_erase_self
  | fail q failure =>
    obtain rfl : q = r := of_decide_eq_true hm
    obtain ⟨left, hw, rfl⟩ := of_fail hu
    refine .fail hw rfl ?_
    show (if _ then t.underway.insert q .failed else t.underway.erase q)[q]? = _
    split
    · exact Std.ExtTreeMap.getElem?_insert_self
    · exact Std.ExtTreeMap.getElem?_erase_self
  | cancel q =>
    obtain rfl : q = r := of_decide_eq_true hm
    obtain ⟨-, hw, rfl⟩ := of_cancel hu
    exact .cancel hw rfl Std.ExtTreeMap.getElem?_erase_self
  | register initial => cases hm
  | remove q => cases hm
  | enqueue c => cases hm
  | post q => cases hm
  | note events => cases hm

theorem turn_step (r : Registration) (hu : t.step calls m = some u) : Turned calls r t u m := by
  by_cases hm : m.turns r = true
  · exact turned_of_turns hm hu
  have hm : m.turns r = false := eq_false_of_ne_true hm
  have apart : ∀ q, m.concerns q = true → q ≠ r → Turned calls r t u m := by
    intro q hq hne
    obtain ⟨-, -, hturn, hreceived⟩ := share_eq_iff.1 (share_step_of_concerns hq hne hu)
    exact .still hm hreceived hturn
  cases m with
  | register initial =>
    obtain ⟨-, rfl⟩ := of_register hu
    exact .still rfl rfl rfl
  | remove q =>
    obtain ⟨-, rfl⟩ := of_remove hu
    exact .still rfl rfl rfl
  | enqueue c =>
    obtain ⟨-, rfl⟩ := of_enqueue hu
    exact .still rfl rfl rfl
  | post q =>
    obtain ⟨c, -, -, rfl⟩ := of_post hu
    exact .still rfl rfl rfl
  | note events =>
    obtain rfl := of_note hu
    exact .still rfl rfl rfl
  | _ q => exact apart q (decide_eq_true rfl) (of_decide_eq_false hm)

theorem taken_of_not_turns (hm : m.turns r = false) : t.taken r m = [] := by
  cases m with
  | take q => exact if_neg (of_decide_eq_false hm)
  | _ => rfl

/-- a drain task has its turn to itself -/
theorem underway_of_not_turns (hm : m.turns r = false) (hu : t.step calls m = some u) :
    u.underway[r]? = t.underway[r]? := by
  have other : ∀ {b : Bool}, decide (r = r) = b → b = false → u.underway[r]? = t.underway[r]? := by
    rintro b hb rfl
    exact absurd rfl (of_decide_eq_false hb)
  cases turn_step r hu with
  | still own hr hn => exact hn
  | look hw hr hn => exact other rfl hm
  | take hw hr hn => exact other rfl hm
  | call hw hr hn => exact other rfl hm
  | finish hw hr hn => exact other rfl hm
  | fail hw hr hn => exact other rfl hm
  | cancel hw hr hn => exact other rfl hm

end

/-! ## keeping -/

/-- the registration is kept, and should a call fail, no call is left out for it -/
def Retains (t : Traffic κ γ) (r : Registration) : Move κ → Prop
  | .remove q => q ≠ r
  | .cancel q => q ≠ r
  | .fail q _ => q = r → t.inHand r = []
  | _ => True

/-- the calls received, in hand and queued -/
def Keeping (calls : κ → List γ) (t : Traffic κ γ) (r : Registration) (kept : List γ) : Prop :=
  ∃ slot, t.delivery.slots[r]? = some slot ∧ slot.cancelled = false ∧
    t.received r ++ (t.inHand r ++ slot.pending.flatMap calls) = kept

section
variable {calls : κ → List γ} {t u : Traffic κ γ} {r : Registration} {m : Move κ} {turn : Turn γ}

theorem inHand_of_turn (h : t.underway[r]? = some turn) : t.inHand r = turn.left := by
  rw [inHand, h]
  rfl

theorem inHand_of_idle (h : t.underway[r]? = none) : t.inHand r = [] := by
  rw [inHand, h]
  rfl

theorem received_append_inHand (hm : t.Retains r m) (hu : t.step calls m = some u) :
    u.received r ++ u.inHand r = t.received r ++ t.inHand r ++ (t.taken r m).flatMap calls := by
  cases turn_step r hu with
  | still own hr hn =>
    rw [inHand, inHand, hr, hn, taken_of_not_turns own]
    exact (List.append_nil _).symm
  | look hw hr hn =>
    have hempty : u.inHand r = [] := by
      rw [inHand, hn]
      split <;> rfl
    rw [hempty, inHand_of_idle hw, hr]
    exact (List.append_nil _).symm
  | take hw hr hn =>
    have hhand : u.inHand r = (t.taken r (.take r)).flatMap calls := by
      rw [inHand, hn, taken_take]
      cases (t.delivery.pop r).1 with
      | none => rfl
      | some c => exact (List.append_nil _).symm
    rw [hhand, inHand_of_turn hw, hr]
    simp [Turn.left]
  | call hw hr hn =>
    rw [inHand_of_turn hw, inHand_of_turn hn, hr]
    simp [taken, Turn.left]
  | finish hw hr hn =>
    rw [inHand_of_turn hw, inHand_of_idle hn, hr]
    exact (List.append_nil _).symm
  | fail hw hr hn =>
    have hempty : u.inHand r = [] := by
      rw [inHand, hn]
      split <;> rfl
    rw [hempty, hm rfl, hr]
    exact (List.append_nil _).symm
  | cancel hw hr hn => exact absurd rfl hm

end

namespace Keeping

variable {calls : κ → List γ} {t u : Traffic κ γ} {r : Registration} {kept : List γ}

theorem isRegistered (h : Keeping calls t r kept) : t.delivery.isRegistered r = true := by
  obtain ⟨slot, hr, hc, -⟩ := h
  rw [Delivery.isRegistered, hr]
  simp [hc]

theorem step {m : Move κ} (h : Keeping calls t r kept) (hs : t.Sound) (hm : t.Retains r m)
    (hu : t.step calls m = some u) :
    Keeping calls u r (kept ++ ((t.handed r m).flatMap Handover.kept).flatMap calls) := by
  obtain ⟨slot, hr, hc, rfl⟩ := h
  have hremove : m ≠ .remove r := by
    rintro rfl
    exact hm rfl
  have hcancel : m ≠ .cancel r := by
    rintro rfl
    exact hm rfl
  obtain ⟨next, hnext, hcn, hqueue⟩ := queue_step hs hr hc hremove hcancel hu
  refine ⟨next, hnext, hcn, ?_⟩
  rw [← List.append_assoc, received_append_inHand hm hu, List.append_assoc, ← List.flatMap_append,
    hqueue, List.flatMap_append]
  simp only [List.append_assoc]

/-- nothing has been done yet for a new registration -/
theorem register (hs : t.Sound) {initial : Option κ}
    (hu : t.step calls (.register initial) = some u) :
    Keeping calls u ⟨t.delivery.issued + 1⟩
      (((t.handed ⟨t.delivery.issued + 1⟩ (.register initial)).flatMap Handover.kept).flatMap calls) := by
  obtain ⟨-, rfl⟩ := of_register hu
  have hm := hs.received_next
  have hn := hs.underway_next
  cases initial with
  | none =>
    refine ⟨.fresh, Delivery.getElem?_slots_setSlot_self _ _ _, rfl, ?_⟩
    show t.received _ ++ (t.inHand _ ++ _) = _
    rw [hm, inHand, hn]
    rfl
  | some c =>
    refine ⟨_, Delivery.slots_register_self _ c, Slot.cancelled_receive _ _ _, ?_⟩
    show t.received _ ++ (t.inHand _ ++ _) = _
    rw [hm, inHand, hn, Slot.pending_receive fun _ => rfl]
    simp [handed, Slot.fresh]

end Keeping

end Traffic

end OverlayWatch
