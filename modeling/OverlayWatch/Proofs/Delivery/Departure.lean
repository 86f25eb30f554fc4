import OverlayWatch.Proofs.Delivery.Operations
import OverlayWatch.Proofs.Delivery.Shares

/-!
# After a registration has ended

The slot of a registration that is over stays in the hands of its drain task, with whatever was queued,
and a removal finds the task anywhere in its turn.  In the middle of a callback it goes on with that one.
If it has just looked whether it is to go on, it takes one more callback out.  Then it is told to end,
and the queue is dropped.  A task whose callback has failed does nothing but cancel its registration.
For everyone else it is as if nothing had happened.

* `Traffic.next`               the callback that a task is about to take out, having looked before;
* `Traffic.due`                the calls that it may still make;
* `Traffic.takings`            what it takes out of the queue in a run;
* `Traffic.Over`               what can become of a registration that is over;
* `Over.step`, `Over.passAll`  no move makes anything else of it;
* `Traffic.Halted`             what can become of it after a failure;
* `AlikeBut.exists_passAll`    the others could have done the same with the registration still there;
* `nothing_started`            where only operations are performed, no callback is started any more;
* `nothing_after_removal`      what a registration that is over gets, and what the others notice of it;
* `started_after_removal`      it may get one callback that had been queued, and another call.
-/

namespace OverlayWatch

namespace Traffic

variable {κ γ : Type}

/-! ## what a task may still do -/

/-- at most one callback -/
def next (t : Traffic κ γ) (r : Registration) : List κ :=
  if t.isLooking r then (t.delivery.pop r).1.toList else []

/-- the calls of the callback in hand and of the next one -/
def due (calls : κ → List γ) (t : Traffic κ γ) (r : Registration) : List γ :=
  t.inHand r ++ (t.next r).flatMap calls

/-- what the drain task of the registration takes out of the queue, one callback after the other -/
def takings (calls : κ → List γ) (r : Registration) : Traffic κ γ → List (Moment κ) → List κ :=
  gather calls fun t m => t.taken r m

section
variable {calls : κ → List γ} {s t u v : Traffic κ γ} {r : Registration} {slot : Slot κ} {m : Move κ}

theorem isLooking_of_turn {turn : Turn γ} (h : t.underway[r]? = some turn) :
    t.isLooking r = turn.isLooking := by
  rw [isLooking, h]
  rfl

theorem isLooking_of_idle (h : t.underway[r]? = none) : t.isLooking r = false := by
  rw [isLooking, h]
  rfl

theorem next_of_looking (h : t.underway[r]? = some .looking) :
    t.next r = (t.delivery.pop r).1.toList :=
  if_pos (isLooking_of_turn h)

theorem next_of_not_looking (h : t.isLooking r = false) : t.next r = [] := by
  rw [next, h]
  rfl

theorem due_of_not_looking (h : t.isLooking r = false) : t.due calls r = t.inHand r := by
  rw [due, next_of_not_looking h]
  exact List.append_nil _

theorem pop_answer (d : Delivery κ) (r : Registration) :
    (d.pop r).1 = (d.slots[r]?.map Slot.pending).bind List.head? := by
  cases hs : d.slots[r]? with
  | none =>
    rw [Delivery.pop, hs]
    rfl
  | some slot =>
    obtain ⟨c, rest, hp, hd⟩ | ⟨hp, hd⟩ := d.pop_cases r hs
    · rw [hd, Option.map_some, hp]
      rfl
    · rw [hd, Option.map_some, hp]
      rfl

/-- it depends on the turn and on the queue alone -/
theorem due_congr (calls : κ → List γ) (hw : u.underway[r]? = t.underway[r]?)
    (hq : u.delivery.slots[r]?.map Slot.pending = t.delivery.slots[r]?.map Slot.pending) :
    u.next r = t.next r ∧ u.due calls r = t.due calls r := by
  have hnext : u.next r = t.next r := by
    rw [next, next, isLooking, isLooking, hw, pop_answer, pop_answer, hq]
  exact ⟨hnext, by rw [due, due, hnext, inHand, inHand, hw]⟩

/-! ## a registration that is over -/

/-- from `s`, at whose moment the registration ended, to a later `u`: the drain task has taken out what it
was about to, has made some of the calls that were due, and has dropped the queue if it has ended -/
structure Over (calls : κ → List γ) (r : Registration) (s u : Traffic κ γ) (taken : List κ) : Prop where
  slot : ∃ old slot, s.delivery.slots[r]? = some old ∧ u.delivery.slots[r]? = some slot ∧
    slot.cancelled = true ∧ (taken ++ slot.pending = old.pending ∧ slot.draining = old.draining ∨
      slot.pending = [] ∧ slot.draining = false)
  posted : u.posting[r]? = none
  taken : taken ++ u.next r <+: s.next r
  made : ∃ made, made ++ u.due calls r <+: s.due calls r ∧ u.received r = s.received r ++ made

/-- nothing is queued for it any more, and its slot changes only when its task looks or takes a callback
out -/
theorem stays_over (hs : t.Sound) (hslot : t.delivery.slots[r]? = some slot)
    (hc : slot.cancelled = true) (hp : t.posting[r]? = none) (hu : t.step calls m = some u) :
    u.posting[r]? = none ∧
      (m ≠ .look r → m ≠ .take r → u.delivery.slots[r]? = some slot) := by
  have hreg : t.delivery.isRegistered r = false := by
    rw [Delivery.isRegistered, hslot]
    simp [hc]
  by_cases hother : ∃ q, m.concerns q = true ∧ q ≠ r
  · obtain ⟨q, hm, hne⟩ := hother
    obtain ⟨hslots, hposted, -, -⟩ := share_eq_iff.1 (share_step_of_concerns hm hne hu)
    exact ⟨hposted.trans hp, fun _ _ => hslots.trans hslot⟩
  have own : ∀ q, m.concerns q = true → q = r :=
    fun q hq => by_contra fun hne => hother ⟨q, hq, hne⟩
  cases m with
  | register initial =>
    obtain ⟨-, rfl⟩ := of_register hu
    have hn : r ≠ ⟨t.delivery.issued + 1⟩ := by
      intro e
      rw [e, hs.delivery.slots_next] at hslot
      cases hslot
    exact ⟨hp, fun _ _ => (Delivery.slots_register_of_ne _ hn initial).trans hslot⟩
  | remove q =>
    obtain rfl := own q (decide_eq_true rfl)
    obtain ⟨-, rfl⟩ := of_remove hu
    refine ⟨hp, fun _ _ => ?_⟩
    show (t.delivery.remove q).2.slots[q]? = _
    rw [Delivery.remove, if_neg (ne_true_of_eq_false hreg), hslot]
  | enqueue c =>
    obtain ⟨-, rfl⟩ := of_enqueue hu
    refine ⟨?_, fun _ _ => hslot⟩
    show (addressed c t.delivery.registered)[r]? = none
    rw [getElem?_addressed, if_neg fun h => ne_true_of_eq_false hreg (Delivery.mem_registered.1 h)]
  | post q =>
    obtain rfl := own q (decide_eq_true rfl)
    obtain ⟨c, hq, -⟩ := of_post hu
    rw [hp] at hq
    cases hq
  | look q =>
    obtain rfl := own q (decide_eq_true rfl)
    obtain ⟨-, -, rfl⟩ := of_look hu
    exact ⟨hp, fun hl _ => absurd rfl hl⟩
  | take q =>
    obtain rfl := own q (decide_eq_true rfl)
    obtain ⟨-, rfl⟩ := of_take hu
    exact ⟨hp, fun _ ht => absurd rfl ht⟩
  | call q =>
    obtain ⟨begun, call, rest, -, rfl⟩ := of_call hu
    exact ⟨hp, fun _ _ => hslot⟩
  | finish q =>
    obtain ⟨begun, -, rfl⟩ := of_finish hu
    exact ⟨hp, fun _ _ => hslot⟩
  | fail q failure =>
    obtain ⟨left, -, rfl⟩ := of_fail hu
    exact ⟨hp, fun _ _ => hslot⟩
  | cancel q =>
    obtain rfl := own q (decide_eq_true rfl)
    obtain ⟨-, -, rfl⟩ := of_cancel hu
    refine ⟨hp, fun _ _ => ?_⟩
    show (t.delivery.cancel q).slots[q]? = _
    rw [Delivery.slots_cancel_self, hslot, Option.map_some, ← hc]
  | note events =>
    obtain rfl := of_note hu
    exact ⟨hp, fun _ _ => hslot⟩

theorem slots_look_of_cancelled (hslot : t.delivery.slots[r]? = some slot)
    (hc : slot.cancelled = true) (hu : t.step calls (.look r) = some u) :
    u.delivery.slots[r]? = some { slot with pending := [], draining := false } := by
  rw [delivery_step hu]
  show (t.delivery.look r).2.slots[r]? = _
  obtain ⟨hn, -⟩ | ⟨-, hl⟩ := t.delivery.look_cases r hslot
  · rw [hc] at hn
    cases hn
  · rw [hl, Delivery.slots_endTask, if_pos rfl]

namespace Over

variable {taken : List κ}

theorem isRegistered_eq_false (h : Over calls r s u taken) : u.delivery.isRegistered r = false := by
  obtain ⟨old, slot, -, hslot, hc, -⟩ := h.slot
  rw [Delivery.isRegistered, hslot]
  simp [hc]

theorem slot_step (h : Over calls r s u taken) (hs : u.Sound) (hv : u.step calls m = some v) :
    ∃ old slot, s.delivery.slots[r]? = some old ∧ v.delivery.slots[r]? = some slot ∧
      slot.cancelled = true ∧
      ((taken ++ u.taken r m) ++ slot.pending = old.pending ∧ slot.draining = old.draining ∨
        slot.pending = [] ∧ slot.draining = false) := by
  obtain ⟨old, slot, hold, hslot, hc, hkept⟩ := h.slot
  by_cases hlook : m = .look r
  · subst hlook
    exact ⟨old, _, hold, slots_look_of_cancelled hslot hc hv, hc, .inr ⟨rfl, rfl⟩⟩
  by_cases htake : m = .take r
  · subst htake
    rw [taken_take, delivery_step hv]
    show ∃ old slot, _ ∧ (u.delivery.pop r).2.slots[r]? = _ ∧ _
    obtain ⟨c, rest, hp, hd⟩ | ⟨-, hd⟩ := u.delivery.pop_cases r hslot
    · rw [hd]
      refine ⟨old, _, hold, Delivery.getElem?_slots_setSlot_self _ _ _, hc, ?_⟩
      obtain ⟨hq, hdrain⟩ | ⟨hq, -⟩ := hkept
      · rw [hp] at hq
        exact .inl ⟨by rw [← hq]; simp, hdrain⟩
      · rw [hp] at hq
        cases hq
    · rw [hd]
      exact ⟨old, _, hold, Delivery.getElem?_slots_setSlot_self _ _ _, hc, .inr ⟨rfl, rfl⟩⟩
  · have hnone : u.taken r m = [] := by
      cases m with
      | take q => exact if_neg fun e => htake (congrArg Move.take e)
      | _ => rfl
    rw [hnone, List.append_nil]
    exact ⟨old, slot, hold, (stays_over hs hslot hc h.posted hv).2 hlook htake, hc, hkept⟩

/-- what is due becomes less only by being done, or by the failure of a call -/
theorem due_step (h : Over calls r s u taken) (hs : u.Sound) (hv : u.step calls m = some v) :
    u.taken r m ++ v.next r <+: u.next r ∧
      ∃ made, made ++ v.due calls r <+: u.due calls r ∧ v.received r = u.received r ++ made := by
  obtain ⟨old, slot, -, hslot, hc, -⟩ := h.slot
  -- a turn without a look, neither before nor after
  have aside : ∀ made : List γ, u.taken r m = [] → u.isLooking r = false → v.isLooking r = false →
      made ++ v.inHand r <+: u.inHand r → v.received r = u.received r ++ made →
      u.taken r m ++ v.next r <+: u.next r ∧
        ∃ made, made ++ v.due calls r <+: u.due calls r ∧ v.received r = u.received r ++ made := by
    intro made htaken hu hv hhand hr
    rw [htaken, next_of_not_looking hu, next_of_not_looking hv, due_of_not_looking hu,
      due_of_not_looking hv]
    exact ⟨List.prefix_rfl, made, hhand, hr⟩
  cases turn_step r hv with
  | still own hr hn =>
    have hlook : m ≠ .look r := by
      rintro rfl
      exact absurd own (by simp [Move.turns])
    have htake : m ≠ .take r := by
      rintro rfl
      exact absurd own (by simp [Move.turns])
    have hkept : v.delivery.slots[r]?.map Slot.pending = u.delivery.slots[r]?.map Slot.pending := by
      rw [(stays_over hs hslot hc h.posted hv).2 hlook htake, hslot]
    obtain ⟨hnext, hdue⟩ := due_congr calls hn hkept
    rw [taken_of_not_turns own, hnext, hdue]
    exact ⟨List.prefix_rfl, [], List.prefix_rfl, hr.trans (List.append_nil _).symm⟩
  | look hw hr hn =>
    rw [h.isRegistered_eq_false] at hn
    have hhand : ([] : List γ) ++ v.inHand r <+: u.inHand r := by
      rw [inHand_of_idle hn]
      exact List.nil_prefix
    exact aside [] rfl (isLooking_of_idle hw) (isLooking_of_idle hn) hhand
      (hr.trans (List.append_nil _).symm)
  | take hw hr hn =>
    have hnot : v.isLooking r = false := by
      rw [isLooking, hn]
      cases (u.delivery.pop r).1 <;> rfl
    have hdue : v.due calls r = u.due calls r := by
      rw [due_of_not_looking hnot, due, inHand_of_turn hw, next_of_looking hw, inHand, hn]
      cases (u.delivery.pop r).1 with
      | none => rfl
      | some c => exact (List.append_nil _).symm
    rw [taken_take, next_of_not_looking hnot, next_of_looking hw, List.append_nil, hdue]
    exact ⟨List.prefix_rfl, [], List.prefix_rfl, hr.trans (List.append_nil _).symm⟩
  | call hw hr hn =>
    refine aside [_] rfl (isLooking_of_turn hw) (isLooking_of_turn hn) ?_ hr
    rw [inHand_of_turn hw, inHand_of_turn hn]
    exact List.prefix_rfl
  | finish hw hr hn =>
    refine aside [] rfl (isLooking_of_turn hw) (isLooking_of_idle hn) ?_
      (hr.trans (List.append_nil _).symm)
    rw [inHand_of_idle hn]
    exact List.nil_prefix
  | fail hw hr hn =>
    have hnot : v.isLooking r = false := by
      rw [isLooking, hn]
      split <;> rfl
    have hempty : v.inHand r = [] := by
      rw [inHand, hn]
      split <;> rfl
    refine aside [] rfl (isLooking_of_turn hw) hnot ?_ (hr.trans (List.append_nil _).symm)
    rw [hempty]
    exact List.nil_prefix
  | cancel hw hr hn =>
    refine aside [] rfl (isLooking_of_turn hw) (isLooking_of_idle hn) ?_
      (hr.trans (List.append_nil _).symm)
    rw [inHand_of_idle hn]
    exact List.nil_prefix

theorem step (h : Over calls r s u taken) (hs : u.Sound) (hv : u.step calls m = some v) :
    Over calls r s v (taken ++ u.taken r m) := by
  obtain ⟨old, slot, -, hslot, hc, -⟩ := h.slot
  obtain ⟨hnext, more, hdue, hmore⟩ := h.due_step hs hv
  obtain ⟨made, hmade, hreceived⟩ := h.made
  refine ⟨h.slot_step hs hv, (stays_over hs hslot hc h.posted hv).1, ?_, made ++ more, ?_, ?_⟩
  · rw [List.append_assoc]
    exact ((List.prefix_append_right_inj taken).2 hnext).trans h.taken
  · rw [List.append_assoc]
    exact ((List.prefix_append_right_inj made).2 hdue).trans hmade
  · rw [hmore, hreceived, List.append_assoc]

theorem under (h : Over calls r s u taken) (takes : Bool) : Over calls r s (u.under takes) taken := by
  obtain ⟨hn, hd⟩ := due_congr (u := u.under takes) (t := u) (r := r) calls rfl rfl
  exact ⟨h.slot, h.posted, hn ▸ h.taken, hd ▸ h.made⟩

theorem pass (h : Over calls r s u taken) (hs : u.Sound) {m : Moment κ}
    (hv : u.pass calls m = some v) : Over calls r s v (taken ++ (u.under m.takes).taken r m.move) :=
  (h.under m.takes).step (hs.under m.takes) hv

theorem passAll (h : Over calls r s u taken) (hs : u.Sound) {moments : List (Moment κ)}
    (hv : u.passAll calls moments = some v) :
    Over calls r s v (taken ++ u.takings calls r moments) := by
  induction moments generalizing u taken with
  | nil =>
    obtain rfl := Option.some.inj hv
    exact (List.append_nil taken).symm ▸ h
  | cons m rest ih =>
    obtain ⟨w, hw, hrest⟩ := passAll_cons hv
    have hg : u.takings calls r (m :: rest) =
        (u.under m.takes).taken r m.move ++ w.takings calls r rest := gather_cons hw
    rw [hg, ← List.append_assoc]
    exact ih (h.pass hs hw) (hs.pass hw) hrest

/-- a task that may look ends by it -/
theorem ends (h : Over calls r s u taken) (hs : u.Sound) (hr : r ∈ u.delivery.executor.tasks)
    (hidle : u.underway[r]? = none) :
    ∃ v, u.step calls (.look r) = some v ∧ r ∉ v.delivery.executor.tasks := by
  obtain ⟨old, slot, -, hslot, hc, -⟩ := h.slot
  have hv : u.step calls (.look r) = some _ := step_look hr hidle
  refine ⟨_, hv, ?_⟩
  rw [(hs.step hv).delivery.mem_tasks_iff, slots_look_of_cancelled hslot hc hv]
  simp

end Over

/-- the first moment of all -/
theorem over_of_cancelled (hslot : s.delivery.slots[r]? = some slot)
    (hnext : t.delivery.slots[r]? = some { slot with cancelled := true }) (hp : t.posting[r]? = none)
    (hn : t.next r = s.next r) (hd : t.due calls r = s.due calls r)
    (hr : t.received r = s.received r) : Over calls r s t [] where
  slot := ⟨slot, _, hslot, hnext, rfl, .inl ⟨rfl, rfl⟩⟩
  posted := hp
  taken := by rw [hn]; exact List.prefix_rfl
  made := ⟨[], by rw [hd]; exact List.prefix_rfl, by rw [hr, List.append_nil]⟩

theorem over_of_remove (hr : (s.delivery.remove r).1 = true)
    (ht : s.step calls (.remove r) = some t) : Over calls r s t [] := by
  rw [Delivery.remove_answer] at hr
  obtain ⟨hp, rfl⟩ := of_remove ht
  obtain ⟨slot, hslot, -⟩ := (Option.any_eq_true _ _).1 hr
  have hnext : (s.delivery.remove r).2.slots[r]? = some { slot with cancelled := true } := by
    rw [Delivery.slots_remove_self hr, hslot]
    rfl
  obtain ⟨hn, hd⟩ := due_congr (u := { s with delivery := (s.delivery.remove r).2 }) (t := s)
    (r := r) calls rfl (by rw [hnext, hslot]; rfl)
  exact over_of_cancelled hslot hnext (getElem?_posting_of_isEmpty hp r) hn hd rfl

/-- the task that cancels its registration has nothing in hand -/
theorem over_of_cancel (hs : s.Sound) (ht : s.step calls (.cancel r) = some t) :
    Over calls r s t [] ∧ s.next r = [] ∧ s.due calls r = [] := by
  obtain ⟨hp, hw, rfl⟩ := of_cancel ht
  obtain ⟨slot, hslot, -⟩ := hs.delivery.slot_of_task (hs.underway r _ hw)
  have hidle : (s.underway.erase r)[r]? = none := Std.ExtTreeMap.getElem?_erase_self
  have hn : s.next r = [] := next_of_not_looking (isLooking_of_turn hw)
  have hd : s.due calls r = [] := by
    rw [due_of_not_looking (isLooking_of_turn hw), inHand_of_turn hw]
    rfl
  refine ⟨over_of_cancelled hslot ?_ (getElem?_posting_of_isEmpty hp r) ?_ ?_ rfl, hn, hd⟩
  · show (s.delivery.cancel r).slots[r]? = _
    rw [Delivery.slots_cancel_self, hslot]
    rfl
  · rw [hn]
    exact next_of_not_looking (isLooking_of_idle hidle)
  · rw [hd, due_of_not_looking (isLooking_of_idle hidle)]
    exact inHand_of_idle hidle

/-! ## after a failure -/

/-- the callback has failed, and the task is about to cancel its registration or has done so -/
def Halted (r : Registration) (u : Traffic κ γ) : Prop :=
  u.underway[r]? = some .failed ∨
    u.underway[r]? = none ∧ u.posting[r]? = none ∧
      ∃ slot, u.delivery.slots[r]? = some slot ∧ slot.cancelled = true

theorem Halted.step (h : Halted r u) (hs : u.Sound) (hv : u.step calls m = some v) :
    Halted r v ∧ u.taken r m = [] ∧ v.received r = u.received r := by
  rcases h with hw | ⟨hw, hp, slot, hslot, hc⟩
  · have impossible : ∀ {turn : Option (Turn γ)},
        u.underway[r]? = turn → turn ≠ some .failed → False := by
      rintro turn rfl hne
      exact hne hw
    cases turn_step r hv with
    | still own hr hn => exact ⟨.inl (hn.trans hw), taken_of_not_turns own, hr⟩
    | look before hr hn => exact (impossible before (by simp)).elim
    | take before hr hn => exact (impossible before (by simp)).elim
    | call before hr hn => exact (impossible before (by simp)).elim
    | finish before hr hn => exact (impossible before (by simp)).elim
    | fail before hr hn => exact (impossible before (by simp)).elim
    | cancel before hr hn =>
      obtain ⟨hover, -, -⟩ := over_of_cancel hs hv
      obtain ⟨old, slot, -, hslot, hc, -⟩ := hover.slot
      exact ⟨.inr ⟨hn, hover.posted, slot, hslot, hc⟩, rfl, hr⟩
  · have hreg : u.delivery.isRegistered r = false := by
      rw [Delivery.isRegistered, hslot]
      simp [hc]
    have idle : ∀ {turn : Turn γ}, u.underway[r]? = some turn → False := by
      intro turn h
      rw [hw] at h
      cases h
    obtain ⟨hposted, hkept⟩ := stays_over hs hslot hc hp hv
    cases turn_step r hv with
    | still own hr hn =>
      refine ⟨.inr ⟨hn.trans hw, hposted, slot, hkept ?_ ?_, hc⟩, taken_of_not_turns own, hr⟩
      · rintro rfl
        exact absurd own (by simp [Move.turns])
      · rintro rfl
        exact absurd own (by simp [Move.turns])
    | look before hr hn =>
      rw [hreg] at hn
      exact ⟨.inr ⟨hn, hposted, _, slots_look_of_cancelled hslot hc hv, hc⟩, rfl, hr⟩
    | take before hr hn => exact (idle before).elim
    | call before hr hn => exact (idle before).elim
    | finish before hr hn => exact (idle before).elim
    | fail before hr hn => exact (idle before).elim
    | cancel before hr hn => exact (idle before).elim

theorem Halted.passAll (h : Halted r u) (hs : u.Sound) {moments : List (Moment κ)}
    (hv : u.passAll calls moments = some v) :
    Halted r v ∧ u.takings calls r moments = [] ∧ v.received r = u.received r := by
  induction moments generalizing u with
  | nil =>
    obtain rfl := Option.some.inj hv
    exact ⟨h, rfl, rfl⟩
  | cons m rest ih =>
    obtain ⟨w, hw, hrest⟩ := passAll_cons hv
    have hstep : Halted r w ∧ (u.under m.takes).taken r m.move = [] ∧ w.received r = u.received r :=
      Halted.step (u := u.under m.takes) h (hs.under m.takes) hw
    obtain ⟨hhalted, htaken, hr⟩ := hstep
    obtain ⟨hend, htakings, hlater⟩ := ih hhalted (hs.pass hw) hrest
    have hg : u.takings calls r (m :: rest) =
        (u.under m.takes).taken r m.move ++ w.takings calls r rest := gather_cons hw
    exact ⟨hend, by rw [hg, htaken, htakings]; rfl, hlater.trans hr⟩

/-- a task that is out no more has cancelled the registration and dropped the queue -/
theorem Halted.ended (h : Halted r u) (hs : u.Sound) (hr : r ∉ u.delivery.executor.tasks) :
    ∃ slot, u.delivery.slots[r]? = some slot ∧ slot = ⟨[], false, true⟩ := by
  rcases h with hw | ⟨-, -, slot, hslot, hc⟩
  · exact absurd (hs.underway r _ hw) hr
  · have hpending : slot.pending = [] := hs.delivery.pending_eq_nil hslot hr
    rw [hs.delivery.mem_tasks_iff, hslot] at hr
    have hdraining : slot.draining = false := eq_false_of_ne_true hr
    obtain ⟨pending, draining, cancelled⟩ := slot
    obtain rfl : pending = [] := hpending
    obtain rfl : draining = false := hdraining
    obtain rfl : cancelled = true := hc
    exact ⟨_, hslot, rfl⟩

end

/-! ## everyone else -/

namespace AlikeBut

variable {calls : κ → List γ} {t u t' u' : Traffic κ γ} {r : Registration} {m : Moment κ}

/-- the drain task lets go of its queue, if it has it locked -/
theorem exists_let_go (v : Traffic κ γ) (calls : κ → List γ) (r : Registration) :
    ∃ (moves : List (Moment κ)) (w : Traffic κ γ), v.passAll calls moves = some w ∧
      (∀ n ∈ moves, n.move.concerns r = true) ∧ w.isLooking r = false ∧ w.posting = v.posting := by
  cases hl : v.isLooking r with
  | false => exact ⟨[], v, rfl, List.forall_mem_nil _, hl, rfl⟩
  | true =>
    obtain ⟨turn, hw, hturn⟩ := (Option.any_eq_true _ _).1 hl
    have hw : (v.under true).underway[r]? = some .looking := by
      cases turn with
      | looking => exact hw
      | inHand begun left => cases hturn
      | failed => cases hturn
    obtain ⟨w, htake⟩ : ∃ w, v.pass calls ⟨true, .take r⟩ = some w := ⟨_, step_take hw⟩
    refine ⟨[⟨true, .take r⟩], w, ?_, ?_, ?_, ?_⟩
    · rw [Traffic.passAll, htake]
      rfl
    · intro n hn
      rw [List.mem_singleton.1 hn]
      exact decide_eq_true rfl
    · cases turn_step r htake with
      | still own hr hn => exact absurd own (by simp [Move.turns])
      | take before hr hn =>
        rw [isLooking, hn]
        cases ((v.under true).delivery.pop r).1 <;> rfl
    · obtain ⟨-, rfl⟩ := of_take htake
      rfl

/-- what is handed in for everyone is queued for the registration at once -/
theorem exists_pass (h : AlikeBut r t u) (hnone : t.posting[r]? = none) (hst : t.Sound)
    (hsu : u.Sound) (hp : u.posting[r]? = none) (hm : m.move.concerns r = false)
    (ht : t.pass calls m = some t') : ∃ other u', u.passAll calls (m :: other) = some u' ∧
      apart r other = [] ∧ AlikeBut r t' u' ∧ u'.posting[r]? = none := by
  obtain ⟨v, hv⟩ : ∃ v, u.pass calls m = some v :=
    (h.under m.takes).exists_step (hst.under m.takes) (hsu.under m.takes) (hnone.trans hp.symm) hm ht
  have halike : AlikeBut r t' v := h.pass ht hv
  cases hc : v.posting[r]? with
  | none => exact ⟨[], v, by rw [Traffic.passAll, hv]; rfl, rfl, halike, hc⟩
  | some c =>
    obtain ⟨moves, w, hw, hmoves, hl, hposting⟩ := exists_let_go v calls r
    have hpost : ∃ x, w.pass calls ⟨true, .post r⟩ = some x ∧ x.posting[r]? = none := by
      have hc : (w.under true).posting[r]? = some c := by
        show w.posting[r]? = _
        rw [hposting, hc]
      have hl : (w.under true).isLooking r = false := hl
      rw [Traffic.pass, step, hc, hl]
      exact ⟨_, rfl, Std.ExtTreeMap.getElem?_erase_self⟩
    obtain ⟨x, hx, hn⟩ := hpost
    have hown : ∀ n ∈ moves ++ [⟨true, .post r⟩], n.move.concerns r = true := by
      intro n hn
      rcases List.mem_append.1 hn with hn | hn
      · exact hmoves n hn
      · rw [List.mem_singleton.1 hn]
        exact decide_eq_true rfl
    have hall : v.passAll calls (moves ++ [⟨true, .post r⟩]) = some x := by
      rw [passAll_append, hw, Option.bind_some, Traffic.passAll, hx]
      rfl
    refine ⟨moves ++ [⟨true, .post r⟩], x, ?_, ?_, ?_, hn⟩
    · rw [Traffic.passAll, hv]
      exact hall
    · exact List.filter_eq_nil_iff.2 fun n hn => by simp [hown n hn]
    · exact halike.trans (of_all_concern hown hall).symm

theorem exists_passAll {s : Traffic κ γ} {taken : List κ} {l : List (Moment κ)}
    (h : AlikeBut r t u) (hover : Over calls r s t taken) (hst : t.Sound) (hsu : u.Sound)
    (hp : u.posting[r]? = none) (ht : t.passAll calls l = some t') :
    ∃ k u', u.passAll calls k = some u' ∧ apart r k = apart r l := by
  induction l generalizing t u taken with
  | nil => exact ⟨[], u, rfl, rfl⟩
  | cons m l ih =>
    obtain ⟨v, hv, hl⟩ := passAll_cons ht
    by_cases hm : m.move.concerns r = true
    · obtain ⟨k, u', hk, he⟩ :=
        ih ((of_concerns hm hv).trans h) (hover.pass hst hv) (hst.pass hv) hsu hp hl
      exact ⟨k, u', hk, he.trans (by simp [apart, hm])⟩
    · obtain ⟨first, w, hw, hfirst, halike, hposted⟩ :=
        h.exists_pass hover.posted hst hsu hp (eq_false_of_ne_true hm) hv
      obtain ⟨k, u', hk, he⟩ :=
        ih halike (hover.pass hst hv) (hst.pass hv) (hsu.passAll hw) hposted hl
      refine ⟨m :: first ++ k, u', ?_, ?_⟩
      · rw [passAll_append, hw]
        exact hk
      · have hcut : apart r (m :: first ++ k) = m :: (apart r first ++ apart r k) := by
          simp [apart, hm]
        rw [hcut, hfirst, he]
        simp [apart, hm]

end AlikeBut

/-! ## every removal -/

section
variable {calls : κ → List γ} {s t : Traffic κ γ} {r : Registration} {m : Moment κ}

/-- the registration is removed, or it is cancelled for a failure -/
def Leaves (s : Traffic κ γ) (r : Registration) (m : Move κ) : Prop :=
  m = .remove r ∧ (s.delivery.remove r).1 = true ∨ m = .cancel r

theorem over_of_pass (hs : s.Sound) (hm : s.Leaves r m.move) (ht : s.pass calls m = some t) :
    m.move.concerns r = true ∧ s.posting[r]? = none ∧ Over calls r s t [] ∧
      (m.move = .cancel r → s.next r = [] ∧ s.due calls r = []) := by
  obtain ⟨takes, move⟩ := m
  obtain ⟨hn, hd⟩ := due_congr (u := s.under takes) (t := s) (r := r) calls rfl rfl
  have here : Over calls r (s.under takes) t [] → Over calls r s t [] := fun h =>
    ⟨h.slot, h.posted, hn ▸ h.taken, hd ▸ h.made⟩
  obtain ⟨rfl, hremoved⟩ | rfl := hm
  · have hremoved : ((s.under takes).delivery.remove r).1 = true := by
      rw [Delivery.remove_answer] at hremoved ⊢
      exact hremoved
    obtain ⟨hidle, -⟩ := of_remove ht
    refine ⟨decide_eq_true rfl, getElem?_posting_of_isEmpty hidle r,
      here (over_of_remove hremoved ht), fun h => by cases h⟩
  · obtain ⟨hover, hnext, hdue⟩ := over_of_cancel (hs.under takes) ht
    obtain ⟨hidle, -⟩ := of_cancel ht
    exact ⟨decide_eq_true rfl, getElem?_posting_of_isEmpty hidle r, here hover,
      fun _ => ⟨hn ▸ hnext, hd ▸ hdue⟩⟩

theorem Sound.idle_slot {slot : Slot κ} (hs : s.Sound) (hslot : s.delivery.slots[r]? = some slot)
    (hr : r ∉ s.delivery.executor.tasks) : slot.pending = [] ∧ slot.draining = false := by
  refine ⟨hs.delivery.pending_eq_nil hslot hr, ?_⟩
  rw [hs.delivery.mem_tasks_iff, hslot] at hr
  exact eq_false_of_ne_true hr

end

/-! ## operations -/

section
variable {calls : κ → List γ} {s t u : Traffic κ γ} {r : Registration}

/-- the operation ends the registration -/
def Departs (s : Traffic κ γ) (r : Registration) (o : Operation κ) : Prop :=
  o = .remove r ∧ (s.delivery.remove r).1 = true ∨
    (∃ failure, o = .settle r (some failure)) ∧ s.delivery.policy = .cancel

theorem Departs.under {o : Operation κ} (h : s.Departs r o) (takes : Bool) :
    (s.under takes).Departs r o := by
  refine h.imp_left fun ⟨ho, hr⟩ => ⟨ho, ?_⟩
  rw [Delivery.remove_answer] at hr ⊢
  exact hr

theorem Departs.concerns {o : Operation κ} (h : s.Departs r o) :
    ∀ m ∈ o.moves s, m.concerns r = true := by
  obtain ⟨rfl, -⟩ | ⟨⟨failure, rfl⟩, hp⟩ := h
  · intro m hm
    obtain rfl := List.mem_singleton.1 hm
    exact decide_eq_true rfl
  · rw [Operation.moves, Operation.rest, if_pos hp]
    intro m hm
    rcases List.mem_cons.1 hm with rfl | hm
    · exact decide_eq_true rfl
    · obtain rfl := List.mem_singleton.1 hm
      exact decide_eq_true rfl

/-- where nothing is locked, no callback is about to be taken out -/
theorem over_of_perform (hs : s.Sound) (hf : s.IsFree) {o : Operation κ} (ho : s.Departs r o)
    (ht : s.perform calls o = some t) : ∃ w : Traffic κ γ,
      w.delivery.slots[r]? = s.delivery.slots[r]? ∧ w.received r = s.received r ∧ w.next r = [] ∧
      w.due calls r <+: s.inHand r ∧
      ((∃ failure, o = .settle r (some failure)) → w.due calls r = []) ∧ Over calls r w t [] := by
  obtain ⟨rfl, hr⟩ | ⟨⟨failure, rfl⟩, hp⟩ := ho
  · have hstep : s.step calls (.remove r) = some t := (if_pos hf.registry).trans ht
    have hdue : s.due calls r = s.inHand r := due_of_not_looking (hf.queues r)
    exact ⟨s, rfl, rfl, next_of_not_looking (hf.queues r), hdue ▸ List.prefix_rfl, nofun,
      over_of_remove hr hstep⟩
  · obtain ⟨turn, hw, hm, rfl⟩ := of_settle ht
    obtain ⟨left, rfl⟩ := Turn.of_mayEnd_some hm
    have hrun : s.run calls _ = _ := run_settle hf.registry hw failure
    rw [if_pos hp] at hrun
    obtain ⟨w, hfail, hrun⟩ := Option.bind_eq_some_iff.1 hrun
    obtain ⟨v, hcancel, hv⟩ := Option.bind_eq_some_iff.1 hrun
    obtain rfl := Option.some.inj hv
    obtain ⟨hover, hnext, hdue⟩ := over_of_cancel (hs.step hfail) hcancel
    obtain ⟨_, -, hfailed⟩ := of_fail hfail
    refine ⟨w, ?_, ?_, hnext, hdue ▸ List.nil_prefix, fun _ => hdue, hover⟩
    · rw [hfailed]
      rfl
    · rw [hfailed]
      rfl

/-- **Nothing after removal**, where operations are performed one after the other -/
theorem nothing_started (hs : s.Sound) (hf : s.IsFree) {o : Occasion κ} {later : List (Occasion κ)}
    (ho : s.Departs r o.operation) (hu : s.performAll calls (o :: later) = some u) :
    (∃ made, made <+: s.inHand r ∧ u.received r = s.received r ++ made ∧
      ((∃ failure, o.operation = .settle r (some failure)) → made = [])) ∧
    ∃ old slot, s.delivery.slots[r]? = some old ∧ u.delivery.slots[r]? = some slot ∧
      slot.cancelled = true ∧ (slot.pending = old.pending ∧ slot.draining = old.draining ∨
        slot.pending = [] ∧ slot.draining = false) ∧
      (r ∉ u.delivery.executor.tasks → slot.pending = [] ∧ slot.draining = false) := by
  obtain ⟨t, ht, hl⟩ := performAll_cons hu
  have hst : t.Sound := hs.passAll (hf.passAll_moments ht)
  have hpass : t.passAll calls (t.momentsOf calls later) = some u :=
    (((hf.under o.takes).perform ht).passAll_momentsOf hl).1
  obtain ⟨w, hslots, hbefore, hnext, hdue, hsettle, hover⟩ :=
    over_of_perform (hs.under o.takes) (hf.under o.takes) (ho.under o.takes) ht
  have hlater := hover.passAll hst hpass
  have htakings : t.takings calls r (t.momentsOf calls later) = [] := by
    have htaken := hlater.taken
    rw [hnext, List.nil_append] at htaken
    exact (List.append_eq_nil_iff.1 (List.prefix_nil.1 htaken)).1
  obtain ⟨old, slot, hold, hslot, hc, hkept⟩ := hlater.slot
  obtain ⟨made, hmade, hreceived⟩ := hlater.made
  rw [htakings] at hkept
  have hmade : made <+: w.due calls r := (List.prefix_append _ _).trans hmade
  refine ⟨⟨made, hmade.trans hdue, hreceived.trans (by rw [hbefore]; rfl), fun hf => ?_⟩,
    old, slot, hslots.symm.trans hold, hslot, hc, hkept, (hst.passAll hpass).idle_slot hslot⟩
  rw [hsettle hf] at hmade
  exact List.prefix_nil.1 hmade

end

/-- **Nothing after removal, but for what is under way.**  Once a call of a registration has failed
under the policy that cancels for that, its drain task takes no other callback out and makes no other
call, whatever is queued; and by the time the task has ended, the registration is cancelled and the queue
is dropped.

From its removal on, or from this cancelling, nothing is queued for the registration any more.  Its drain
task takes out at most the one callback that it was about to, having looked before the removal; of that
one and of the callback in hand it may make the calls left, and it makes no others; it ends when it next
looks, and has then dropped the queue.  A task that cancels its registration is about to do nothing more.

The others have the same slots, the same callbacks to come and in hand and the same calls as before, and
as they would have had without it.

Where operations of the delivery are performed one after the other, nobody has looked: no callback is
taken out any more, and only the calls left of the one in hand may be made, none if it has failed. -/
theorem nothing_after_removal (calls : κ → List γ) (policy : FailurePolicy)
    (before : List (Moment κ)) (s : Traffic κ γ)
    (hs : (start policy).passAll calls before = some s) (r : Registration) :
    (∀ takes failure t, policy = .cancel → s.pass calls ⟨takes, .fail r failure⟩ = some t →
      (∀ q, r ≠ q → t.share q = s.share q) ∧
      ∀ later u, t.passAll calls later = some u →
        t.takings calls r later = [] ∧ u.received r = s.received r ∧
        (r ∉ u.delivery.executor.tasks →
          ∃ slot, u.delivery.slots[r]? = some slot ∧ slot = ⟨[], false, true⟩)) ∧
    (∀ (m : Moment κ) (t : Traffic κ γ), s.Leaves r m.move → s.pass calls m = some t →
      (m.move = .cancel r → s.next r = [] ∧ s.due calls r = []) ∧
      (∀ q, r ≠ q → t.share q = s.share q) ∧
      ∀ later u, t.passAll calls later = some u →
        t.takings calls r later <+: s.next r ∧
        (∃ made, made <+: s.due calls r ∧ u.received r = s.received r ++ made) ∧
        (∃ old slot, s.delivery.slots[r]? = some old ∧ u.delivery.slots[r]? = some slot ∧
          slot.cancelled = true ∧
          (t.takings calls r later ++ slot.pending = old.pending ∧ slot.draining = old.draining ∨
            slot.pending = [] ∧ slot.draining = false) ∧
          (r ∉ u.delivery.executor.tasks → slot.pending = [] ∧ slot.draining = false)) ∧
        u.posting[r]? = none ∧
        (r ∈ u.delivery.executor.tasks → u.underway[r]? = none → ∀ takes, ∃ v,
          u.pass calls ⟨takes, .look r⟩ = some v ∧ r ∉ v.delivery.executor.tasks) ∧
        (∃ other v, s.passAll calls other = some v ∧ apart r other = apart r later) ∧
        ∀ other v, s.passAll calls other = some v → apart r other = apart r later →
          ∀ q, r ≠ q → u.share q = v.share q) ∧
    ∀ (o : Occasion κ), s.IsFree → s.Departs r o.operation →
      (∀ t, s.performAll calls [o] = some t → ∀ q, r ≠ q → t.share q = s.share q) ∧
      ∀ later u, s.performAll calls (o :: later) = some u →
        (∃ made, made <+: s.inHand r ∧ u.received r = s.received r ++ made ∧
          ((∃ failure, o.operation = .settle r (some failure)) → made = [])) ∧
        ∃ old slot, s.delivery.slots[r]? = some old ∧ u.delivery.slots[r]? = some slot ∧
          slot.cancelled = true ∧ (slot.pending = old.pending ∧ slot.draining = old.draining ∨
            slot.pending = [] ∧ slot.draining = false) ∧
          (r ∉ u.delivery.executor.tasks → slot.pending = [] ∧ slot.draining = false) := by
  have hsound : s.Sound := (sound_start policy).passAll hs
  have hpolicy : s.delivery.policy = policy := policy_passAll hs
  refine ⟨fun takes failure t hp ht => ?_, fun m t hm ht => ?_, fun o hf ho =>
    ⟨fun t ht => ?_, fun later u hu => nothing_started hsound hf ho hu⟩⟩
  · have hconcerns : (Move.fail r failure : Move κ).concerns r = true := decide_eq_true rfl
    have halike : AlikeBut r t s :=
      AlikeBut.of_concerns (m := ⟨takes, .fail r failure⟩) hconcerns ht
    have hst : t.Sound := hsound.pass ht
    have hfailed : Halted r t ∧ t.received r = s.received r := by
      obtain ⟨left, -, rfl⟩ := of_fail ht
      refine ⟨.inl ?_, rfl⟩
      have hp : (s.under takes).delivery.policy = .cancel := hpolicy.trans hp
      show (if _ then (s.under takes).underway.insert r .failed else _)[r]? = _
      rw [if_pos hp, Std.ExtTreeMap.getElem?_insert_self]
    refine ⟨halike.shares, fun later u hu => ?_⟩
    obtain ⟨hhalted, htakings, hreceived⟩ := hfailed.1.passAll hst hu
    exact ⟨htakings, hreceived.trans hfailed.2, hhalted.ended (hst.passAll hu)⟩
  · obtain ⟨hconcerns, hposted, hover, hnothing⟩ := over_of_pass hsound hm ht
    have halike : AlikeBut r t s := AlikeBut.of_concerns hconcerns ht
    have hst : t.Sound := hsound.pass ht
    refine ⟨hnothing, halike.shares, fun later u hu => ?_⟩
    have hsu : u.Sound := hst.passAll hu
    have hlater : Over calls r s u (t.takings calls r later) := hover.passAll hst hu
    obtain ⟨old, slot, hold, hslot, hc, hkept⟩ := hlater.slot
    obtain ⟨made, hmade, hreceived⟩ := hlater.made
    refine ⟨(List.prefix_append _ _).trans hlater.taken,
      ⟨made, (List.prefix_append _ _).trans hmade, hreceived⟩,
      ⟨old, slot, hold, hslot, hc, hkept, hsu.idle_slot hslot⟩, hlater.posted,
      fun hr hidle takes => ?_, halike.exists_passAll hover hst hsound hposted hu,
      fun other v hv he => (halike.passAll he.symm hu hv).shares⟩
    have hr : r ∈ (u.under takes).delivery.executor.tasks := by
      rw [tasks_under]
      exact hr
    exact (hlater.under takes).ends (hsu.under takes) hr hidle
  · obtain ⟨v, hv, he⟩ := performAll_cons ht
    obtain rfl := Option.some.inj he
    refine (AlikeBut.of_all_concern (fun m hm => ?_) (hf.passAll_moments hv)).shares
    obtain ⟨n, hn, rfl⟩ := List.mem_map.1 hm
    exact (ho.under o.takes).concerns n hn

/-- a callback that is two calls -/
def twice (n : Nat) : List Nat := [n, n]

/-- two callbacks are queued for two listeners, and the task of the first has just looked -/
def halfway : List (Moment Nat) :=
  always [.register none, .register none, .enqueue 1, .post ⟨1⟩, .post ⟨2⟩, .enqueue 2, .post ⟨1⟩,
    .post ⟨2⟩, .look ⟨1⟩]

/-- the first listener, which has been removed, gets one callback still, and a third one is for the
other listener only -/
def departed : List (Moment Nat) :=
  always [.take ⟨1⟩, .call ⟨1⟩, .enqueue 3, .call ⟨1⟩, .post ⟨2⟩, .finish ⟨1⟩, .look ⟨2⟩, .look ⟨1⟩,
    .take ⟨2⟩, .call ⟨2⟩]

/-- had it not been removed, it would have been queued for both -/
def stayed : List (Moment Nat) :=
  always [.take ⟨1⟩, .enqueue 3, .post ⟨1⟩, .post ⟨2⟩, .look ⟨2⟩, .take ⟨2⟩, .call ⟨2⟩]

def midway : Traffic Nat Nat := ((start .proceed).passAll twice halfway).get (by decide +kernel)

def removed : Traffic Nat Nat := (midway.pass twice ⟨true, .remove ⟨1⟩⟩).get (by decide +kernel)

def afterwards : Traffic Nat Nat := (removed.passAll twice departed).get (by decide +kernel)

def otherwise : Traffic Nat Nat := (midway.passAll twice stayed).get (by decide +kernel)

/-- two callbacks are queued for two listeners, and the first is in the middle of one -/
def orderly : List (Occasion Nat) :=
  [.register none, .register none, .enqueue 1, .enqueue 2, .poll ⟨1⟩, .call ⟨1⟩].map (⟨true, ·⟩)

/-- the first one makes its second call, and then its task ends -/
def dismissed : List (Occasion Nat) :=
  [.enqueue 3, .call ⟨1⟩, .settle ⟨1⟩ none, .poll ⟨2⟩, .poll ⟨1⟩].map (⟨true, ·⟩)

def attended : Traffic Nat Nat := ((start .proceed).performAll twice orderly).get (by decide +kernel)

def dismissal : Traffic Nat Nat :=
  (attended.performAll twice (⟨true, .remove ⟨1⟩⟩ :: dismissed)).get (by decide +kernel)

theorem nothing_after_removal_midway :
    midway.delivery.slots[(⟨1⟩ : Registration)]? = some ⟨[1, 2], true, false⟩ ∧
    removed.takings twice ⟨1⟩ departed <+: [1] ∧ afterwards.received ⟨1⟩ = [1, 1] ∧
    (∃ made, made <+: [1, 1] ∧ afterwards.received ⟨1⟩ = midway.received ⟨1⟩ ++ made) ∧
    (∃ slot, afterwards.delivery.slots[(⟨1⟩ : Registration)]? = some slot ∧ slot.pending = []) ∧
    afterwards.share ⟨2⟩ = otherwise.share ⟨2⟩ ∧
    attended.delivery.slots[(⟨1⟩ : Registration)]? = some ⟨[2], true, false⟩ ∧
    dismissal.received ⟨1⟩ = [1, 1] ∧
    ∃ slot, dismissal.delivery.slots[(⟨1⟩ : Registration)]? = some slot ∧ slot.pending = [] := by
  have hattended : (start .proceed).performAll twice orderly = some attended :=
    (Option.some_get _).symm
  obtain ⟨hpass, hfree⟩ := (isFree_start .proceed).passAll_momentsOf hattended
  obtain ⟨-, -, hoperations⟩ := nothing_after_removal twice .proceed _ attended hpass ⟨1⟩
  obtain ⟨-, hdismissed⟩ := hoperations ⟨true, .remove ⟨1⟩⟩ hfree (.inl ⟨rfl, by decide +kernel⟩)
  obtain ⟨-, _, last, -, hlast, -, -, hover⟩ := hdismissed dismissed dismissal (Option.some_get _).symm
  have hgone : (⟨1⟩ : Registration) ∉ dismissal.delivery.executor.tasks := by decide +kernel
  obtain ⟨-, h, -⟩ := nothing_after_removal twice .proceed halfway midway (Option.some_get _).symm ⟨1⟩
  obtain ⟨-, -, h⟩ := h ⟨true, .remove ⟨1⟩⟩ removed (.inl ⟨rfl, by decide +kernel⟩)
    (Option.some_get _).symm
  obtain ⟨htakings, hmade, ⟨old, slot, -, hslot, -, -, hidle⟩, -, -, -, hothers⟩ :=
    h departed afterwards (Option.some_get _).symm
  have hended : (⟨1⟩ : Registration) ∉ afterwards.delivery.executor.tasks := by decide +kernel
  have hnext : midway.next ⟨1⟩ = [1] := by decide +kernel
  have hdue : midway.due twice ⟨1⟩ = [1, 1] := by decide +kernel
  exact ⟨by decide +kernel, hnext ▸ htakings, by decide +kernel, hdue ▸ hmade,
    ⟨slot, hslot, (hidle hended).1⟩,
    hothers stayed otherwise (Option.some_get _).symm rfl ⟨2⟩ (by decide), by decide +kernel,
    by decide +kernel, last, hlast, (hover hgone).1⟩

/-! ## what may come after -/

/-- one callback is queued, and the task has just looked -/
def poised : List (Moment Nat) := always [.register none, .enqueue 1, .post ⟨1⟩, .look ⟨1⟩]

/-- the task has made a call -/
def running : List (Moment Nat) := poised ++ always [.take ⟨1⟩, .call ⟨1⟩]

def reached (calls : Nat → List Nat) (moments : List (Moment Nat))
    (h : ((start .cancel : Traffic Nat Nat).passAll calls moments).isSome) : Traffic Nat Nat :=
  ((start .cancel).passAll calls moments).get h

section
variable {calls : Nat → List Nat} {moments : List (Moment Nat)}

theorem passAll_start (h : ((start .cancel : Traffic Nat Nat).passAll calls moments).isSome) :
    (start .cancel).passAll calls moments = some (reached calls moments h) :=
  (Option.some_get h).symm

theorem pass_reached {h : ((start .cancel : Traffic Nat Nat).passAll calls moments).isSome}
    (m : Moment Nat)
    (hm : ((start .cancel : Traffic Nat Nat).passAll calls (moments ++ [m])).isSome) :
    (reached calls moments h).pass calls m = some (reached calls (moments ++ [m]) hm) := by
  have hall := passAll_start hm
  rw [passAll_append, passAll_start h] at hall
  obtain ⟨s, hs, hl⟩ := passAll_cons hall
  exact hs.trans hl

theorem passAll_reached {h : ((start .cancel : Traffic Nat Nat).passAll calls moments).isSome}
    (later : List (Moment Nat))
    (hl : ((start .cancel : Traffic Nat Nat).passAll calls (moments ++ later)).isSome) :
    (reached calls moments h).passAll calls later = some (reached calls (moments ++ later) hl) := by
  have hall := passAll_start hl
  rw [passAll_append, passAll_start h] at hall
  exact hall

end

/-- a removal keeps the task neither from starting a callback that is queued nor from making the second
call of the one that it is in, and a failure does not keep a callback from being queued until the
registration is cancelled for it -/
theorem started_after_removal :
    (¬ ∀ (before later : List (Moment Nat)) (s t u v : Traffic Nat Nat) (r : Registration)
      (n : Moment Nat), (start .cancel).passAll single before = some s →
      s.pass single ⟨true, .remove r⟩ = some t → (s.delivery.remove r).1 = true →
      t.passAll single later = some u → u.pass single n = some v → u.taken r n.move = []) ∧
    (¬ ∀ (before later : List (Moment Nat)) (s t u : Traffic Nat Nat) (r : Registration),
      (start .cancel).passAll twice before = some s →
      s.pass twice ⟨true, .remove r⟩ = some t → (s.delivery.remove r).1 = true →
      t.passAll twice later = some u → u.received r = t.received r) ∧
    (¬ ∀ (before later : List (Moment Nat)) (s t u v : Traffic Nat Nat) (r : Registration)
      (n : Moment Nat) (failure : Failure), (start .cancel).passAll single before = some s →
      s.pass single ⟨true, .fail r failure⟩ = some t →
      t.passAll single later = some u → u.pass single n = some v →
      ∀ slot next, u.delivery.slots[r]? = some slot → v.delivery.slots[r]? = some next →
        next.pending <:+ slot.pending) := by
  refine ⟨fun h => ?_, fun h => ?_, fun h => ?_⟩
  · have hnone := h poised [] _ _ _ _ ⟨1⟩ ⟨true, .take ⟨1⟩⟩ (passAll_start (by decide +kernel))
      (pass_reached _ (by decide +kernel)) (by decide +kernel) rfl
      (pass_reached _ (by decide +kernel))
    exact absurd hnone (by decide +kernel)
  · have hsame := h running (always [.call ⟨1⟩]) _ _ _ ⟨1⟩ (passAll_start (by decide +kernel))
      (pass_reached _ (by decide +kernel)) (by decide +kernel)
      (passAll_reached _ (by decide +kernel))
    exact absurd hsame (by decide +kernel)
  · have hshrinks := h running (always [.enqueue 2]) _ _ _ _ ⟨1⟩ ⟨true, .post ⟨1⟩⟩ (.returned "no")
      (passAll_start (by decide +kernel)) (pass_reached _ (by decide +kernel))
      (passAll_reached _ (by decide +kernel)) (pass_reached _ (by decide +kernel))
      ⟨[], true, false⟩ ⟨[2], true, false⟩ (by decide +kernel) (by decide +kernel)
    exact absurd hshrinks (by decide)

end Traffic

end OverlayWatch
