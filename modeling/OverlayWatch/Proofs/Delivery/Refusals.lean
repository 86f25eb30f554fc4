import OverlayWatch.Proofs.Delivery.Operations
import OverlayWatch.Proofs.Delivery.Trail

/-!
# What an executor that refuses tasks costs

The executor may take in one task and refuse the next.  Each refusal is logged, with the number of
callbacks that it has cost, and this is always one.

* `Delivery.refusals`          the refusals that were logged for a registration;
* `refusals_step`              one for each refused callback, and each counts a single one;
* `Attendance.keeping`         what a listener has kept of all that it was promised;
* `Attendance.refusals_exact`  all of this, for any listener in any run.
-/

namespace OverlayWatch

variable {κ γ : Type}

/-! ## what is logged -/

/-- the event says that a task of the registration has been refused -/
def Event.refuses (r : Registration) : Event → Bool
  | .notScheduled q _ _ => q = r
  | _ => false

/-- of a refusal, that it has cost one callback -/
def Handover.logged (r : Registration) (h : Handover κ) : List Event :=
  if h.fate = .refused then [.notScheduled r 1 Executor.refusal.message] else []

namespace Delivery

def refusals (d : Delivery κ) (r : Registration) : List Event := d.journal.filter (Event.refuses r)

variable (d : Delivery κ) (c : κ) (q r : Registration)

theorem refusals_noteAll {events : List Event} (h : ∀ event ∈ events, event.refuses r = false) :
    (d.noteAll events).refusals r = d.refusals r := by
  have hn : events.filter (Event.refuses r) = [] :=
    List.filter_eq_nil_iff.2 fun event he => by simp [h event he]
  show (d.journal ++ events).filter (Event.refuses r) = _
  rw [List.filter_append, hn, List.append_nil, refusals]

theorem refusals_note {event : Event} (h : event.refuses r = false) :
    (d.note event).refusals r = d.refusals r :=
  d.refusals_noteAll r fun e he => by rwa [List.mem_singleton.1 he]

theorem refusals_push_of_ne {q r : Registration} (h : q ≠ r) :
    (d.push c q).refusals r = d.refusals r := by
  unfold push
  split
  · rfl
  · split
    · rfl
    · split
      · rfl
      · rw [refusals_note _ _ (by simp [Event.refuses, h])]
        rfl

/-- nothing else waits where a task is refused -/
theorem refusals_push_self {r : Registration} {slot : Slot κ} (hs : d.slots[r]? = some slot)
    (idle : slot.draining = false → slot.pending = []) : (d.push c r).refusals r
      = d.refusals r ++ Handover.logged r ⟨c, slot.fate (d.executor.accepts r)⟩ := by
  unfold push Handover.logged
  rw [hs]
  cases hd : slot.draining with
  | true => simp [Slot.fate, hd, refusals, setSlot]
  | false =>
    cases ha : d.executor.accepts r with
    | true => simp [Slot.fate, hd, refusals, setSlot]
    | false => simp [Slot.fate, hd, refusals, setSlot, note, idle hd, Event.refuses]

theorem refusals_cancel : (d.cancel q).refusals r = d.refusals r := by
  unfold cancel
  split <;> rfl

theorem refusals_remove : (d.remove q).2.refusals r = d.refusals r := by
  unfold remove
  split
  · rw [refusals_note _ _ rfl, refusals_cancel]
  · rfl

theorem refusals_of_works {d e : Delivery κ} {q : Registration} (h : Works q d e)
    (r : Registration) : e.refusals r = d.refusals r := by
  rw [refusals, refusals, h.journal]

theorem refusals_fail (failure : Failure) : (d.fail q failure).refusals r = d.refusals r :=
  refusals_note _ _ rfl

end Delivery

namespace Traffic

/-- the owner of the delivery does not log such refusals itself -/
def Move.Honest (r : Registration) : Move κ → Prop
  | .note events => ∀ event ∈ events, event.refuses r = false
  | _ => True

instance (r : Registration) : (m : Move κ) → Decidable (m.Honest r)
  | .note events => inferInstanceAs (Decidable (∀ event ∈ events, event.refuses r = false))
  | .register _ => .isTrue trivial
  | .remove _ => .isTrue trivial
  | .enqueue _ => .isTrue trivial
  | .post _ => .isTrue trivial
  | .look _ => .isTrue trivial
  | .take _ => .isTrue trivial
  | .call _ => .isTrue trivial
  | .finish _ => .isTrue trivial
  | .fail _ _ => .isTrue trivial
  | .cancel _ => .isTrue trivial

/-- nor does whoever performs an operation -/
def Operation.Honest (r : Registration) : Operation κ → Prop
  | .note events => ∀ event ∈ events, event.refuses r = false
  | _ => True

section
variable {calls : κ → List γ} {t u : Traffic κ γ} {r : Registration}

theorem Operation.Honest.moves {o : Operation κ} (h : o.Honest r) (t : Traffic κ γ) :
    ∀ m ∈ o.moves t, m.Honest r := by
  intro m hm
  rcases List.mem_cons.1 hm with rfl | hm
  · cases o with
    | settle q outcome => cases outcome <;> trivial
    | _ => exact h
  · have hgoes := Operation.goesOn_of_mem_rest hm
    cases m with
    | note events => cases hgoes
    | _ => trivial

theorem honest_momentsOf {occasions : List (Occasion κ)}
    (h : ∀ o ∈ occasions, o.operation.Honest r) (hu : t.performAll calls occasions = some u) :
    ∀ m ∈ t.momentsOf calls occasions, m.move.Honest r := by
  induction occasions generalizing t with
  | nil =>
    intro m hm
    cases hm
  | cons o rest ih =>
    obtain ⟨s, hs, hl⟩ := performAll_cons hu
    rw [momentsOf_cons hs]
    intro m hm
    rcases List.mem_append.1 hm with hm | hm
    · obtain ⟨k, hk, rfl⟩ := List.mem_map.1 hm
      exact (h o List.mem_cons_self).moves _ k hk
    · exact ih (fun k hk => h k (List.mem_cons_of_mem o hk)) hl m hm

theorem refusals_register (initial : Option κ) : (t.delivery.register initial).2.refusals r
    = t.delivery.refusals r ++ (t.handed r (.register initial)).flatMap (Handover.logged r) := by
  cases initial with
  | none =>
    show (Delivery.note _ _).refusals r = _ ++ []
    rw [Delivery.refusals_note _ _ rfl, List.append_nil]
    rfl
  | some c =>
    show (Delivery.note (Delivery.push _ _ _) _).refusals r = _
    rw [Delivery.refusals_note _ _ rfl]
    by_cases hr : r = ⟨t.delivery.issued + 1⟩
    · subst hr
      have hfresh : (t.delivery.setSlot ⟨t.delivery.issued + 1⟩ .fresh).slots[
          (⟨t.delivery.issued + 1⟩ : Registration)]? = some .fresh :=
        Delivery.getElem?_slots_setSlot_self _ _ _
      rw [handed_register_self, List.flatMap_cons, List.flatMap_nil, List.append_nil]
      exact Delivery.refusals_push_self { t.delivery.setSlot _ .fresh with issued := _ } c hfresh
        fun _ => rfl
    · rw [Delivery.refusals_push_of_ne _ _ (Ne.symm hr), handed_register_of_ne hr]
      exact (List.append_nil _).symm

theorem refusals_step (hs : t.Sound) {m : Move κ} (hm : m.Honest r)
    (hu : t.step calls m = some u) : u.delivery.refusals r
      = t.delivery.refusals r ++ (t.handed r m).flatMap (Handover.logged r) := by
  rw [delivery_step hu]
  cases m with
  | register initial => exact refusals_register initial
  | remove q =>
    rw [effect, Delivery.refusals_remove]
    exact (List.append_nil _).symm
  | enqueue c => exact (List.append_nil _).symm
  | post q =>
    obtain ⟨c, hc, -, -⟩ := of_post hu
    rw [effect_post hc]
    by_cases e : q = r
    · subst e
      cases hslot : t.delivery.slots[q]? with
      | none => simp [handed, hslot, Delivery.push]
      | some slot =>
        rw [handed_post hc hslot, Delivery.refusals_push_self _ _ hslot (hs.delivery.idle q slot hslot)]
        simp
    · rw [handed_post_of_ne e, Delivery.refusals_push_of_ne _ _ e]
      exact (List.append_nil _).symm
  | look q =>
    rw [effect, Delivery.refusals_of_works (t.delivery.works_look q)]
    exact (List.append_nil _).symm
  | take q =>
    rw [effect, Delivery.refusals_of_works (t.delivery.works_pop q)]
    exact (List.append_nil _).symm
  | call q => exact (List.append_nil _).symm
  | finish q => exact (List.append_nil _).symm
  | fail q failure =>
    rw [effect, Delivery.refusals_fail]
    exact (List.append_nil _).symm
  | cancel q =>
    rw [effect, Delivery.refusals_cancel]
    exact (List.append_nil _).symm
  | note events =>
    rw [effect, Delivery.refusals_noteAll _ _ hm]
    exact (List.append_nil _).symm

theorem refusals_passAll {moments : List (Moment κ)} (hs : t.Sound)
    (hm : ∀ m ∈ moments, m.move.Honest r) (hu : t.passAll calls moments = some u) :
    u.delivery.refusals r
      = t.delivery.refusals r ++ (t.trail calls r moments).flatMap (Handover.logged r) := by
  induction moments generalizing t with
  | nil =>
    obtain rfl := Option.some.inj hu
    exact (List.append_nil _).symm
  | cons m rest ih =>
    obtain ⟨s, hp, hl⟩ := passAll_cons hu
    have hfirst : s.delivery.refusals r = (t.under m.takes).delivery.refusals r ++ _ :=
      refusals_step (hs.under _) (hm m List.mem_cons_self) hp
    rw [ih (hs.pass hp) (fun n hn => hm n (List.mem_cons_of_mem m hn)) hl, hfirst, trail_cons hp,
      List.flatMap_append, List.append_assoc]
    rfl

/-- nothing is handed to a registration that is still to come -/
theorem trail_eq_nil {moments : List (Moment κ)} (hs : t.Sound)
    (hu : t.passAll calls moments = some u) (hr : u.delivery.issued < r.number) :
    t.trail calls r moments = [] := by
  induction moments generalizing t with
  | nil => rfl
  | cons m rest ih =>
    obtain ⟨s, hp, hl⟩ := passAll_cons hu
    have hlater : s.delivery.issued ≤ u.delivery.issued := issued_passAll hl
    have hfirst : (t.under m.takes).delivery.issued ≤ s.delivery.issued := issued_step hp
    rw [trail_cons hp, ih (hs.pass hp) hl, List.append_nil]
    rcases handed_cases (t.under m.takes) r m.move with hn | ⟨c, slot, -, hslot | ⟨rfl, -, initial, hm⟩⟩
    · exact hn
    · have hknown := (hs.under m.takes).delivery.issued r slot hslot
      omega
    · have hp : (t.under m.takes).step calls m.move = some s := hp
      rw [hm] at hp
      obtain ⟨-, rfl⟩ := of_register hp
      rw [Delivery.issued_register] at hlater
      have hr : u.delivery.issued < (t.under m.takes).delivery.issued + 1 := hr
      omega

end

end Traffic

/-! ## one listener -/

namespace Attendance

open Traffic

variable {policy : FailurePolicy} (a : Attendance policy κ)

/-- the callbacks handed to the listener since it came, and what became of them -/
def trail : List (Handover κ) := a.opening.trail single a.registration a.moments

theorem refusals_eq (hm : ∀ m ∈ a.before ++ a.moments, m.move.Honest a.registration) :
    a.now.delivery.refusals a.registration = a.trail.flatMap (Handover.logged a.registration) := by
  have hbefore : a.opening.delivery.refusals a.registration = _ :=
    refusals_passAll (sound_start policy) (fun m h => hm m (List.mem_append_left _ h)) a.reached
  have hnone : (start policy).trail single a.registration a.before = [] :=
    trail_eq_nil (sound_start policy) a.reached (Nat.lt_succ_self _)
  rw [hnone] at hbefore
  have hsince := refusals_passAll (r := a.registration) a.sound_opening
    (fun m h => hm m (List.mem_append_right _ h)) a.passed
  rw [hsince, hbefore]
  rfl

theorem keeping (hr : a.IsRegistered) :
    Keeping single a.now a.registration (a.trail.flatMap Handover.kept) ∧
    a.trail.map Handover.callback ++ a.now.posting[a.registration]?.toList = a.promised := by
  obtain ⟨s, hp, hl⟩ := passAll_cons a.passed
  have hopening : (a.opening.under a.takes).Sound := a.sound_opening.under _
  have hposting : s.posting[a.registration]? = none := by
    obtain ⟨hposting, rfl⟩ := of_register (t := a.opening.under a.takes) hp
    exact getElem?_posting_of_isEmpty hposting _
  have hfirst : Keeping single s a.registration _ := Keeping.register hopening hp
  obtain ⟨hkeeping, hqueued⟩ := hfirst.passAll (hopening.step hp) (a.single_opening.pass hp) hl hr
  have hcallback : ((a.opening.under a.takes).handed a.registration (.register a.initial)).map
      Handover.callback = a.initial.toList := callback_handed_register _ _
  have htrail : a.trail = _ ++ s.trail single a.registration a.later := trail_cons hp
  rw [htrail]
  constructor
  · rw [hposting] at hqueued
    rw [flatMap_single] at hkeeping
    rw [List.flatMap_append]
    exact hkeeping
  · rw [List.map_append, hcallback, List.append_assoc, hqueued, hposting]
    rfl

/-- the same where operations of the delivery are performed one after the other -/
theorem keeping_of_visit (v : Visit policy κ)
    (hr : v.now.delivery.isRegistered v.registration = true) :
    ∃ (slot : Slot κ) (trail : List (Handover κ)),
      v.now.delivery.slots[v.registration]? = some slot ∧
      trail.map Handover.callback = v.promised ∧
      v.now.received v.registration ++ (v.now.inHand v.registration ++ slot.pending)
        = trail.flatMap Handover.kept ∧
      ((∀ o ∈ v.before ++ v.occasions, o.operation.Honest v.registration) →
        v.now.delivery.refusals v.registration
          = trail.flatMap (Handover.logged v.registration)) := by
  have hfree : v.now.IsFree := (v.isFree_opening.passAll_momentsOf v.performed).2
  obtain ⟨⟨slot, hslot, -, hkept⟩, hpromised⟩ := v.attendance.keeping hr
  have hposting : v.attendance.now.posting[v.registration]? = none :=
    getElem?_posting_of_isEmpty hfree.registry _
  have hpromised : v.attendance.trail.map Handover.callback ++
      v.attendance.now.posting[v.registration]?.toList = v.attendance.promised := hpromised
  rw [hposting, v.promised_attendance] at hpromised
  rw [flatMap_single] at hkept
  refine ⟨slot, v.attendance.trail, hslot, (List.append_nil _).symm.trans hpromised, hkept,
    fun hm => v.attendance.refusals_eq fun m h => ?_⟩
  rcases List.mem_append.1 h with h | h
  · exact honest_momentsOf (fun o ho => hm o (List.mem_append_left _ ho)) v.reached m h
  · exact honest_momentsOf (fun o ho => hm o (List.mem_append_right _ ho)) v.performed m h

/-- **A refused task costs the callback that it was for, and nothing else.**  At every moment of every
run a slot is draining exactly if one task of it is out, there are never two, and nothing waits at a
slot that is not draining.  Every refusal is logged as the loss of one callback; and a listener that is
still registered has received, or will be given, all callbacks handed in since it came but those that
were refused, in their order: the first ones of them if no task is taken in after one was refused.  So
it is with the callbacks that the operations of the delivery enqueue, performed one after the other. -/
theorem refusals_exact (policy : FailurePolicy) :
    (∀ (moments : List (Moment κ)) (t : Traffic κ κ),
      (start policy).passAll single moments = some t →
      ∀ (r : Registration) (slot : Slot κ), t.delivery.slots[r]? = some slot →
        (slot.draining = true ↔ t.delivery.executor.tasks.count r = 1) ∧
        t.delivery.executor.tasks.count r ≤ 1 ∧
        (slot.draining = false → slot.pending = [])) ∧
    (∀ a : Attendance policy κ,
      ((∀ m ∈ a.before ++ a.moments, m.move.Honest a.registration) →
        a.now.delivery.refusals a.registration
          = a.trail.flatMap (Handover.logged a.registration)) ∧
      (a.IsRegistered → ∃ slot, a.now.delivery.slots[a.registration]? = some slot ∧
        let kept := a.received ++ (a.now.inHand a.registration ++ slot.pending)
        a.trail.map Handover.callback ++ a.now.posting[a.registration]?.toList = a.promised ∧
        kept = a.trail.flatMap Handover.kept ∧
        ((a.trail.Pairwise fun h k => h.fate = .refused → k.fate ≠ .submitted) →
          kept <+: a.promised))) ∧
    ∀ v : Visit policy κ, v.now.delivery.isRegistered v.registration = true →
      ∃ (slot : Slot κ) (trail : List (Handover κ)),
        v.now.delivery.slots[v.registration]? = some slot ∧
        trail.map Handover.callback = v.promised ∧
        v.now.received v.registration ++ (v.now.inHand v.registration ++ slot.pending)
          = trail.flatMap Handover.kept ∧
        ((∀ o ∈ v.before ++ v.occasions, o.operation.Honest v.registration) →
          v.now.delivery.refusals v.registration
            = trail.flatMap (Handover.logged v.registration)) := by
  refine ⟨fun moments t ht r slot hslot => ?_, fun a => ⟨a.refusals_eq, fun hr => ?_⟩,
    keeping_of_visit⟩
  · have hs : t.Sound := (sound_start policy).passAll ht
    have hcount := hs.delivery.tasks r
    rw [hslot] at hcount
    cases hd : slot.draining with
    | true =>
      have hone : t.delivery.executor.tasks.count r = 1 := by simpa [hd] using hcount
      simp [hone]
    | false =>
      have hzero : t.delivery.executor.tasks.count r = 0 := by simpa [hd] using hcount
      simp [hzero, hs.delivery.idle r slot hslot hd]
  · obtain ⟨⟨slot, hslot, -, hkept⟩, hpromised⟩ := a.keeping hr
    rw [flatMap_single] at hkept
    refine ⟨slot, hslot, hpromised, hkept, fun hp => ?_⟩
    show a.now.received a.registration ++ (a.now.inHand a.registration ++ slot.pending) <+: _
    rw [hkept, ← hpromised]
    exact (kept_prefix_trail a.sound_opening a.passed hp).trans (List.prefix_append _ _)

/-- the executor stops taking tasks in while the first one is out: what is handed in until it ends
still goes with it -/
def interrupted : Attendance .proceed Nat :=
  .run .proceed [⟨false, .register (some 7)⟩] true (some 0)
    (⟨true, .enqueue 1⟩ :: [.post ⟨1⟩, .post ⟨2⟩, .look ⟨2⟩, .take ⟨2⟩, .call ⟨2⟩, .finish ⟨2⟩,
      .enqueue 2, .post ⟨2⟩, .post ⟨1⟩, .look ⟨2⟩, .take ⟨2⟩, .call ⟨2⟩,
      .fail ⟨2⟩ (.returned "no"), .look ⟨2⟩, .take ⟨2⟩, .call ⟨2⟩, .finish ⟨2⟩, .look ⟨2⟩, .take ⟨2⟩,
      .enqueue 3, .post ⟨2⟩, .post ⟨1⟩, .enqueue 4, .post ⟨2⟩, .post ⟨1⟩].map (⟨false, ·⟩))
    (by decide +kernel) (by decide +kernel)

theorem refusals_exact_interrupted :
    interrupted.promised = [0, 1, 2, 3, 4] ∧ interrupted.received = [0, 1, 2] ∧
    interrupted.trail.flatMap Handover.kept = [0, 1, 2] ∧ [0, 1, 2] <+: interrupted.promised ∧
    interrupted.now.delivery.refusals ⟨2⟩ =
      [.notScheduled ⟨2⟩ 1 "Worker pool is stopped", .notScheduled ⟨2⟩ 1 "Worker pool is stopped"] := by
  obtain ⟨hlogged, hkept⟩ := (refusals_exact .proceed).2.1 interrupted
  have hreg : interrupted.IsRegistered := by
    unfold IsRegistered
    decide +kernel
  obtain ⟨slot, -, -, heq, hprefix⟩ := hkept hreg
  have hall : interrupted.trail.flatMap Handover.kept = [0, 1, 2] := by decide +kernel
  have hclosing : interrupted.moments.Pairwise fun m n => m.takes = false → n.takes = false := by
    decide +kernel
  have hfirst := hprefix (pairwise_trail_of_closing interrupted.passed hclosing)
  rw [heq, hall] at hfirst
  exact ⟨by decide +kernel, by decide +kernel, hall, hfirst,
    (hlogged (by decide +kernel)).trans (by decide +kernel)⟩

end Attendance

end OverlayWatch
