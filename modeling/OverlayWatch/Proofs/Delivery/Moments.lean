import OverlayWatch.Proofs.Delivery.Serving

/-!
# A listener's time with a delivery

Whether the executor takes a task in can change from one moment to the next.  So a run is made of
moments, each with a move and with what the executor would say to a task then; no move submits more
than one.  Here a callback is a single call to each listener.

* `Traffic.under`          the executor takes tasks in from now on, or refuses them;
* `Moment`, `Traffic.passAll`   one moment, and several one after the other;
* `passAll_induction`      what every moment keeps;
* `Move.Ends`              the move removes a registration, or cancels it;
* `Traffic.gives`          the registration that it gives out;
* `isRegistered_step`      nothing else ends a registration, and nothing brings it back;
* `Traffic.Single`         the one call of the callback in hand is still to be made, or has been made;
* `Attendance`             a run from the start, and a listener that is registered in it.
-/

namespace OverlayWatch

namespace Traffic

variable {κ γ : Type}

/-! ## moments -/

structure Moment (κ : Type) where
  /-- whether the executor would take a task in -/
  takes : Bool
  move : Move κ

/-- every task would be taken in -/
def always (moves : List (Move κ)) : List (Moment κ) := moves.map (⟨true, ·⟩)

def under (t : Traffic κ γ) (takes : Bool) : Traffic κ γ :=
  { t with
    delivery.executor := if takes then t.delivery.executor.reopen else t.delivery.executor.close }

theorem accepts_under (t : Traffic κ γ) (takes : Bool) (r : Registration) :
    (t.under takes).delivery.executor.accepts r = takes := by
  cases takes <;> rfl

theorem tasks_under (t : Traffic κ γ) (takes : Bool) :
    (t.under takes).delivery.executor.tasks = t.delivery.executor.tasks := by
  cases takes <;> rfl

def pass (calls : κ → List γ) (t : Traffic κ γ) (m : Moment κ) : Option (Traffic κ γ) :=
  (t.under m.takes).step calls m.move

def passAll (calls : κ → List γ) : Traffic κ γ → List (Moment κ) → Option (Traffic κ γ)
  | t, [] => some t
  | t, m :: rest => (t.pass calls m).bind fun u => u.passAll calls rest

def AtRest (t : Traffic κ γ) : Prop :=
  t.delivery.executor.tasks = [] ∧ t.posting.isEmpty = true

instance (t : Traffic κ γ) : Decidable t.AtRest :=
  inferInstanceAs (Decidable (t.delivery.executor.tasks = [] ∧ t.posting.isEmpty = true))

section
variable {calls : κ → List γ} {t u : Traffic κ γ} {m : Moment κ} {moments rest : List (Moment κ)}

theorem passAll_cons (h : t.passAll calls (m :: rest) = some u) :
    ∃ s, t.pass calls m = some s ∧ s.passAll calls rest = some u :=
  Option.bind_eq_some_iff.1 h

theorem passAll_append (t : Traffic κ γ) (l k : List (Moment κ)) :
    t.passAll calls (l ++ k) = (t.passAll calls l).bind fun u => u.passAll calls k := by
  induction l generalizing t with
  | nil => rfl
  | cons m l ih =>
    show ((t.pass calls m).bind fun u => u.passAll calls (l ++ k))
      = ((t.pass calls m).bind fun u => u.passAll calls l).bind _
    rw [Option.bind_assoc]
    congr 1
    funext u
    exact ih u

/-- what every moment keeps holds after them all -/
theorem passAll_induction {P : Traffic κ γ → Prop}
    (step : ∀ {s v : Traffic κ γ} {m : Moment κ}, P s → s.pass calls m = some v → P v) (h : P t)
    (hu : t.passAll calls moments = some u) : P u := by
  induction moments generalizing t with
  | nil =>
    obtain rfl := Option.some.inj hu
    exact h
  | cons m rest ih =>
    obtain ⟨s, hs, hr⟩ := passAll_cons hu
    exact ih (step h hs) hr

theorem Sound.under (h : t.Sound) (takes : Bool) : (t.under takes).Sound := by
  have ht := tasks_under t takes
  refine ⟨⟨fun r => ?_, h.delivery.idle, h.delivery.issued⟩, fun r turn hr => ?_, h.made⟩
  · rw [ht]
    exact h.delivery.tasks r
  · rw [ht]
    exact h.underway r turn hr

theorem Sound.pass (h : t.Sound) (hu : t.pass calls m = some u) : u.Sound :=
  (h.under m.takes).step hu

theorem Sound.passAll (h : t.Sound) (hu : t.passAll calls moments = some u) : u.Sound :=
  passAll_induction (fun hs hv => hs.pass hv) h hu

end

/-! ## who stays -/

/-- the move ends a registration, if it is not over yet -/
def Move.Ends (r : Registration) : Move κ → Prop
  | .remove q => q = r
  | .cancel q => q = r
  | _ => False

instance (r : Registration) : (m : Move κ) → Decidable (m.Ends r)
  | .remove q => inferInstanceAs (Decidable (q = r))
  | .cancel q => inferInstanceAs (Decidable (q = r))
  | .register _ => .isFalse id
  | .enqueue _ => .isFalse id
  | .post _ => .isFalse id
  | .look _ => .isFalse id
  | .take _ => .isFalse id
  | .call _ => .isFalse id
  | .finish _ => .isFalse id
  | .fail _ _ => .isFalse id
  | .note _ => .isFalse id

/-- the registration that is given out -/
def gives (t : Traffic κ γ) : Move κ → List Registration
  | .register initial => [(t.delivery.register initial).1]
  | _ => []

section
variable {calls : κ → List γ} {t u : Traffic κ γ} {r : Registration}

theorem policy_step {m : Move κ} (hu : t.step calls m = some u) :
    u.delivery.policy = t.delivery.policy := by
  rw [delivery_step hu]
  cases m with
  | register initial => exact t.delivery.policy_register initial
  | remove q => exact t.delivery.policy_remove q
  | post q =>
    obtain ⟨c, hc, -, -⟩ := of_post hu
    rw [effect_post hc]
    exact t.delivery.policy_push c q
  | look q => exact (t.delivery.works_look q).policy
  | take q => exact (t.delivery.works_pop q).policy
  | cancel q => exact t.delivery.policy_cancel q
  | _ => rfl

theorem issued_step_eq {m : Move κ} (hu : t.step calls m = some u) :
    u.delivery.issued = t.delivery.issued + (t.gives m).length := by
  rw [delivery_step hu]
  cases m with
  | register initial => exact t.delivery.issued_register initial
  | remove q => exact t.delivery.issued_remove q
  | post q =>
    obtain ⟨c, hc, -, -⟩ := of_post hu
    rw [effect_post hc]
    exact t.delivery.issued_push c q
  | look q => exact (t.delivery.works_look q).issued
  | take q => exact (t.delivery.works_pop q).issued
  | cancel q => exact t.delivery.issued_cancel q
  | _ => rfl

theorem issued_step {m : Move κ} (hu : t.step calls m = some u) :
    t.delivery.issued ≤ u.delivery.issued := by
  rw [issued_step_eq hu]
  exact Nat.le_add_right _ _

theorem isRegistered_step {m : Move κ} (hr : r.number ≤ t.delivery.issued)
    (hu : t.step calls m = some u) : u.delivery.isRegistered r = true ↔
      t.delivery.isRegistered r = true ∧ ¬ m.Ends r := by
  rw [delivery_step hu]
  have stays : (t.effect m).isRegistered r = t.delivery.isRegistered r → ¬ m.Ends r →
      ((t.effect m).isRegistered r = true ↔ t.delivery.isRegistered r = true ∧ ¬ m.Ends r) := by
    intro he hn
    rw [he]
    exact (and_iff_left hn).symm
  cases m with
  | register initial =>
    have hn : r ≠ ⟨t.delivery.issued + 1⟩ := by
      rintro rfl
      exact Nat.not_succ_le_self _ hr
    exact stays (Delivery.isRegistered_register_of_ne _ hn initial) id
  | remove q =>
    rw [effect, Delivery.isRegistered_remove]
    simp [Move.Ends, and_comm]
  | post q =>
    obtain ⟨c, hc, -, -⟩ := of_post hu
    refine stays ?_ id
    rw [effect_post hc]
    exact t.delivery.isRegistered_push c q r
  | look q => exact stays ((t.delivery.works_look q).registered r) id
  | take q => exact stays ((t.delivery.works_pop q).registered r) id
  | cancel q =>
    rw [effect, Delivery.isRegistered_cancel]
    simp [Move.Ends, and_comm]
  | enqueue c => exact stays rfl id
  | call q => exact stays rfl id
  | finish q => exact stays rfl id
  | fail q failure => exact stays rfl id
  | note events => exact stays rfl id

theorem policy_pass {m : Moment κ} (hu : t.pass calls m = some u) :
    u.delivery.policy = t.delivery.policy :=
  policy_step (t := t.under m.takes) hu

theorem issued_pass {m : Moment κ} (hu : t.pass calls m = some u) :
    t.delivery.issued ≤ u.delivery.issued :=
  issued_step (t := t.under m.takes) hu

theorem policy_passAll {moments : List (Moment κ)} (hu : t.passAll calls moments = some u) :
    u.delivery.policy = t.delivery.policy := by
  refine passAll_induction (P := fun s => s.delivery.policy = t.delivery.policy) ?_ rfl hu
  intro s v m hs hv
  exact (policy_pass hv).trans hs

theorem issued_passAll {moments : List (Moment κ)} (hu : t.passAll calls moments = some u) :
    t.delivery.issued ≤ u.delivery.issued := by
  refine passAll_induction (P := fun s => t.delivery.issued ≤ s.delivery.issued) ?_ (Nat.le_refl _) hu
  intro s v m hs hv
  exact Nat.le_trans hs (issued_pass hv)

/-- a registration that is over does not come back -/
theorem isRegistered_of_passAll {moments : List (Moment κ)} (hr : r.number ≤ t.delivery.issued)
    (hu : t.passAll calls moments = some u) (h : u.delivery.isRegistered r = true) :
    t.delivery.isRegistered r = true := by
  by_contra hn
  have hover : r.number ≤ u.delivery.issued ∧ ¬ u.delivery.isRegistered r = true := by
    refine passAll_induction
      (P := fun s => r.number ≤ s.delivery.issued ∧ ¬ s.delivery.isRegistered r = true) ?_ ⟨hr, hn⟩ hu
    rintro s v m ⟨hs, hover⟩ hv
    refine ⟨Nat.le_trans hs (issued_pass hv), fun hreg => hover ?_⟩
    exact ((isRegistered_step (t := s.under m.takes) hs hv).1 hreg).1
  exact hover.2 h

end

/-! ## callbacks that are a single call -/

/-- the callback is the call -/
def single (c : κ) : List κ := [c]

theorem flatMap_single (l : List κ) : l.flatMap single = l := List.flatMap_singleton' l

end Traffic

/-- the callback in hand is one call; once that has been made, something has been received -/
def Turn.IsSingle {κ : Type} (received : List κ) : Turn κ → Prop
  | .looking => True
  | .inHand false left => ∃ c, left = [c]
  | .inHand true left => left = [] ∧ received ≠ []
  | .failed => received ≠ []

namespace Traffic

variable {κ : Type}

structure Single (t : Traffic κ κ) : Prop where
  turns : ∀ (r : Registration) (turn : Turn κ),
    t.underway[r]? = some turn → turn.IsSingle (t.received r)

theorem single_start (policy : FailurePolicy) : (start policy : Traffic κ κ).Single where
  turns r turn h := by simp [start] at h

namespace Single

variable {t u : Traffic κ κ} {r : Registration} (h : t.Single)
include h

theorem of_inHand {begun : Bool} {call : κ} {rest : List κ}
    (hw : t.underway[r]? = some (.inHand begun (call :: rest))) : begun = false ∧ rest = [] := by
  have hs := h.turns r _ hw
  cases begun with
  | false =>
    obtain ⟨c, hc⟩ := hs
    exact ⟨rfl, (List.cons.inj hc).2⟩
  | true => exact absurd hs.1 (List.cons_ne_nil call rest)

/-- a call that ends has been made -/
theorem of_begun {left : List κ} (hw : t.underway[r]? = some (.inHand true left)) :
    left = [] ∧ t.received r ≠ [] := h.turns r _ hw

theorem step {m : Move κ} (hu : t.step single m = some u) : u.Single where
  turns r turn hr := by
    cases turn_step r hu with
    | still own hm hn =>
      rw [hm]
      exact h.turns r turn (hn.symm.trans hr)
    | look hw hm hn =>
      rw [hn] at hr
      split at hr
      · obtain rfl := Option.some.inj hr
        trivial
      · cases hr
    | take hw hm hn =>
      rw [hn] at hr
      obtain ⟨c, -, rfl⟩ := Option.map_eq_some_iff.1 hr
      exact ⟨c, rfl⟩
    | call hw hm hn =>
      obtain rfl := Option.some.inj (hn.symm.trans hr)
      rw [hm]
      exact ⟨(h.of_inHand hw).2, by simp⟩
    | finish hw hm hn =>
      rw [hn] at hr
      cases hr
    | fail hw hm hn =>
      rw [hn] at hr
      split at hr
      · obtain rfl := Option.some.inj hr
        rw [hm]
        exact (h.of_begun hw).2
      · cases hr
    | cancel hw hm hn =>
      rw [hn] at hr
      cases hr

theorem under (takes : Bool) : (t.under takes).Single := ⟨h.turns⟩

theorem pass {m : Moment κ} (hu : t.pass single m = some u) : u.Single := (h.under m.takes).step hu

theorem passAll {moments : List (Moment κ)} (hu : t.passAll single moments = some u) : u.Single :=
  passAll_induction (fun hs hv => hs.pass hv) h hu

/-- no call is left out where one fails, because it has had no other -/
theorem retains {m : Move κ} (hl : ¬ m.Ends r) (hu : t.step single m = some u) :
    t.Retains r m := by
  cases m with
  | remove q => exact hl
  | cancel q => exact hl
  | fail q failure =>
    rintro rfl
    obtain ⟨left, hw, -⟩ := of_fail hu
    rw [inHand_of_turn hw]
    exact (h.of_begun hw).1
  | _ => trivial

end Single

end Traffic

/-! ## one listener -/

open Traffic in
/-- the listener is registered between what came before and what came later -/
structure Attendance (policy : FailurePolicy) (κ : Type) where
  before : List (Moment κ)
  opening : Traffic κ κ
  takes : Bool
  initial : Option κ
  later : List (Moment κ)
  now : Traffic κ κ
  reached : (start policy).passAll single before = some opening
  passed : opening.passAll single (⟨takes, .register initial⟩ :: later) = some now

namespace Attendance

open Traffic

variable {κ : Type} {policy : FailurePolicy} (a : Attendance policy κ)

def registration : Registration := ⟨a.opening.delivery.issued + 1⟩

/-- made from its moments, if they can be passed -/
def run (policy : FailurePolicy) (before : List (Moment κ)) (takes : Bool) (initial : Option κ)
    (later : List (Moment κ)) (h : ((start policy).passAll single before).isSome)
    (hl : ((((start policy).passAll single before).get h).passAll single
      (⟨takes, .register initial⟩ :: later)).isSome) : Attendance policy κ :=
  ⟨before, _, takes, initial, later, _, (Option.some_get h).symm, (Option.some_get hl).symm⟩

/-- the registration, and what comes after it -/
def moments : List (Moment κ) := ⟨a.takes, .register a.initial⟩ :: a.later

/-- the first callback, and those that are handed in for everyone since then -/
def promised : List κ := a.initial.toList ++ a.later.flatMap fun m => m.move.queued

def received : List κ := a.now.received a.registration

def IsRegistered : Prop := a.now.delivery.isRegistered a.registration = true

theorem sound_opening : a.opening.Sound := (sound_start policy).passAll a.reached

theorem single_opening : a.opening.Single := (single_start policy).passAll a.reached

theorem sound_now : a.now.Sound := a.sound_opening.passAll a.passed

theorem policy_opening : a.opening.delivery.policy = policy := policy_passAll a.reached

end Attendance

end OverlayWatch
