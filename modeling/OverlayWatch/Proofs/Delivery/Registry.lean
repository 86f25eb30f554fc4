import Mathlib.Data.List.Induction
import Mathlib.Data.List.Sort
import OverlayWatch.Proofs.Delivery.Moments

/-!
# Who is registered

Registrations are numbered in the order in which they are given out.  Someone is registered from the
move that gives the registration out to the first one that ends it: it is removed, or it is cancelled
for a failing call under the policy that does so, and the other of the two may still follow.  What the
executor says to the tasks has no part in this.

* `Traffic.given`              the registrations that are given out in a run;
* `number_given`               they are numbered one after the other;
* `Traffic.FailedLast`         the last that a drain task has done is to fail;
* `Traffic.removals`           the removals that have found something to remove;
* `registered_step`            who is registered after a move;
* `isRegistered_passAll_iff`   and after a run;
* `nodup_removals`             nobody is removed twice;
* `registry_exact`             all of this, for every run.
-/

namespace OverlayWatch

namespace Traffic

variable {κ γ : Type}

/-! ## what is found in a run -/

/-- what is found at each move, one after the other -/
def gather {α : Type} (calls : κ → List γ) (found : Traffic κ γ → Move κ → List α) :
    Traffic κ γ → List (Moment κ) → List α
  | _, [] => []
  | t, m :: rest =>
    found (t.under m.takes) m.move ++ (t.pass calls m).elim [] fun u => gather calls found u rest

def given (calls : κ → List γ) : Traffic κ γ → List (Moment κ) → List Registration :=
  gather calls gives

/-- the registration that is removed, if there was something to remove -/
def removes (t : Traffic κ γ) : Move κ → List Registration
  | .remove r => if (t.delivery.remove r).1 then [r] else []
  | _ => []

def removals (calls : κ → List γ) : Traffic κ γ → List (Moment κ) → List Registration :=
  gather calls removes

section
variable {calls : κ → List γ} {t u s : Traffic κ γ} {r : Registration}

theorem gather_cons {α : Type} {found : Traffic κ γ → Move κ → List α} {m : Moment κ}
    {rest : List (Moment κ)} (hs : t.pass calls m = some s) : gather calls found t (m :: rest) =
      found (t.under m.takes) m.move ++ gather calls found s rest := by
  rw [gather, hs]
  rfl

/-! ## numbers -/

theorem number_gives (t : Traffic κ γ) (m : Move κ) : (t.gives m).map Registration.number =
    List.range' (t.delivery.issued + 1) (t.gives m).length := by
  cases m <;> rfl

theorem mem_gives_iff {m : Move κ} : r ∈ t.gives m ↔
    t.delivery.issued < r.number ∧ r.number ≤ t.delivery.issued + (t.gives m).length := by
  have hn : r ∈ t.gives m ↔ r.number ∈ (t.gives m).map Registration.number := by
    rw [List.mem_map]
    refine ⟨fun hr => ⟨r, hr, rfl⟩, fun hr => ?_⟩
    obtain ⟨q, hq, he⟩ := hr
    have hqr : q = r := congrArg Registration.mk he
    exact hqr ▸ hq
  rw [hn, number_gives, List.mem_range'_1]
  omega

theorem number_given {moments : List (Moment κ)} (hu : t.passAll calls moments = some u) :
    (t.given calls moments).map Registration.number =
      List.range' (t.delivery.issued + 1) (t.given calls moments).length ∧
    u.delivery.issued = t.delivery.issued + (t.given calls moments).length := by
  induction moments generalizing t with
  | nil =>
    obtain rfl := Option.some.inj hu
    exact ⟨rfl, rfl⟩
  | cons m rest ih =>
    obtain ⟨s, hs, hr⟩ := passAll_cons hu
    obtain ⟨hnumbers, hissued⟩ := ih hr
    have hstep : s.delivery.issued = t.delivery.issued + ((t.under m.takes).gives m.move).length :=
      issued_step_eq (t := t.under m.takes) hs
    have hg : t.given calls (m :: rest) = (t.under m.takes).gives m.move ++ s.given calls rest :=
      gather_cons hs
    rw [hg, List.length_append, List.map_append, number_gives, hnumbers, hissued, hstep]
    refine ⟨?_, Nat.add_assoc _ _ _⟩
    show List.range' (t.delivery.issued + 1) _ ++ _ = _
    rw [Nat.add_right_comm, List.range'_append_1]

/-! ## who is registered -/

theorem isRegistered_step_iff (hs : t.Sound) {m : Move κ} (hu : t.step calls m = some u) :
    u.delivery.isRegistered r = true ↔
      (t.delivery.isRegistered r = true ∧ ¬ m.Ends r) ∨ r ∈ t.gives m := by
  by_cases hr : r.number ≤ t.delivery.issued
  · have hg : r ∉ t.gives m := by
      rw [mem_gives_iff]
      omega
    rw [isRegistered_step hr hu]
    exact (or_iff_left hg).symm
  · have hn : ¬ t.delivery.isRegistered r = true := fun h => hr (hs.delivery.number_le h)
    refine ⟨fun h => .inr (mem_gives_iff.2 ⟨Nat.lt_of_not_le hr, ?_⟩), fun h => ?_⟩
    · rw [← issued_step_eq hu]
      exact (hs.step hu).delivery.number_le h
    · have hg : r ∈ t.gives m := h.resolve_left fun h => hn h.1
      rw [delivery_step hu]
      cases m with
      | register initial =>
        obtain rfl := List.mem_singleton.1 hg
        exact t.delivery.isRegistered_register_self initial
      | _ => cases hg

/-- what the executor says has no part in this, nor has a failure under the policy that goes on -/
theorem registered_step (hs : t.Sound) {m : Move κ} (hu : t.step calls m = some u) :
    u.delivery.registered =
      (t.delivery.registered.filter fun r => ¬ m.Ends r) ++ t.gives m := by
  have hold : ∀ r ∈ t.delivery.registered.filter fun r => ¬ m.Ends r,
      r.number ≤ t.delivery.issued := fun r hr =>
    hs.delivery.number_le (Delivery.mem_registered.1 (List.mem_of_mem_filter hr))
  refine List.Pairwise.eq_of_mem_iff u.delivery.sorted_registered
    (List.pairwise_append.2 ⟨t.delivery.sorted_registered.filter _, ?_, fun r hr q hq => ?_⟩) fun r => ?_
  · cases m <;> simp [gives]
  · exact Nat.lt_of_le_of_lt (hold r hr) (mem_gives_iff.1 hq).1
  · rw [Delivery.mem_registered, isRegistered_step_iff hs hu, List.mem_append, List.mem_filter,
      Delivery.mem_registered, decide_eq_true_iff]

theorem isRegistered_pass_iff (hs : t.Sound) {m : Moment κ} (hu : t.pass calls m = some u) :
    u.delivery.isRegistered r = true ↔
      (t.delivery.isRegistered r = true ∧ ¬ m.move.Ends r) ∨
        r ∈ (t.under m.takes).gives m.move :=
  isRegistered_step_iff (hs.under m.takes) hu

/-- the registration is given out, and no later move ends it -/
def Opened (calls : κ → List γ) (t : Traffic κ γ) (r : Registration) (moments : List (Moment κ)) :
    Prop :=
  ∃ earlier takes initial since s, moments = earlier ++ ⟨takes, .register initial⟩ :: since ∧
    t.passAll calls earlier = some s ∧ (s.delivery.register initial).1 = r ∧
    ∀ m ∈ since, ¬ m.move.Ends r

theorem opened_cons {m : Moment κ} {rest : List (Moment κ)}
    (hs : t.pass calls m = some s) : t.Opened calls r (m :: rest) ↔
      (r ∈ (t.under m.takes).gives m.move ∧ ∀ n ∈ rest, ¬ n.move.Ends r) ∨
        s.Opened calls r rest := by
  refine ⟨fun h => ?_, fun h => ?_⟩
  · obtain ⟨earlier, takes, initial, since, v, he, hv, hr, hsince⟩ := h
    cases earlier with
    | nil =>
      obtain rfl := Option.some.inj hv
      obtain ⟨rfl, rfl⟩ := List.cons.inj he
      exact .inl ⟨List.mem_singleton.2 hr.symm, hsince⟩
    | cons n earlier =>
      obtain ⟨rfl, rfl⟩ := List.cons.inj he
      obtain ⟨w, hw, hv⟩ := passAll_cons hv
      obtain rfl : s = w := Option.some.inj (hs.symm.trans hw)
      exact .inr ⟨earlier, takes, initial, since, v, rfl, hv, hr, hsince⟩
  · obtain ⟨hg, hrest⟩ | ⟨earlier, takes, initial, since, v, rfl, hv, hr, hsince⟩ := h
    · obtain ⟨takes, move⟩ := m
      cases move with
      | register initial =>
        exact ⟨[], takes, initial, rest, t, rfl, rfl, (List.mem_singleton.1 hg).symm, hrest⟩
      | _ => cases hg
    · refine ⟨m :: earlier, takes, initial, since, v, rfl, ?_, hr, hsince⟩
      rw [passAll, hs]
      exact hv

theorem isRegistered_passAll_iff (hs : t.Sound) {moments : List (Moment κ)}
    (hu : t.passAll calls moments = some u) : u.delivery.isRegistered r = true ↔
      (t.delivery.isRegistered r = true ∧ ∀ m ∈ moments, ¬ m.move.Ends r) ∨
        t.Opened calls r moments := by
  induction moments generalizing t with
  | nil =>
    obtain rfl := Option.some.inj hu
    have hn : ¬ t.Opened calls r [] := by
      intro h
      obtain ⟨earlier, takes, initial, since, v, he, -⟩ := h
      cases earlier <;> cases he
    simp [hn]
  | cons m rest ih =>
    obtain ⟨s, hp, hr⟩ := passAll_cons hu
    rw [ih (hs.pass hp) hr, isRegistered_pass_iff hs hp, opened_cons hp,
      List.forall_mem_cons, or_and_right, and_assoc, or_assoc]

/-- whoever is registered was so before, or has come in the run -/
theorem mem_given_of_isRegistered (hs : t.Sound) {moments : List (Moment κ)}
    (hu : t.passAll calls moments = some u) (hr : u.delivery.isRegistered r = true) :
    t.delivery.isRegistered r = true ∨ r ∈ t.given calls moments := by
  induction moments generalizing t with
  | nil =>
    obtain rfl := Option.some.inj hu
    exact .inl hr
  | cons m rest ih =>
    obtain ⟨s, hp, hrest⟩ := passAll_cons hu
    have hg : t.given calls (m :: rest) = (t.under m.takes).gives m.move ++ s.given calls rest :=
      gather_cons hp
    rw [hg, List.mem_append]
    obtain h | h := ih (hs.pass hp) hrest
    · obtain ⟨h, -⟩ | h := (isRegistered_pass_iff hs hp).1 h
      · exact .inl h
      · exact .inr (.inl h)
    · exact .inr (.inr h)

/-! ## failures -/

/-- the last that the drain task of the registration has done is to fail -/
def FailedLast (r : Registration) (moments : List (Moment κ)) : Prop :=
  ∃ earlier takes failure since, moments = earlier ++ ⟨takes, .fail r failure⟩ :: since ∧
    ∀ m ∈ since, m.move.turns r = false

theorem FailedLast.concat {moments : List (Moment κ)} (h : FailedLast r moments) {m : Moment κ}
    (hm : m.move.turns r = false) : FailedLast r (moments ++ [m]) := by
  obtain ⟨earlier, takes, failure, since, rfl, hsince⟩ := h
  refine ⟨earlier, takes, failure, since ++ [m], by simp, fun n hn => ?_⟩
  rcases List.mem_append.1 hn with hn | hn
  · exact hsince n hn
  · rwa [List.mem_singleton.1 hn]

theorem passAll_concat {l : List (Moment κ)} {m : Moment κ}
    (h : t.passAll calls (l ++ [m]) = some u) :
    ∃ s, t.passAll calls l = some s ∧ s.pass calls m = some u := by
  rw [passAll_append] at h
  obtain ⟨s, hs, hl⟩ := Option.bind_eq_some_iff.1 h
  obtain ⟨v, hv, hu⟩ := passAll_cons hl
  exact ⟨s, hs, hv.trans hu⟩

/-- the registration is about to be cancelled only because a call has failed -/
theorem failedLast_of_failed {policy : FailurePolicy} {moments : List (Moment κ)}
    (hu : (start policy).passAll calls moments = some u) (hw : u.underway[r]? = some .failed) :
    policy = .cancel ∧ FailedLast r moments := by
  induction moments using List.reverseRecOn generalizing u with
  | nil =>
    obtain rfl := Option.some.inj hu
    rw [start, Std.ExtTreeMap.getElem?_empty] at hw
    cases hw
  | append_singleton l m ih =>
    obtain ⟨s, hs, hp⟩ := passAll_concat hu
    obtain ⟨takes, move⟩ := m
    cases turn_step r hp with
    | still own hr hn =>
      obtain ⟨hpolicy, hl⟩ := ih hs (hn.symm.trans hw)
      exact ⟨hpolicy, hl.concat own⟩
    | look before hr hn =>
      rw [hn] at hw
      split at hw <;> cases hw
    | take before hr hn =>
      rw [hn] at hw
      obtain ⟨c, -, hc⟩ := Option.map_eq_some_iff.1 hw
      cases hc
    | call before hr hn =>
      rw [hn] at hw
      cases hw
    | finish before hr hn =>
      rw [hn] at hw
      cases hw
    | fail before hr hn =>
      rw [hn] at hw
      obtain ⟨hpolicy, -⟩ := Option.ite_none_right_eq_some.1 hw
      exact ⟨(policy_passAll hs).symm.trans hpolicy, l, takes, _, [], rfl, fun m hm => by cases hm⟩
    | cancel before hr hn =>
      rw [hn] at hw
      cases hw

/-- a drain task has its turn to itself -/
theorem underway_passAll {moments : List (Moment κ)} (h : ∀ m ∈ moments, m.move.turns r = false)
    (hu : t.passAll calls moments = some u) : u.underway[r]? = t.underway[r]? := by
  induction moments generalizing t with
  | nil => rw [Option.some.inj hu]
  | cons m rest ih =>
    obtain ⟨s, hs, hl⟩ := passAll_cons hu
    obtain ⟨hm, hrest⟩ := List.forall_mem_cons.1 h
    exact (ih hrest hl).trans (underway_of_not_turns (t := t.under m.takes) hm hs)

/-- where failures count, it is then about to be cancelled until that is done -/
theorem failed_of_failedLast {moments : List (Moment κ)} (hu : t.passAll calls moments = some u)
    (hp : t.delivery.policy = .cancel) (h : FailedLast r moments) :
    u.underway[r]? = some .failed := by
  obtain ⟨earlier, takes, failure, since, rfl, hsince⟩ := h
  rw [passAll_append] at hu
  obtain ⟨s, hs, hl⟩ := Option.bind_eq_some_iff.1 hu
  obtain ⟨v, hv, hu⟩ := passAll_cons hl
  have hpolicy : (s.under takes).delivery.policy = .cancel := (policy_passAll hs).trans hp
  rw [underway_passAll hsince hu]
  obtain ⟨left, -, rfl⟩ := of_fail hv
  show (if _ then (s.under takes).underway.insert r .failed else _)[r]? = _
  rw [if_pos hpolicy, Std.ExtTreeMap.getElem?_insert_self]

/-! ## removals -/

theorem mem_removes_iff {m : Move κ} :
    r ∈ t.removes m ↔ m = .remove r ∧ t.delivery.isRegistered r = true := by
  cases m with
  | remove q =>
    rw [removes, Delivery.remove_answer, List.mem_ite_nil_right, List.mem_singleton,
      Move.remove.injEq]
    refine ⟨fun h => ?_, fun h => ?_⟩
    · obtain ⟨hreg, rfl⟩ := h
      exact ⟨rfl, hreg⟩
    · obtain ⟨rfl, hreg⟩ := h
      exact ⟨hreg, rfl⟩
  | _ => simp [removes]

/-- what is over is not found again -/
theorem not_mem_removals {moments : List (Moment κ)} (hu : t.passAll calls moments = some u)
    (hr : r.number ≤ t.delivery.issued) (hn : ¬ t.delivery.isRegistered r = true) :
    r ∉ t.removals calls moments := by
  induction moments generalizing t with
  | nil => exact List.not_mem_nil
  | cons m rest ih =>
    obtain ⟨s, hp, hrest⟩ := passAll_cons hu
    have hg : t.removals calls (m :: rest)
        = (t.under m.takes).removes m.move ++ s.removals calls rest := gather_cons hp
    have hover : ¬ s.delivery.isRegistered r = true := fun h =>
      hn ((isRegistered_step (t := t.under m.takes) hr hp).1 h).1
    rw [hg, List.mem_append, mem_removes_iff, not_or]
    exact ⟨fun h => hn h.2, ih hrest (Nat.le_trans hr (issued_pass hp)) hover⟩

theorem nodup_removals (hs : t.Sound) {moments : List (Moment κ)}
    (hu : t.passAll calls moments = some u) : (t.removals calls moments).Nodup := by
  induction moments generalizing t with
  | nil => exact List.nodup_nil
  | cons m rest ih =>
    obtain ⟨s, hp, hrest⟩ := passAll_cons hu
    have hg : t.removals calls (m :: rest)
        = (t.under m.takes).removes m.move ++ s.removals calls rest := gather_cons hp
    rw [hg]
    refine List.nodup_append'.2 ⟨?_, ih (hs.pass hp) hrest, fun r hr => ?_⟩
    · unfold removes
      split
      · split <;> simp
      · exact List.nodup_nil
    · obtain ⟨hm, hreg⟩ := mem_removes_iff.1 hr
      have hold : r.number ≤ t.delivery.issued := hs.delivery.number_le hreg
      refine not_mem_removals hrest (Nat.le_trans hold (issued_pass hp)) fun h => ?_
      have hlost := ((isRegistered_step (t := t.under m.takes) hold hp).1 h).2
      rw [hm] at hlost
      exact hlost rfl

end

/-! ## every run -/

/-- **Registrations begin and end as they should**: they are numbered from 1 in the order in which they
are given out, and those numbers and the next one fit in 64 bits as long as fewer than
`UInt64.size - 1` were given out.  Someone is registered exactly from the move that gives the
registration out until it is removed or cancelled.  It is cancelled for a failing call under the policy
that does so, as the next thing that its drain task does, and for nothing else; a registration that is
over does not come back.  Removing says whether there was one, and so says yes once
for each at most.  Those registered are counted, and no other move changes who they are, whatever the
executor says to the tasks and whatever fails under the policy that goes on. -/
theorem registry_exact (calls : κ → List γ) (policy : FailurePolicy) (moments : List (Moment κ))
    (t : Traffic κ γ) (ht : (start policy).passAll calls moments = some t) :
    let given := (start policy).given calls moments
    (given.map Registration.number = List.range' 1 given.length ∧
      (given.Pairwise fun a b => a.number < b.number) ∧
      (given.length < UInt64.size - 1 →
        t.delivery.issued + 1 < UInt64.size ∧ ∀ r ∈ given, r.number < UInt64.size)) ∧
    (∀ r, t.delivery.isRegistered r = true ↔ (start policy).Opened calls r moments) ∧
    (∀ r, t.underway[r]? = some .failed ↔ policy = .cancel ∧ FailedLast r moments) ∧
    (∀ earlier takes r later, moments = earlier ++ ⟨takes, .cancel r⟩ :: later →
      policy = .cancel ∧ FailedLast r earlier) ∧
    t.delivery.registered = given.filter t.delivery.isRegistered ∧
    t.delivery.listenerCount = (given.filter t.delivery.isRegistered).length ∧
    ((start policy).removals calls moments).Nodup ∧
    (∀ r, (t.delivery.remove r).1 = t.delivery.isRegistered r) ∧
    (∀ m u, t.pass calls m = some u → u.delivery.registered =
      (t.delivery.registered.filter fun r => ¬ m.move.Ends r) ++ t.gives m.move) ∧
    ∀ between u later v r, t.passAll calls between = some u → u.passAll calls later = some v →
      t.delivery.isRegistered r = true → u.delivery.isRegistered r = false →
      v.delivery.isRegistered r = false := by
  intro given
  have h0 : (start policy : Traffic κ γ).Sound := sound_start policy
  have hs : t.Sound := h0.passAll ht
  have hpolicy : t.delivery.policy = policy := policy_passAll ht
  have hnone : ∀ r, ¬ (start policy : Traffic κ γ).delivery.isRegistered r = true := by
    intro r
    simp [start, Delivery.empty, Delivery.isRegistered]
  obtain ⟨hnumbers, hissued⟩ := number_given ht
  have hnumbers : given.map Registration.number = List.range' 1 given.length := hnumbers
  have hissued : t.delivery.issued = given.length := hissued.trans (Nat.zero_add _)
  have hsorted : given.Pairwise fun a b => a.number < b.number := by
    rw [← List.pairwise_map (f := Registration.number) (R := (· < ·)), hnumbers]
    exact List.pairwise_lt_range' 1
  have hreg : t.delivery.registered = given.filter t.delivery.isRegistered := by
    refine List.Pairwise.eq_of_mem_iff t.delivery.sorted_registered (hsorted.filter _) fun r => ?_
    rw [Delivery.mem_registered, List.mem_filter]
    refine ⟨fun h => ⟨?_, h⟩, fun h => h.2⟩
    exact (mem_given_of_isRegistered h0 ht h).resolve_left (hnone r)
  refine ⟨⟨hnumbers, hsorted, fun hlt => ⟨by omega, fun r hr => ?_⟩⟩, fun r => ?_,
    fun r => ⟨failedLast_of_failed ht, fun h => failed_of_failedLast ht h.1 h.2⟩,
    fun earlier takes r later he => ?_, hreg, congrArg List.length hreg, nodup_removals h0 ht,
    t.delivery.remove_answer, fun m u hu => registered_step (hs.under m.takes) hu,
    fun between u later v r hu hv hr hn => ?_⟩
  · have hm : r.number ∈ given.map Registration.number := List.mem_map_of_mem hr
    rw [hnumbers, List.mem_range'_1] at hm
    omega
  · rw [isRegistered_passAll_iff h0 ht]
    exact or_iff_right fun h => hnone r h.1
  · rw [he, passAll_append] at ht
    obtain ⟨s, hearlier, hl⟩ := Option.bind_eq_some_iff.1 ht
    obtain ⟨v, hcancel, -⟩ := passAll_cons hl
    exact failedLast_of_failed hearlier (of_cancel hcancel).2.1
  · have hissued : r.number ≤ u.delivery.issued :=
      Nat.le_trans (hs.delivery.number_le hr) (issued_passAll hu)
    refine eq_false_of_ne_true fun h => ?_
    rw [isRegistered_of_passAll hissued hv h] at hn
    cases hn

/-- the first callback of one listener is refused, and the next one fails; another listener is removed
twice, and a third one comes -/
def turnover : List (Moment Nat) :=
  [⟨false, .register (some 0)⟩, ⟨true, .register none⟩, ⟨true, .enqueue 1⟩, ⟨true, .post ⟨1⟩⟩,
    ⟨false, .post ⟨2⟩⟩, ⟨true, .look ⟨1⟩⟩, ⟨true, .take ⟨1⟩⟩, ⟨true, .call ⟨1⟩⟩,
    ⟨true, .fail ⟨1⟩ (.returned "no")⟩, ⟨true, .remove ⟨2⟩⟩, ⟨true, .cancel ⟨1⟩⟩,
    ⟨true, .remove ⟨1⟩⟩, ⟨true, .remove ⟨2⟩⟩, ⟨true, .register none⟩]

def turnedOver : Traffic Nat Nat :=
  ((start .cancel).passAll single turnover).get (by decide +kernel)

theorem registry_exact_turnover :
    (start .cancel : Traffic Nat Nat).given single turnover = [⟨1⟩, ⟨2⟩, ⟨3⟩] ∧
    turnedOver.delivery.registered = [⟨3⟩] ∧ turnedOver.delivery.listenerCount = 1 ∧
    (start .cancel : Traffic Nat Nat).removals single turnover = [⟨2⟩] ∧
    turnedOver.delivery.issued + 1 < UInt64.size ∧ (turnedOver.delivery.remove ⟨1⟩).1 = false ∧
    FailedLast ⟨1⟩ (turnover.take 10) := by
  have hg : (start .cancel : Traffic Nat Nat).given single turnover = [⟨1⟩, ⟨2⟩, ⟨3⟩] := by
    decide +kernel
  obtain ⟨⟨-, -, hfits⟩, -, -, hcancelled, hreg, hcount, -, hremove, -⟩ :=
    registry_exact single .cancel turnover turnedOver (Option.some_get _).symm
  rw [hg] at hfits hreg hcount
  have hthree : [⟨1⟩, ⟨2⟩, ⟨3⟩].filter turnedOver.delivery.isRegistered = [⟨3⟩] := by decide +kernel
  rw [hthree] at hreg hcount
  exact ⟨hg, hreg, hcount, by decide +kernel, (hfits (by decide)).1,
    (hremove ⟨1⟩).trans (by decide +kernel),
    (hcancelled (turnover.take 10) true ⟨1⟩ (turnover.drop 11) rfl).2⟩

end Traffic

end OverlayWatch
