import OverlayWatch.Proofs.Delivery.Moments
import OverlayWatch.Proofs.Delivery.Operations

/-!
# What a listener hears

A listener decides by the calls it has had whether the present one fails.  Over an executor that takes
in every task, what it hears is then settled by what it is promised: everything where failures are
only logged, and everything up to its first failure where they cost it the registration.  Nothing else
counts: not when the drain tasks run, not what other listeners do, not how a call fails.

* `upToFailure`, `heard`       the calls that a listener hears of those that it is promised;
* `Move.Suits`, `Traffic.Undisturbed`   nobody removes the listener, no task is refused, and its calls
                               end as it makes them end;
* `Traffic.Attending`          the listener is still served, and no call has failed it, except perhaps
                               the one that is being made;
* `Traffic.Fallen`             a call has failed it, and it hears nothing more;
* `Hears.step`                 one of the two holds at every moment;
* `Traffic.Unhindered`         nobody removes the listener either where only operations are performed;
* `Attendance.deliveries_exact`   so in the end it has heard exactly what it should.
-/

namespace OverlayWatch

variable {κ : Type}

/-! ## up to the first failure -/

/-- the next calls of a listener that has `had` some: those up to the first that fails, that one
included -/
def upToFailure (ends : List κ → Option Failure) (had : List κ) : List κ → List κ
  | [] => []
  | c :: rest =>
    if (ends (had ++ [c])).isSome then [c] else c :: upToFailure ends (had ++ [c]) rest

def heard (policy : FailurePolicy) (ends : List κ → Option Failure) (promised : List κ) : List κ :=
  match policy with
  | .cancel => upToFailure ends [] promised
  | .proceed => promised

/-- these are the calls up to one that fails, and none of them has failed before -/
structure FirstFailure (ends : List κ → Option Failure) (calls : List κ) : Prop where
  made : calls ≠ []
  fails : (ends calls).isSome
  first : ∀ p, p <+: calls → p ≠ [] → (ends p).isSome → p = calls

theorem upToFailure_congr {ends others : List κ → Option Failure}
    (h : ∀ calls, (others calls).isSome = (ends calls).isSome) (had promised : List κ) :
    upToFailure others had promised = upToFailure ends had promised := by
  induction promised generalizing had with
  | nil => rfl
  | cons c rest ih => rw [upToFailure, upToFailure, h, ih]

theorem upToFailure_eq_self {ends : List κ → Option Failure} {had promised : List κ}
    (h : ∀ p, p <+: promised → p ≠ [] → ends (had ++ p) = none) :
    upToFailure ends had promised = promised := by
  induction promised generalizing had with
  | nil => rfl
  | cons c rest ih =>
    have hc : ends (had ++ [c]) = none := h [c] ⟨rest, rfl⟩ (by simp)
    have hrest : upToFailure ends (had ++ [c]) rest = rest := by
      apply ih
      intro p hp hn
      rw [List.append_assoc]
      exact h (c :: p) ((List.prefix_cons_inj c).2 hp) (by simp)
    rw [upToFailure, hc, hrest]
    rfl

theorem upToFailure_eq_of_first {ends : List κ → Option Failure} {had promised calls : List κ}
    (hp : calls <+: promised) (h : FirstFailure (fun p => ends (had ++ p)) calls) :
    upToFailure ends had promised = calls := by
  induction promised generalizing had calls with
  | nil => exact absurd (List.prefix_nil.1 hp) h.made
  | cons c rest ih =>
    obtain ⟨d, tail, rfl⟩ := List.exists_cons_of_ne_nil h.made
    obtain ⟨rfl, ht⟩ := List.cons_prefix_cons.1 hp
    rw [upToFailure]
    by_cases hc : (ends (had ++ [d])).isSome = true
    · rw [if_pos hc]
      exact h.first [d] ⟨tail, rfl⟩ (by simp) hc
    · rw [if_neg hc]
      congr 1
      refine ih ht ⟨?_, ?_, ?_⟩
      · rintro rfl
        exact hc h.fails
      · simpa using h.fails
      · intro p hp hn hf
        have he := h.first (d :: p) ((List.prefix_cons_inj d).2 hp) (by simp) (by simpa using hf)
        exact (List.cons.inj he).2

namespace Traffic

/-! ## a listener and its calls -/

/-- the registration is not removed, and a call to it ends in this way if it does -/
def Move.Suits (r : Registration) (outcome : Option Failure) : Move κ → Prop
  | .remove q => q ≠ r
  | .finish q => q = r → outcome = none
  | .fail q failure => q = r → outcome = some failure
  | _ => True

/-- every task is taken in, and the calls end as `ends` says, given the calls received so far -/
def Undisturbed (ends : List κ → Option Failure) (r : Registration) :
    Traffic κ κ → List (Moment κ) → Prop
  | _, [] => True
  | t, m :: rest => m.takes = true ∧ m.move.Suits r (ends (t.received r)) ∧
      ∀ u ∈ t.pass single m, Undisturbed ends r u rest

instance (r : Registration) (outcome : Option Failure) :
    (m : Move κ) → Decidable (m.Suits r outcome)
  | .remove q => inferInstanceAs (Decidable (q ≠ r))
  | .finish q => inferInstanceAs (Decidable (q = r → outcome = none))
  | .fail q failure => inferInstanceAs (Decidable (q = r → outcome = some failure))
  | .register _ => .isTrue trivial
  | .enqueue _ => .isTrue trivial
  | .post _ => .isTrue trivial
  | .look _ => .isTrue trivial
  | .take _ => .isTrue trivial
  | .call _ => .isTrue trivial
  | .cancel _ => .isTrue trivial
  | .note _ => .isTrue trivial

instance decidableUndisturbed (ends : List κ → Option Failure) (r : Registration) :
    (t : Traffic κ κ) → (moments : List (Moment κ)) → Decidable (t.Undisturbed ends r moments)
  | _, [] => .isTrue trivial
  | t, m :: rest =>
    have := fun u : Traffic κ κ => decidableUndisturbed ends r u rest
    inferInstanceAs (Decidable (m.takes = true ∧ m.move.Suits r (ends (t.received r)) ∧
      ∀ u ∈ t.pass single m, Undisturbed ends r u rest))

/-- the call in hand has been made, or it has failed and the registration is about to be cancelled -/
def Ending (t : Traffic κ κ) (r : Registration) : Prop :=
  t.underway[r]? = some (.inHand true []) ∨ t.underway[r]? = some .failed

/-- the listener is served; where failures count, only the call being made can be one -/
structure Attending (ends : List κ → Option Failure) (t : Traffic κ κ) (r : Registration)
    (promised : List κ) : Prop where
  serving : Serving single t r promised
  unfailing : t.delivery.policy = .cancel → ∀ p, p <+: t.received r → p ≠ [] → (ends p).isSome →
    p = t.received r ∧ t.Ending r
  failed : t.underway[r]? = some .failed →
    t.delivery.policy = .cancel ∧ (ends (t.received r)).isSome

/-- the last call has failed the listener, and there will be no other -/
structure Fallen (ends : List κ → Option Failure) (t : Traffic κ κ) (r : Registration)
    (promised : List κ) : Prop where
  policy : t.delivery.policy = .cancel
  known : r.number ≤ t.delivery.issued
  cancelled : t.delivery.isRegistered r = false
  idle : t.underway[r]? = none
  received : t.received r <+: promised
  failure : FirstFailure ends (t.received r)

def Hears (ends : List κ → Option Failure) (t : Traffic κ κ) (r : Registration)
    (promised : List κ) : Prop :=
  Attending ends t r promised ∨ Fallen ends t r promised

section
variable {ends : List κ → Option Failure} {t u : Traffic κ κ} {r : Registration} {promised : List κ}
  {m : Move κ}

theorem Move.Suits.not_ends {outcome : Option Failure} (hm : m.Suits r outcome)
    (hc : m ≠ .cancel r) : ¬ m.Ends r := by
  cases m with
  | remove q => exact hm
  | cancel q =>
    rintro rfl
    exact hc rfl
  | _ => exact id

theorem Attending.known (h : Attending ends t r promised) (hs : t.Sound) :
    r.number ≤ t.delivery.issued := by
  obtain ⟨slot, hr, -⟩ := h.serving
  exact hs.delivery.issued r slot hr

/-- a move by which the registration is not lost -/
theorem Attending.serve (h : Attending ends t r promised) (hs : t.Sound) (hsingle : t.Single)
    (ha : t.delivery.executor.accepts r = true) (hl : ¬ m.Ends r)
    (hu : t.step single m = some u) : Serving single u r (promised ++ m.queued) := by
  have hq : m.adds single = m.queued := by
    rw [Move.adds_eq, flatMap_single]
  have hserving := h.serving.step_of_retains hs ha (hsingle.retains hl hu) hu
  rwa [hq] at hserving

/-- before a call is made, no call has failed -/
theorem Attending.not_failed (h : Attending ends t r promised) (hp : t.delivery.policy = .cancel)
    (hw : ¬ t.Ending r) {p : List κ} (hpre : p <+: t.received r) (hne : p ≠ [])
    (hf : (ends p).isSome = true) : False :=
  hw (h.unfailing hp p hpre hne hf).2

/-- a move that is made before a call is made, and makes none -/
theorem Attending.still (h : Attending ends t r promised) (hs : t.Sound) (hsingle : t.Single)
    (ha : t.delivery.executor.accepts r = true) (hl : ¬ m.Ends r) (hw : ¬ t.Ending r)
    (hr : u.received r = t.received r) (hn : u.underway[r]? ≠ some .failed)
    (hu : t.step single m = some u) : Attending ends u r (promised ++ m.queued) where
  serving := h.serve hs hsingle ha hl hu
  unfailing hp p hpre hne hf := by
    rw [hr] at hpre
    exact (h.not_failed (policy_step hu ▸ hp) hw hpre hne hf).elim
  failed hf := absurd hf hn

/-- the call that is made may fail -/
theorem Attending.call (h : Attending ends t r promised) (hs : t.Sound) (hsingle : t.Single)
    (ha : t.delivery.executor.accepts r = true) {c : κ} {rest : List κ} (hw : ¬ t.Ending r)
    (hrest : rest = []) (hm : u.received r = t.received r ++ [c])
    (hn : u.underway[r]? = some (.inHand true rest)) (hu : t.step single (.call r) = some u) :
    Attending ends u r (promised ++ []) where
  serving := h.serve hs hsingle ha id hu
  unfailing hp p hpre hne hf := by
    rw [hm] at hpre ⊢
    obtain rfl | hpre := List.prefix_concat_iff.1 hpre
    · exact ⟨rfl, .inl (hrest ▸ hn)⟩
    · exact (h.not_failed (policy_step hu ▸ hp) hw hpre hne hf).elim
  failed hf := by
    rw [hn] at hf
    cases hf

/-- a call that has not failed the listener -/
theorem Attending.finish (h : Attending ends t r promised) (hs : t.Sound) (hsingle : t.Single)
    (ha : t.delivery.executor.accepts r = true) (he : ends (t.received r) = none)
    (hm : u.received r = t.received r) (hn : u.underway[r]? = none)
    (hu : t.step single (.finish r) = some u) : Attending ends u r (promised ++ []) where
  serving := h.serve hs hsingle ha id hu
  unfailing hp p hpre hne hf := by
    rw [hm] at hpre
    obtain rfl := (h.unfailing (policy_step hu ▸ hp) p hpre hne hf).1
    rw [he] at hf
    cases hf
  failed hf := by
    rw [hn] at hf
    cases hf

/-- a call that has, and if that counts the registration is still to be cancelled -/
theorem Attending.fail (h : Attending ends t r promised) (hs : t.Sound) (hsingle : t.Single)
    (ha : t.delivery.executor.accepts r = true) {f : Failure} (he : ends (t.received r) = some f)
    (hm : u.received r = t.received r)
    (hn : u.underway[r]? = if t.delivery.policy = .cancel then some .failed else none)
    (hu : t.step single (.fail r f) = some u) : Attending ends u r (promised ++ []) where
  serving := h.serve hs hsingle ha id hu
  unfailing hp p hpre hne hf := by
    have hpt : t.delivery.policy = .cancel := policy_step hu ▸ hp
    rw [hm] at hpre ⊢
    exact ⟨(h.unfailing hpt p hpre hne hf).1, .inr (by rw [hn, if_pos hpt])⟩
  failed hf := by
    rw [hn] at hf
    by_cases hp : t.delivery.policy = .cancel
    · exact ⟨(policy_step hu).trans hp, by rw [hm, he]; rfl⟩
    · rw [if_neg hp] at hf
      cases hf

/-- the cancelling, after which nothing more is heard -/
theorem Attending.fall (h : Attending ends t r promised) (hs : t.Sound) (hsingle : t.Single)
    (hw : t.underway[r]? = some .failed) (hm : u.received r = t.received r)
    (hn : u.underway[r]? = none) (hu : t.step single (.cancel r) = some u) :
    Fallen ends u r promised where
  policy := (policy_step hu).trans (h.failed hw).1
  known := Nat.le_trans (h.known hs) (issued_step hu)
  cancelled := by
    rw [Bool.eq_false_iff]
    intro hr
    exact ((isRegistered_step (h.known hs) hu).1 hr).2 rfl
  idle := hn
  received := hm ▸ h.serving.received_prefix
  failure := by
    obtain ⟨hp, hf⟩ := h.failed hw
    rw [hm]
    exact ⟨hsingle.turns r _ hw, hf, fun p hpre hne hfails => (h.unfailing hp p hpre hne hfails).1⟩

theorem Attending.step (h : Attending ends t r promised) (hs : t.Sound) (hsingle : t.Single)
    (ha : t.delivery.executor.accepts r = true) (hm : m.Suits r (ends (t.received r)))
    (hu : t.step single m = some u) : Hears ends u r (promised ++ m.queued) := by
  have before : ∀ {turn : Option (Turn κ)}, t.underway[r]? = turn →
      turn ≠ some (.inHand true []) → turn ≠ some .failed → ¬ t.Ending r := by
    rintro turn rfl hbegun hfailed (hw | hw)
    · exact hbegun hw
    · exact hfailed hw
  -- only a call of the listener's own, and its end, can change what it has heard
  cases turn_step r hu with
  | still own hr hn =>
    have hc : m ≠ .cancel r := by
      rintro rfl
      exact absurd own (by simp [Move.turns])
    refine .inl ⟨h.serve hs hsingle ha (hm.not_ends hc) hu, fun hp p hpre hne hf => ?_, fun hf => ?_⟩
    · rw [hr] at hpre ⊢
      obtain ⟨rfl, hend⟩ := h.unfailing (policy_step hu ▸ hp) p hpre hne hf
      exact ⟨rfl, by rw [Ending, hn]; exact hend⟩
    · rw [hr, policy_step hu]
      exact h.failed (hn ▸ hf)
  | look hw hr hn =>
    refine .inl (h.still hs hsingle ha id (before hw (by simp) (by simp)) hr ?_ hu)
    rw [hn]
    split <;> simp
  | take hw hr hn =>
    refine .inl (h.still hs hsingle ha id (before hw (by simp) (by simp)) hr ?_ hu)
    rw [hn]
    cases (t.delivery.pop r).1 <;> simp
  | call hw hr hn =>
    exact .inl (h.call hs hsingle ha (before hw (by simp) (by simp)) (hsingle.of_inHand hw).2 hr hn hu)
  | finish hw hr hn => exact .inl (h.finish hs hsingle ha (hm rfl) hr hn hu)
  | fail hw hr hn => exact .inl (h.fail hs hsingle ha (hm rfl) hr hn hu)
  | cancel hw hr hn =>
    show Hears ends u r (promised ++ [])
    rw [List.append_nil]
    exact .inr (h.fall hs hsingle hw hr hn hu)

/-- whatever else happens -/
theorem Fallen.step (h : Fallen ends t r promised) (hu : t.step single m = some u) :
    Fallen ends u r (promised ++ m.queued) := by
  have idle : ∀ {turn : Turn κ}, t.underway[r]? ≠ some turn := by
    intro turn hw
    rw [h.idle] at hw
    cases hw
  have stays : u.received r = t.received r → u.underway[r]? = none →
      Fallen ends u r (promised ++ m.queued) := by
    intro hr hn
    refine ⟨(policy_step hu).trans h.policy, Nat.le_trans h.known (issued_step hu), ?_, hn, ?_, ?_⟩
    · rw [Bool.eq_false_iff]
      intro hreg
      have hbefore := ((isRegistered_step h.known hu).1 hreg).1
      rw [h.cancelled] at hbefore
      cases hbefore
    · rw [hr]
      exact h.received.trans (List.prefix_append _ _)
    · rw [hr]
      exact h.failure
  cases turn_step r hu with
  | still own hr hn => exact stays hr (hn.trans h.idle)
  | look hw hr hn =>
    refine stays hr ?_
    rw [hn, h.cancelled]
    rfl
  | take hw hr hn => exact absurd hw idle
  | call hw hr hn => exact absurd hw idle
  | finish hw hr hn => exact absurd hw idle
  | fail hw hr hn => exact absurd hw idle
  | cancel hw hr hn => exact absurd hw idle

theorem Hears.step (h : Hears ends t r promised) (hs : t.Sound) (hsingle : t.Single)
    (ha : t.delivery.executor.accepts r = true) (hm : m.Suits r (ends (t.received r)))
    (hu : t.step single m = some u) : Hears ends u r (promised ++ m.queued) := by
  rcases h with h | h
  · exact h.step hs hsingle ha hm hu
  · exact .inr (h.step hu)

theorem Hears.under (h : Hears ends t r promised) (takes : Bool) :
    Hears ends (t.under takes) r promised := by
  rcases h with h | h
  · exact .inl ⟨h.serving, h.unfailing, h.failed⟩
  · exact .inr ⟨h.policy, h.known, h.cancelled, h.idle, h.received, h.failure⟩

theorem Hears.passAll {moments : List (Moment κ)} (h : Hears ends t r promised) (hs : t.Sound)
    (hsingle : t.Single) (hm : t.Undisturbed ends r moments)
    (hu : t.passAll single moments = some u) :
    Hears ends u r (promised ++ moments.flatMap fun m => m.move.queued) := by
  induction moments generalizing t promised with
  | nil =>
    obtain rfl := Option.some.inj hu
    show Hears ends t r (promised ++ [])
    rwa [List.append_nil]
  | cons m rest ih =>
    obtain ⟨s, hp, hl⟩ := passAll_cons hu
    obtain ⟨ht, hsuits, hrest⟩ := hm
    have ha : (t.under m.takes).delivery.executor.accepts r = true := (accepts_under t _ r).trans ht
    have hsteps : Hears ends s r (promised ++ m.move.queued) :=
      (h.under m.takes).step (hs.under m.takes) (hsingle.under m.takes) ha hsuits hp
    rw [List.flatMap_cons, ← List.append_assoc]
    exact ih hsteps (hs.pass hp) (hsingle.pass hp) (hrest s hp) hl

/-- nothing has been heard yet -/
theorem Hears.register (hs : t.Sound) {initial : Option κ}
    (ha : t.delivery.executor.accepts ⟨t.delivery.issued + 1⟩ = true)
    (hu : t.step single (.register initial) = some u) :
    Hears ends u ⟨t.delivery.issued + 1⟩ initial.toList := by
  have hserving := Serving.register hs ha hu
  rw [flatMap_single] at hserving
  obtain ⟨-, rfl⟩ := of_register hu
  have hm : t.received ⟨t.delivery.issued + 1⟩ = [] := hs.received_next
  have hw : t.underway[(⟨t.delivery.issued + 1⟩ : Registration)]? = none := hs.underway_next
  refine .inl ⟨hserving, fun _ p hpre hne => ?_, fun hf => ?_⟩
  · exact absurd (List.prefix_nil.1 (hm ▸ hpre)) hne
  · have hf : t.underway[(⟨t.delivery.issued + 1⟩ : Registration)]? = some .failed := hf
    rw [hw] at hf
    cases hf

/-- when all is done -/
theorem Hears.received_eq (h : Hears ends t r promised) (hs : t.Sound) (hrest : t.AtRest) :
    t.received r = heard t.delivery.policy ends promised ∧
      (t.delivery.isRegistered r = true ↔ t.delivery.policy = .proceed ∨
        ∀ p, p <+: promised → p ≠ [] → ends p = none) := by
  rcases h with h | h
  · have hm : t.received r = promised := h.serving.received_eq hs hrest.1 hrest.2
    obtain ⟨kept, hkeeping, -⟩ := serving_iff.1 h.serving
    have hn : t.delivery.policy = .cancel → ∀ p, p <+: promised → p ≠ [] → ends p = none := by
      intro hp p hpre hne
      cases hf : ends p with
      | none => rfl
      | some f =>
        have htask : r ∈ t.delivery.executor.tasks :=
          (h.unfailing hp p (hm ▸ hpre) hne (by rw [hf]; rfl)).2.elim (hs.underway r _)
            (hs.underway r _)
        rw [hrest.1] at htask
        cases htask
    refine ⟨?_, iff_of_true hkeeping.isRegistered ?_⟩
    · unfold heard
      cases hp : t.delivery.policy with
      | cancel => exact hm.trans (upToFailure_eq_self (hn hp)).symm
      | proceed => exact hm
    · cases hp : t.delivery.policy with
      | cancel => exact .inr (hn hp)
      | proceed => exact .inl rfl
  · rw [h.policy, h.cancelled]
    refine ⟨(upToFailure_eq_of_first h.received h.failure).symm, iff_of_false (by simp) ?_⟩
    rintro (hp | hn)
    · cases hp
    · have hf := h.failure.fails
      rw [hn _ h.received h.failure.made] at hf
      cases hf

end

/-! ## whole operations -/

/-- the registration is not removed, and a callback of its ends in this way -/
def Operation.Suits (r : Registration) (outcome : Option Failure) : Operation κ → Prop
  | .remove q => q ≠ r
  | .settle q ending => q = r → outcome = ending
  | _ => True

/-- every task is taken in, and the callbacks end as `ends` says, given the calls received so far -/
def Unhindered (ends : List κ → Option Failure) (r : Registration) :
    Traffic κ κ → List (Occasion κ) → Prop
  | _, [] => True
  | t, o :: rest => o.takes = true ∧ o.operation.Suits r (ends (t.received r)) ∧
      ∀ u ∈ (t.under o.takes).perform single o.operation, Unhindered ends r u rest

instance (r : Registration) (outcome : Option Failure) :
    (o : Operation κ) → Decidable (o.Suits r outcome)
  | .remove q => inferInstanceAs (Decidable (q ≠ r))
  | .settle q ending => inferInstanceAs (Decidable (q = r → outcome = ending))
  | .register _ => .isTrue trivial
  | .enqueue _ => .isTrue trivial
  | .poll _ => .isTrue trivial
  | .call _ => .isTrue trivial
  | .note _ => .isTrue trivial

instance decidableUnhindered (ends : List κ → Option Failure) (r : Registration) :
    (t : Traffic κ κ) → (occasions : List (Occasion κ)) → Decidable (t.Unhindered ends r occasions)
  | _, [] => .isTrue trivial
  | t, o :: rest =>
    have := fun u : Traffic κ κ => decidableUnhindered ends r u rest
    inferInstanceAs (Decidable (o.takes = true ∧ o.operation.Suits r (ends (t.received r)) ∧
      ∀ u ∈ (t.under o.takes).perform single o.operation, Unhindered ends r u rest))

section
variable {ends : List κ → Option Failure} {t : Traffic κ κ} {r : Registration}

theorem Undisturbed.append {l k : List (Moment κ)} (hl : t.Undisturbed ends r l)
    (hk : ∀ u, t.passAll single l = some u → u.Undisturbed ends r k) :
    t.Undisturbed ends r (l ++ k) := by
  induction l generalizing t with
  | nil => exact hk t rfl
  | cons m l ih =>
    obtain ⟨ht, hsuits, hrest⟩ := hl
    refine ⟨ht, hsuits, fun s hs => ih (hrest s hs) fun u hu => hk u ?_⟩
    rw [passAll, hs]
    exact hu

/-- moves that suit a listener however its calls end -/
theorem undisturbed_map {takes : Bool} (ht : takes = true) {moves : List (Move κ)}
    (hm : ∀ m ∈ moves, ∀ outcome, m.Suits r outcome) :
    t.Undisturbed ends r (moves.map (⟨takes, ·⟩)) := by
  induction moves generalizing t with
  | nil => trivial
  | cons m rest ih =>
    exact ⟨ht, hm m List.mem_cons_self _, fun u _ => ih fun n hn => hm n (List.mem_cons_of_mem m hn)⟩

theorem Operation.Suits.first {o : Operation κ} {outcome : Option Failure} (h : o.Suits r outcome) :
    o.first.Suits r outcome := by
  cases o with
  | settle q ending => cases ending <;> exact h
  | _ => exact h

/-- no callback ends later in an operation, and no registration is removed -/
theorem Move.GoesOn.suits {m : Move κ} (h : m.GoesOn) (outcome : Option Failure) :
    m.Suits r outcome := by
  cases m with
  | post q => trivial
  | take q => trivial
  | cancel q => trivial
  | _ => cases h

theorem Unhindered.undisturbed {occasions : List (Occasion κ)} (h : t.Unhindered ends r occasions)
    (hf : t.IsFree) {u : Traffic κ κ} (hu : t.performAll single occasions = some u) :
    t.Undisturbed ends r (t.momentsOf single occasions) := by
  induction occasions generalizing t with
  | nil => trivial
  | cons o rest ih =>
    obtain ⟨s, hs, hl⟩ := performAll_cons hu
    obtain ⟨ht, hsuits, hrest⟩ := h
    rw [momentsOf_cons hs]
    refine Undisturbed.append ⟨ht, hsuits.first, fun v _ => ?_⟩ fun v hv => ?_
    · exact undisturbed_map ht fun m hm => (Operation.goesOn_of_mem_rest hm).suits
    · rw [hf.passAll_moments hs] at hv
      obtain rfl := Option.some.inj hv
      exact ih (hrest s hs) ((hf.under o.takes).perform hs) hl

end

end Traffic

namespace Attendance

open Traffic

variable {policy : FailurePolicy} {ends : List κ → Option Failure}

theorem hears (a : Attendance policy κ)
    (h : a.opening.Undisturbed ends a.registration a.moments) :
    Hears ends a.now a.registration a.promised := by
  obtain ⟨s, hs, hl⟩ := passAll_cons a.passed
  obtain ⟨ht, -, hlater⟩ := h
  have hopen : Hears ends s a.registration a.initial.toList :=
    Hears.register (t := a.opening.under a.takes) (a.sound_opening.under _)
      ((accepts_under _ _ _).trans ht) hs
  exact hopen.passAll (a.sound_opening.pass hs) (a.single_opening.pass hs) (hlater s hs) hl

/-- **A listener hears exactly what it should**, once no drain task is out: its first callback and
then every callback handed in since it came, in order and each once, and only up to the first call
that fails if failures cost it the registration.  It is registered still unless one did.  In any other
run in which it is promised the same and fails at the same calls, it hears the same and is registered
alike, whenever the tasks ran, whatever the others did, and however its calls failed; and so it does
where the operations of the delivery are performed one after the other. -/
theorem deliveries_exact (a : Attendance policy κ) (ends : List κ → Option Failure)
    (h : a.opening.Undisturbed ends a.registration a.moments) (hr : a.now.AtRest) :
    a.received = heard policy ends a.promised ∧
    (a.IsRegistered ↔ policy = .proceed ∨ ∀ p, p <+: a.promised → p ≠ [] → ends p = none) ∧
    (∀ (b : Attendance policy κ) (others : List κ → Option Failure),
      b.opening.Undisturbed others b.registration b.moments → b.now.AtRest →
      b.promised = a.promised → (∀ calls, (others calls).isSome = (ends calls).isSome) →
      b.received = a.received ∧ (b.IsRegistered ↔ a.IsRegistered)) ∧
    ∀ (v : Visit policy κ) (others : List κ → Option Failure),
      v.opening.Unhindered others v.registration v.occasions → v.now.AtRest →
      v.promised = a.promised → (∀ calls, (others calls).isSome = (ends calls).isSome) →
      v.now.received v.registration = a.received ∧
        (v.now.delivery.isRegistered v.registration = true ↔ a.IsRegistered) := by
  have hall : ∀ (b : Attendance policy κ) (others : List κ → Option Failure),
      b.opening.Undisturbed others b.registration b.moments → b.now.AtRest →
      b.received = heard policy others b.promised ∧
        (b.IsRegistered ↔ policy = .proceed ∨
          ∀ p, p <+: b.promised → p ≠ [] → others p = none) := by
    intro b others hb hrest
    have hp : b.now.delivery.policy = policy := (policy_passAll b.passed).trans b.policy_opening
    have hheard := (b.hears hb).received_eq b.sound_now hrest
    rwa [hp] at hheard
  obtain ⟨hheard, hreg⟩ := hall a ends h hr
  have halike : ∀ (b : Attendance policy κ) (others : List κ → Option Failure),
      b.opening.Undisturbed others b.registration b.moments → b.now.AtRest →
      b.promised = a.promised → (∀ calls, (others calls).isSome = (ends calls).isSome) →
      b.received = a.received ∧ (b.IsRegistered ↔ a.IsRegistered) := by
    intro b others hb hrest hpromised hfails
    obtain ⟨hheardb, hregb⟩ := hall b others hb hrest
    have hnone : ∀ p, others p = none ↔ ends p = none := by
      intro p
      rw [← Option.isNone_iff_eq_none, ← Option.isNone_iff_eq_none, ← Option.not_isSome,
        ← Option.not_isSome, hfails]
    constructor
    · rw [hheard, hheardb, hpromised]
      unfold heard
      cases policy with
      | cancel => exact upToFailure_congr hfails [] a.promised
      | proceed => rfl
    · rw [hreg, hregb, hpromised]
      simp only [hnone]
  refine ⟨hheard, hreg, halike, fun v others hv hrest hpromised hfails => ?_⟩
  exact halike v.attendance others (hv.undisturbed v.isFree_opening v.performed) hrest
    (v.promised_attendance.trans hpromised) hfails

/-- fails in this way at every 1 -/
def touchy (f : Failure) (calls : List Nat) : Option Failure :=
  if calls.getLast? = some 1 then some f else none

/-- another listener is there, and panics; tasks run while callbacks are being queued, and one is
queued for the listener after its failure and before it is cancelled for that -/
def entangled : Attendance .cancel Nat :=
  .run .cancel (always [.register none]) true (some 0)
    (always [.enqueue 1, .post ⟨1⟩, .look ⟨2⟩, .take ⟨2⟩, .call ⟨2⟩, .post ⟨2⟩, .finish ⟨2⟩,
      .look ⟨1⟩, .take ⟨1⟩, .call ⟨1⟩, .fail ⟨1⟩ (.panicked none), .cancel ⟨1⟩, .look ⟨1⟩,
      .look ⟨2⟩, .take ⟨2⟩, .call ⟨2⟩, .fail ⟨2⟩ (.returned "no"), .enqueue 2, .post ⟨2⟩,
      .cancel ⟨2⟩, .enqueue 3, .look ⟨2⟩])
    (by decide +kernel) (by decide +kernel)

/-- the listener is alone, everything is queued before its task starts, and its failure is a panic -/
def secluded : Attendance .cancel Nat :=
  .run .cancel [] true (some 0)
    (always [.enqueue 1, .post ⟨1⟩, .enqueue 2, .post ⟨1⟩, .enqueue 3, .post ⟨1⟩,
      .look ⟨1⟩, .take ⟨1⟩, .call ⟨1⟩, .finish ⟨1⟩, .look ⟨1⟩, .take ⟨1⟩, .call ⟨1⟩,
      .fail ⟨1⟩ (.panicked (some "no")), .cancel ⟨1⟩, .look ⟨1⟩])
    (by decide +kernel) (by decide +kernel)

/-- the same by operations of the delivery -/
def staged : Visit .cancel Nat :=
  .run .cancel [] true (some 0)
    ([.enqueue 1, .poll ⟨1⟩, .call ⟨1⟩, .settle ⟨1⟩ none, .enqueue 2, .poll ⟨1⟩, .call ⟨1⟩,
      .enqueue 3, .settle ⟨1⟩ (some (.panicked (some "no"))), .poll ⟨1⟩].map (⟨true, ·⟩))
    (by decide +kernel) (by decide +kernel)

theorem deliveries_exact_entangled :
    entangled.received = [0, 1] ∧ ¬ entangled.IsRegistered ∧
    secluded.received = entangled.received ∧ ¬ secluded.IsRegistered ∧
    staged.now.received ⟨1⟩ = entangled.received := by
  obtain ⟨hheard, hreg, hother, hstaged⟩ := deliveries_exact entangled (touchy (.returned "no"))
    (by decide +kernel) (by decide +kernel)
  have hfails : ∀ calls, (touchy (.panicked (some "no")) calls).isSome
      = (touchy (.returned "no") calls).isSome := by
    intro calls
    unfold touchy
    split <;> rfl
  obtain ⟨hsame, halike⟩ := hother secluded (touchy (.panicked (some "no")))
    (by decide +kernel) (by decide +kernel) (by decide +kernel) hfails
  have hnot : ¬ entangled.IsRegistered := by
    rw [hreg]
    rintro (hp | hn)
    · cases hp
    · have hone := hn [0, 1] ⟨[2, 3], rfl⟩ (by simp)
      cases hone
  obtain ⟨hplayed, -⟩ := hstaged staged (touchy (.panicked (some "no")))
    (by decide +kernel) (by decide +kernel) (by decide +kernel) hfails
  exact ⟨hheard.trans (by decide +kernel), hnot, hsame, fun h => hnot (halike.1 h), hplayed⟩

end Attendance

end OverlayWatch
