import OverlayWatch.Proofs.Delivery.Exactness

/-!
# Callbacks of several calls

A call that fails ends its callback, and the calls of it that are still to be made are left out.  Where
failures are only logged, nothing else comes of it: the callbacks after it are run as if it had not
failed.  So of every callback a listener hears the calls up to the first that fails.

* `hear`                  what a listener has heard after one callback more;
* `Traffic.Heeds`         nobody removes the listener, and a callback goes on as long as no call fails;
* `Traffic.heardAtEnd`    what the listener will have heard at the end of the callback in hand;
* `Traffic.Assured`       and what at the end of all that is queued and still to be queued;
* `Assured.step`          a move adds to it what is heard of the callback that it hands in;
* `Assured.received_eq`   at rest, that is what has been received.
-/

namespace OverlayWatch

variable {κ γ : Type}

/-! ## one callback after the other -/

def hear (calls : κ → List γ) (ends : List γ → Option Failure) (had : List γ) (c : κ) : List γ :=
  had ++ upToFailure ends had (calls c)

section
variable {calls : κ → List γ} {ends : List γ → Option Failure}

theorem prefix_foldl_hear (had : List γ) (cs : List κ) : had <+: cs.foldl (hear calls ends) had := by
  induction cs generalizing had with
  | nil => exact List.prefix_rfl
  | cons c cs ih => exact (List.prefix_append _ _).trans (ih _)

/-- a call that is the last one of its callback can fail without loss -/
theorem upToFailure_singleton (had : List γ) (call : γ) : upToFailure ends had [call] = [call] := by
  rw [upToFailure, upToFailure, ite_self]

theorem foldl_hear_of_single {cs : List κ} (h : ∀ c ∈ cs, ∃ call, calls c = [call]) (had : List γ) :
    cs.foldl (hear calls ends) had = had ++ cs.flatMap calls := by
  induction cs generalizing had with
  | nil => exact (List.append_nil had).symm
  | cons c cs ih =>
    obtain ⟨call, hc⟩ := h c List.mem_cons_self
    have hcs := ih (fun d hd => h d (List.mem_cons_of_mem c hd))
    rw [List.foldl_cons, hcs, hear, hc, upToFailure_singleton, List.flatMap_cons, hc,
      List.append_assoc]

end

namespace Traffic

/-! ## a listener whose calls may fail -/

/-- the listener is not removed; by `ends`, given the calls that it has received, the last of them has
failed or not, and its callback goes on or ends accordingly -/
def Heeds (ends : List γ → Option Failure) (t : Traffic κ γ) (r : Registration) : Move κ → Prop
  | .remove q => q ≠ r
  | .call q => q = r → ∀ turn ∈ t.underway[r]?, turn.begun = true → ends (t.received r) = none
  | .finish q => q = r → ∀ turn ∈ t.underway[r]?, turn.begun = true → ends (t.received r) = none
  | .fail q failure => q = r → ends (t.received r) = some failure
  | _ => True

instance (ends : List γ → Option Failure) (t : Traffic κ γ) (r : Registration) :
    (m : Move κ) → Decidable (t.Heeds ends r m)
  | .remove q => inferInstanceAs (Decidable (q ≠ r))
  | .call q => inferInstanceAs
      (Decidable (q = r → ∀ turn ∈ t.underway[r]?, turn.begun = true → ends (t.received r) = none))
  | .finish q => inferInstanceAs
      (Decidable (q = r → ∀ turn ∈ t.underway[r]?, turn.begun = true → ends (t.received r) = none))
  | .fail q failure => inferInstanceAs (Decidable (q = r → ends (t.received r) = some failure))
  | .register _ => .isTrue trivial
  | .enqueue _ => .isTrue trivial
  | .post _ => .isTrue trivial
  | .look _ => .isTrue trivial
  | .take _ => .isTrue trivial
  | .cancel _ => .isTrue trivial
  | .note _ => .isTrue trivial

def heardAtEnd (ends : List γ → Option Failure) (t : Traffic κ γ) (r : Registration) : List γ :=
  match t.underway[r]? with
  | none => t.received r
  | some turn =>
    if turn.begun = true ∧ (ends (t.received r)).isSome = true then t.received r
    else t.received r ++ upToFailure ends (t.received r) turn.left

section
variable {calls : κ → List γ} {ends : List γ → Option Failure} {t u : Traffic κ γ}
  {r : Registration} {m : Move κ} {turn : Turn γ}

theorem heardAtEnd_of_idle (h : t.underway[r]? = none) : t.heardAtEnd ends r = t.received r := by
  rw [heardAtEnd, h]

theorem heardAtEnd_of_failed (h : t.underway[r]? = some turn) (hb : turn.begun = true)
    (hf : (ends (t.received r)).isSome = true) : t.heardAtEnd ends r = t.received r := by
  rw [heardAtEnd, h]
  exact if_pos ⟨hb, hf⟩

theorem heardAtEnd_of_going (h : t.underway[r]? = some turn)
    (hn : turn.begun = true → ends (t.received r) = none) :
    t.heardAtEnd ends r = t.received r ++ upToFailure ends (t.received r) turn.left := by
  rw [heardAtEnd, h]
  refine if_neg fun hf => ?_
  rw [hn hf.1] at hf
  cases hf.2

theorem heardAtEnd_of_left (h : ∀ turn ∈ t.underway[r]?, turn.left = []) :
    t.heardAtEnd ends r = t.received r := by
  unfold heardAtEnd
  split
  · rfl
  · rename_i turn hw
    rw [h turn hw]
    split
    · rfl
    · exact List.append_nil _

theorem received_prefix_heardAtEnd : t.received r <+: t.heardAtEnd ends r := by
  unfold heardAtEnd
  split
  · exact List.prefix_rfl
  · split
    · exact List.prefix_rfl
    · exact List.prefix_append _ _

theorem heardAtEnd_step (hm : t.Heeds ends r m) (hu : t.step calls m = some u) :
    u.heardAtEnd ends r = (t.taken r m).foldl (hear calls ends) (t.heardAtEnd ends r) := by
  have nothing : ∀ {s : Traffic κ γ} {turn : Turn γ}, s.underway[r]? = some turn → turn.left = [] →
      s.heardAtEnd ends r = s.received r := by
    intro s turn hw hleft
    refine heardAtEnd_of_left fun other ho => ?_
    obtain rfl := Option.some.inj (hw.symm.trans ho)
    exact hleft
  cases turn_step r hu with
  | still own hr hn =>
    rw [taken_of_not_turns own, heardAtEnd, heardAtEnd, hr, hn]
    rfl
  | look hw hr hn =>
    show _ = t.heardAtEnd ends r
    rw [heardAtEnd_of_idle hw, ← hr]
    by_cases hreg : t.delivery.isRegistered r = true
    · exact nothing (hn.trans (if_pos hreg)) rfl
    · exact heardAtEnd_of_idle (hn.trans (if_neg hreg))
  | take hw hr hn =>
    rw [taken_take, nothing hw rfl, ← hr]
    cases hp : (t.delivery.pop r).1 with
    | none =>
      rw [hp] at hn
      exact heardAtEnd_of_idle hn
    | some c =>
      rw [hp] at hn
      exact heardAtEnd_of_going hn fun hb => by cases hb
  | call hw hr hn =>
    show _ = t.heardAtEnd ends r
    -- whether the call that is made fails decides whether the ones after it will be
    rw [heardAtEnd_of_going hw (hm rfl _ hw), Turn.left, upToFailure, ← hr]
    by_cases hfails : (ends (u.received r)).isSome = true
    · rw [if_pos hfails, heardAtEnd_of_failed hn rfl hfails, hr]
    · have hnone : ends (u.received r) = none := by simpa using hfails
      rw [if_neg hfails, heardAtEnd_of_going hn fun _ => hnone, List.append_cons, ← hr]
      rfl
  | finish hw hr hn =>
    show _ = t.heardAtEnd ends r
    rw [heardAtEnd_of_idle hn, hr, nothing hw rfl]
  | fail hw hr hn =>
    show _ = t.heardAtEnd ends r
    rw [heardAtEnd_of_failed hw rfl (by rw [hm rfl]; rfl), ← hr]
    by_cases hp : t.delivery.policy = .cancel
    · exact nothing (hn.trans (if_pos hp)) rfl
    · exact heardAtEnd_of_idle (hn.trans (if_neg hp))
  | cancel hw hr hn =>
    show _ = t.heardAtEnd ends r
    rw [heardAtEnd_of_idle hn, hr, nothing hw rfl]

end

/-! ## what it will have heard in the end -/

/-- where failures are only logged, no registration is about to be cancelled -/
def Assured (calls : κ → List γ) (ends : List γ → Option Failure) (t : Traffic κ γ)
    (r : Registration) (promised : List γ) : Prop :=
  ∃ slot, t.delivery.slots[r]? = some slot ∧ slot.cancelled = false ∧
    t.underway[r]? ≠ some .failed ∧
    (slot.pending ++ t.posting[r]?.toList).foldl (hear calls ends) (t.heardAtEnd ends r) = promised

/-- a failure that is only logged -/
theorem not_failed_step {calls : κ → List γ} {t u : Traffic κ γ} {r : Registration} {m : Move κ}
    (hp : t.delivery.policy = .proceed) (h : t.underway[r]? ≠ some .failed)
    (hu : t.step calls m = some u) : u.underway[r]? ≠ some .failed := by
  cases turn_step r hu with
  | still own hr hn => rwa [hn]
  | look hw hr hn =>
    rw [hn]
    split <;> simp
  | take hw hr hn =>
    rw [hn]
    cases (t.delivery.pop r).1 <;> simp
  | call hw hr hn => simp [hn]
  | finish hw hr hn => simp [hn]
  | fail hw hr hn => simp [hn, hp]
  | cancel hw hr hn => exact absurd hw h

namespace Assured

variable {calls : κ → List γ} {ends : List γ → Option Failure} {t u : Traffic κ γ}
  {r : Registration} {m : Move κ} {promised : List γ}

theorem step (h : Assured calls ends t r promised) (hs : t.Sound)
    (ha : t.delivery.executor.accepts r = true) (hp : t.delivery.policy = .proceed)
    (hm : t.Heeds ends r m) (hu : t.step calls m = some u) :
    Assured calls ends u r (m.queued.foldl (hear calls ends) promised) := by
  obtain ⟨slot, hr, hc, hf, rfl⟩ := h
  have hreg : t.delivery.isRegistered r = true := by
    rw [Delivery.isRegistered, hr]
    simp [hc]
  have hremove : m ≠ .remove r := by
    rintro rfl
    exact hm rfl
  have hcancel : m ≠ .cancel r := by
    rintro rfl
    exact hf (of_cancel hu).2.1
  obtain ⟨next, hnext, hcn, hqueue⟩ := queue_step hs hr hc hremove hcancel hu
  have hposting := handed_append_posting hs hreg hu
  refine ⟨next, hnext, hcn, not_failed_step hp hf hu, ?_⟩
  rw [heardAtEnd_step hm hu, ← List.foldl_append, ← List.foldl_append, ← List.append_assoc, hqueue,
    kept_handed ha, List.append_assoc, hposting, List.append_assoc]

/-- a new registration has heard nothing, and all that is promised to it is its first callback -/
theorem register (hs : t.Sound) {initial : Option κ}
    (ha : t.delivery.executor.accepts ⟨t.delivery.issued + 1⟩ = true)
    (hu : t.step calls (.register initial) = some u) :
    Assured calls ends u ⟨t.delivery.issued + 1⟩ (initial.toList.foldl (hear calls ends) []) := by
  obtain ⟨hp, rfl⟩ := of_register hu
  have hheard : heardAtEnd ends { t with delivery := (t.delivery.register initial).2 }
      ⟨t.delivery.issued + 1⟩ = [] :=
    (heardAtEnd_of_idle hs.underway_next).trans hs.received_next
  have hposting := getElem?_posting_of_isEmpty hp ⟨t.delivery.issued + 1⟩
  have hturn : t.underway[(⟨t.delivery.issued + 1⟩ : Registration)]? ≠ some .failed := by
    rw [hs.underway_next]
    simp
  cases initial with
  | none =>
    refine ⟨.fresh, Delivery.getElem?_slots_setSlot_self _ _ _, rfl, hturn, ?_⟩
    rw [hheard, hposting]
    rfl
  | some c =>
    refine ⟨_, Delivery.slots_register_self _ c, Slot.cancelled_receive _ _ _, hturn, ?_⟩
    rw [hheard, hposting, ha, Slot.pending_receive fun _ => rfl]
    simp [Slot.fresh, Handover.kept, Slot.fate]

theorem received_prefix (h : Assured calls ends t r promised) : t.received r <+: promised := by
  obtain ⟨slot, -, -, -, rfl⟩ := h
  exact received_prefix_heardAtEnd.trans (prefix_foldl_hear _ _)

theorem received_eq (h : Assured calls ends t r promised) (hs : t.Sound)
    (ht : t.delivery.executor.tasks = []) (hp : t.posting.isEmpty = true) :
    t.received r = promised := by
  obtain ⟨slot, hr, -, -, rfl⟩ := h
  have hpending : slot.pending = [] :=
    hs.delivery.pending_eq_nil hr (by rw [ht]; exact List.not_mem_nil)
  have hidle : t.underway[r]? = none := by
    cases hn : t.underway[r]? with
    | none => rfl
    | some turn =>
      have hm := hs.underway r turn hn
      rw [ht] at hm
      cases hm
  rw [hpending, getElem?_posting_of_isEmpty hp, heardAtEnd_of_idle hidle]
  rfl

end Assured

end Traffic

end OverlayWatch
