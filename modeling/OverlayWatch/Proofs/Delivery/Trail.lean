import OverlayWatch.Proofs.Delivery.Moments

/-!
# What becomes of the callbacks handed to a listener

A callback goes with the drain task that is out, or a task is submitted for it, which the executor takes
in or refuses.  So nothing else waits where a task is refused, and the callback that it was for is all
that is lost.

* `Traffic.trail`              the callbacks handed to one registration, and what became of them;
* `Keeping.passAll`            all of them are kept that were not refused, in their order;
* `mem_tasks_step`             a task is only taken in together with a callback;
* `kept_prefix_trail`          where no task is taken in after one was refused, what is kept are the
                               first callbacks of all;
* `pairwise_trail_of_closing`  as it is with a pool that has been stopped.
-/

namespace OverlayWatch

variable {κ γ : Type}

/-! ## fates -/

namespace Slot

variable {slot : Slot κ} {taken : Bool}

theorem fate_eq_waits_iff : slot.fate taken = .waits ↔ slot.draining = true := by
  unfold fate
  cases slot.draining <;> cases taken <;> simp

theorem fate_eq_submitted_iff :
    slot.fate taken = .submitted ↔ slot.draining = false ∧ taken = true := by
  unfold fate
  cases slot.draining <;> cases taken <;> simp

theorem fate_eq_refused_iff :
    slot.fate taken = .refused ↔ slot.draining = false ∧ taken = false := by
  unfold fate
  cases slot.draining <;> cases taken <;> simp

end Slot

namespace Traffic

theorem handed_cases (t : Traffic κ γ) (r : Registration) (m : Move κ) :
    t.handed r m = [] ∨ ∃ c slot, t.handed r m = [⟨c, slot.fate (t.delivery.executor.accepts r)⟩] ∧
      (t.delivery.slots[r]? = some slot ∨
        r = ⟨t.delivery.issued + 1⟩ ∧ slot = .fresh ∧ ∃ initial, m = .register initial) := by
  cases m with
  | register initial =>
    by_cases hr : r = ⟨t.delivery.issued + 1⟩
    · cases initial with
      | none => exact .inl rfl
      | some c => exact .inr ⟨c, .fresh, if_pos hr, .inr ⟨hr, rfl, _, rfl⟩⟩
    · exact .inl (handed_register_of_ne hr initial)
  | post q =>
    by_cases e : q = r
    · subst e
      cases hc : t.posting[q]? with
      | none => exact .inl (by simp [handed, hc])
      | some c =>
        cases hs : t.delivery.slots[q]? with
        | none => exact .inl (by simp [handed, hs])
        | some slot => exact .inr ⟨c, slot, handed_post hc hs, .inl rfl⟩
    · exact .inl (handed_post_of_ne e)
  | _ => exact .inl rfl

theorem handed_nil_or_singleton (t : Traffic κ γ) (r : Registration) (m : Move κ) :
    t.handed r m = [] ∨ ∃ h, t.handed r m = [h] := by
  rcases handed_cases t r m with hn | ⟨c, slot, he, -⟩
  · exact .inl hn
  · exact .inr ⟨_, he⟩

/-! ## the trail of a listener -/

def trail (calls : κ → List γ) (r : Registration) :
    Traffic κ γ → List (Moment κ) → List (Handover κ)
  | _, [] => []
  | t, m :: rest => (t.under m.takes).handed r m.move ++
      match t.pass calls m with
      | some u => trail calls r u rest
      | none => []

section
variable {calls : κ → List γ} {t u s : Traffic κ γ} {r : Registration} {m : Moment κ}
  {moments rest : List (Moment κ)}

theorem trail_cons (hs : t.pass calls m = some s) : t.trail calls r (m :: rest)
    = (t.under m.takes).handed r m.move ++ s.trail calls r rest := by
  rw [trail, hs]

/-- what the executor says decides -/
theorem takes_of_mem_handed {h : Handover κ} (hh : h ∈ (t.under m.takes).handed r m.move) :
    (h.fate = .submitted → m.takes = true) ∧ (h.fate = .refused → m.takes = false) := by
  rcases handed_cases (t.under m.takes) r m.move with hn | ⟨c, slot, he, -⟩
  · rw [hn] at hh
    cases hh
  · rw [he] at hh
    obtain rfl := List.mem_singleton.1 hh
    rw [accepts_under]
    exact ⟨fun hf => (Slot.fate_eq_submitted_iff.1 hf).2,
      fun hf => (Slot.fate_eq_refused_iff.1 hf).2⟩

theorem takes_of_mem_trail {h : Handover κ} (hh : h ∈ t.trail calls r moments) :
    ∃ m ∈ moments, (h.fate = .submitted → m.takes = true) ∧ (h.fate = .refused → m.takes = false) := by
  induction moments generalizing t with
  | nil => cases hh
  | cons m rest ih =>
    rcases List.mem_append.1 hh with hm | hm
    · exact ⟨m, List.mem_cons_self, takes_of_mem_handed hm⟩
    · cases hp : t.pass calls m with
      | none =>
        rw [hp] at hm
        cases hm
      | some s =>
        rw [hp] at hm
        obtain ⟨n, hn, hf⟩ := ih hm
        exact ⟨n, List.mem_cons_of_mem m hn, hf⟩

/-- an executor that refuses one task and then all others, as a pool does that has been stopped -/
theorem pairwise_trail_of_closing (hu : t.passAll calls moments = some u)
    (hc : moments.Pairwise fun m n => m.takes = false → n.takes = false) :
    (t.trail calls r moments).Pairwise fun h k => h.fate = .refused → k.fate ≠ .submitted := by
  induction moments generalizing t with
  | nil => exact .nil
  | cons m rest ih =>
    obtain ⟨hm, hrest⟩ := List.pairwise_cons.1 hc
    obtain ⟨s, hp, hl⟩ := passAll_cons hu
    have htrail : t.trail calls r (m :: rest) = _ := trail_cons hp
    rcases handed_nil_or_singleton (t.under m.takes) r m.move with hn | ⟨h, he⟩
    · rw [htrail, hn]
      exact ih hl hrest
    · have hh : h ∈ (t.under m.takes).handed r m.move := by
        rw [he]
        exact List.mem_singleton_self h
      rw [htrail, he]
      refine List.pairwise_cons.2 ⟨fun k hk hf hsub => ?_, ih hl hrest⟩
      obtain ⟨n, hn, htakes, -⟩ := takes_of_mem_trail hk
      have hclosed : n.takes = false := hm n hn ((takes_of_mem_handed hh).2 hf)
      rw [htakes hsub] at hclosed
      cases hclosed

end

/-! ## what is kept -/

section
variable {t u : Traffic κ κ} {r : Registration} {kept : List κ} {moments : List (Moment κ)}

theorem Keeping.passAll (h : Keeping single t r kept) (hs : t.Sound) (hsingle : t.Single)
    (hu : t.passAll single moments = some u) (hr : u.delivery.isRegistered r = true) :
    Keeping single u r (kept ++ (t.trail single r moments).flatMap Handover.kept) ∧
    (t.trail single r moments).map Handover.callback ++ u.posting[r]?.toList
      = t.posting[r]?.toList ++ moments.flatMap fun m => m.move.queued := by
  induction moments generalizing t kept with
  | nil =>
    obtain rfl := Option.some.inj hu
    rw [trail, List.flatMap_nil, List.append_nil]
    exact ⟨h, (List.append_nil _).symm⟩
  | cons m rest ih =>
    obtain ⟨s, hp, hl⟩ := passAll_cons hu
    have hk : Keeping single (t.under m.takes) r kept := h
    have ht : (t.under m.takes).Sound := hs.under _
    have hts : (t.under m.takes).Single := hsingle.under _
    have hknown : r.number ≤ (t.under m.takes).delivery.issued := by
      obtain ⟨slot, hslot, -⟩ := h
      exact hs.delivery.issued r slot hslot
    -- who is registered in the end has been all along, so the move has not lost it
    have hlater : s.delivery.isRegistered r = true :=
      isRegistered_of_passAll (Nat.le_trans hknown (issued_step hp)) hl hr
    have hloses := ((isRegistered_step hknown hp).1 hlater).2
    have hstep := hk.step ht (hts.retains hloses hp) hp
    have hposting := handed_append_posting ht hk.isRegistered hp
    obtain ⟨hkeeping, hqueued⟩ := ih hstep (ht.step hp) (hts.step hp) hl
    rw [trail_cons hp]
    constructor
    · rw [flatMap_single, List.append_assoc, ← List.flatMap_append] at hkeeping
      exact hkeeping
    · rw [List.map_append, List.append_assoc, hqueued, ← List.append_assoc, hposting,
        List.flatMap_cons, List.append_assoc]
      rfl

end

end Traffic

/-! ## tasks come with callbacks -/

namespace Delivery

variable {d : Delivery κ} {c : κ} {q r : Registration}

theorem mem_tasks_of_push (h : q ∈ (d.push c r).executor.tasks) : q ∈ d.executor.tasks ∨
    q = r ∧ ∃ slot, d.slots[r]? = some slot ∧ slot.fate (d.executor.accepts r) = .submitted := by
  unfold push at h
  split at h
  · exact .inl h
  · rename_i slot hs
    split at h
    · exact .inl h
    · rename_i hd
      split at h
      · rename_i ha
        rcases List.mem_append.1 h with hq | hq
        · exact .inl hq
        · have hf : slot.fate (d.executor.accepts r) = .submitted :=
            Slot.fate_eq_submitted_iff.2 ⟨by simpa using hd, ha⟩
          exact .inr ⟨List.mem_singleton.1 hq, slot, hs, hf⟩
      · exact .inl h

end Delivery

namespace Traffic

section
variable {calls : κ → List γ} {t u : Traffic κ γ} {r : Registration}

theorem mem_tasks_step {m : Move κ} (hu : t.step calls m = some u)
    (h : r ∈ u.delivery.executor.tasks) :
    r ∈ t.delivery.executor.tasks ∨ ∃ k ∈ t.handed r m, k.fate = .submitted := by
  rw [delivery_step hu] at h
  cases m with
  | register initial =>
    cases initial with
    | none => exact .inl h
    | some c =>
      rcases Delivery.mem_tasks_of_push h with hr | ⟨rfl, slot, hs, hf⟩
      · exact .inl hr
      · obtain rfl := Option.some.inj ((Delivery.getElem?_slots_setSlot_self _ _ _).symm.trans hs)
        rw [handed_register_self]
        exact .inr ⟨_, List.mem_singleton_self _, hf⟩
  | remove q =>
    rw [effect, Delivery.executor_remove] at h
    exact .inl h
  | enqueue c => exact .inl h
  | post q =>
    obtain ⟨c, hc, -⟩ := of_post hu
    rw [effect_post hc] at h
    rcases Delivery.mem_tasks_of_push h with hr | ⟨rfl, slot, hs, hf⟩
    · exact .inl hr
    · rw [handed_post hc hs]
      exact .inr ⟨_, List.mem_singleton_self _, hf⟩
  | look q => exact .inl ((t.delivery.works_look q).tasks r h)
  | take q => exact .inl ((t.delivery.works_pop q).tasks r h)
  | cancel q =>
    rw [effect, Delivery.executor_cancel] at h
    exact .inl h
  | call q => exact .inl h
  | finish q => exact .inl h
  | fail q failure => exact .inl h
  | note events => exact .inl h

theorem not_mem_tasks_step {m : Move κ} (hu : t.step calls m = some u)
    (h : r ∉ t.delivery.executor.tasks) (hn : ∀ k ∈ t.handed r m, k.fate ≠ .submitted) :
    r ∉ u.delivery.executor.tasks := by
  intro hin
  rcases mem_tasks_step hu hin with hin | ⟨k, hk, hsub⟩
  · exact h hin
  · exact hn k hk hsub

/-- a callback waits for a task that is out, and is refused only if none is -/
theorem Sound.fate_handed (hs : t.Sound) {m : Move κ} {h : Handover κ} (hh : h ∈ t.handed r m) :
    (h.fate = .waits → r ∈ t.delivery.executor.tasks) ∧
      (h.fate = .refused → r ∉ t.delivery.executor.tasks) := by
  rcases handed_cases t r m with hn | ⟨c, slot, he, hslot⟩
  · rw [hn] at hh
    cases hh
  · rw [he] at hh
    obtain rfl := List.mem_singleton.1 hh
    rw [hs.delivery.mem_tasks_iff]
    rcases hslot with hr | ⟨rfl, rfl, -⟩
    · rw [hr]
      constructor
      · exact fun hf => Slot.fate_eq_waits_iff.1 hf
      · intro hf
        have hd : slot.draining = false := (Slot.fate_eq_refused_iff.1 hf).1
        simp [hd]
    · rw [hs.delivery.slots_next]
      refine ⟨fun hf => ?_, fun _ => by simp⟩
      have hd : (Slot.fresh : Slot κ).draining = true := Slot.fate_eq_waits_iff.1 hf
      cases hd

/-- with no task out and none taken in, everything is refused -/
theorem refused_of_not_mem_tasks {moments : List (Moment κ)} (hs : t.Sound)
    (hu : t.passAll calls moments = some u) (hr : r ∉ t.delivery.executor.tasks)
    (hn : ∀ h ∈ t.trail calls r moments, h.fate ≠ .submitted) :
    ∀ h ∈ t.trail calls r moments, h.fate = .refused := by
  induction moments generalizing t with
  | nil =>
    intro h hh
    cases hh
  | cons m rest ih =>
    obtain ⟨s, hp, hl⟩ := passAll_cons hu
    rw [trail_cons hp] at hn ⊢
    rw [← tasks_under t m.takes] at hr
    have hfirst : ∀ h ∈ (t.under m.takes).handed r m.move, h.fate = .refused := by
      intro h hh
      have hsub := hn h (List.mem_append_left _ hh)
      have hwaits := ((hs.under m.takes).fate_handed hh).1
      cases hf : h.fate with
      | waits => exact absurd (hwaits hf) hr
      | submitted => exact absurd hf hsub
      | refused => rfl
    have hnext : r ∉ s.delivery.executor.tasks :=
      not_mem_tasks_step hp hr fun k hk => hn k (List.mem_append_left _ hk)
    intro h hh
    rcases List.mem_append.1 hh with hh | hh
    · exact hfirst h hh
    · exact ih (hs.pass hp) hl hnext (fun k hk => hn k (List.mem_append_right _ hk)) h hh

/-- where no task is taken in after one was refused -/
theorem kept_prefix_trail {moments : List (Moment κ)} (hs : t.Sound)
    (hu : t.passAll calls moments = some u)
    (hp : (t.trail calls r moments).Pairwise fun h k => h.fate = .refused → k.fate ≠ .submitted) :
    (t.trail calls r moments).flatMap Handover.kept
      <+: (t.trail calls r moments).map Handover.callback := by
  induction moments generalizing t with
  | nil => exact List.prefix_rfl
  | cons m rest ih =>
    obtain ⟨s, hpass, hl⟩ := passAll_cons hu
    have htrail : t.trail calls r (m :: rest) = _ := trail_cons hpass
    rcases handed_nil_or_singleton (t.under m.takes) r m.move with hn | ⟨h, he⟩
    · rw [hn] at htrail
      rw [htrail] at hp ⊢
      exact ih (hs.pass hpass) hl hp
    · rw [he] at htrail
      rw [htrail] at hp ⊢
      obtain ⟨hfirst, hrest⟩ := List.pairwise_cons.1 hp
      rw [List.singleton_append, List.flatMap_cons]
      by_cases hf : h.fate = .refused
      -- the first refusal: no task is out then, and none comes any more
      · have hh : h ∈ (t.under m.takes).handed r m.move := by
          rw [he]
          exact List.mem_singleton_self h
        have hout := ((hs.under m.takes).fate_handed hh).2 hf
        have hnext : r ∉ s.delivery.executor.tasks := by
          refine not_mem_tasks_step hpass hout fun k hk => ?_
          rw [he] at hk
          obtain rfl := List.mem_singleton.1 hk
          rw [hf]
          simp
        have hall := refused_of_not_mem_tasks (hs.pass hpass) hl hnext fun k hk => hfirst k hk hf
        have hnone : (s.trail calls r rest).flatMap Handover.kept = [] :=
          List.flatMap_eq_nil_iff.2 fun k hk => if_pos (hall k hk)
        have hlost : h.kept = [] := if_pos hf
        rw [hlost, hnone]
        exact List.nil_prefix
      · have hkept : h.kept = [h.callback] := if_neg hf
        rw [hkept]
        exact (List.prefix_cons_inj h.callback).2 (ih (hs.pass hpass) hl hrest)

end

end Traffic

end OverlayWatch
