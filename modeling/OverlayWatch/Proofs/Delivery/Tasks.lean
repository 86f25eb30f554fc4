import OverlayWatch.Proofs.Delivery.Slots

/-!
# Slots and their tasks

A slot says whether a drain task of it is out; the executor says which tasks are out.  The two are
changed in different places and never disagree, whatever the executor accepts or refuses.

* `Delivery.Sound`          a slot is draining iff the executor holds exactly one task of it, and
                            nothing waits at a slot that is not draining;
* `Sound.register`, `Sound.enqueue`, `Sound.remove`, `Sound.look`, `Sound.pop`   every operation
                            keeps this;
* `Sound.pending_eq_nil`    so nothing waits once no task is out.
-/

namespace OverlayWatch

namespace Delivery

variable {κ : Type} {d : Delivery κ} {r : Registration}

/-- a slot is draining iff exactly one task of it is with the executor, nothing waits at a slot that
is not draining, and only registrations that were given out have slots -/
structure Sound (d : Delivery κ) : Prop where
  tasks : ∀ r : Registration,
    d.executor.tasks.count r = if d.slots[r]?.any Slot.draining then 1 else 0
  idle : ∀ (r : Registration) (slot : Slot κ),
    d.slots[r]? = some slot → slot.draining = false → slot.pending = []
  issued : ∀ (r : Registration) (slot : Slot κ), d.slots[r]? = some slot → r.number ≤ d.issued

theorem sound_empty (policy : FailurePolicy) : (empty policy : Delivery κ).Sound where
  tasks r := by simp [empty, Executor.accepting]
  idle r slot h := by simp [empty] at h
  issued r slot h := by simp [empty] at h

namespace Sound

variable (h : d.Sound)

include h

theorem of_slot {e : Delivery κ} {slot : Slot κ}
    (hs : ∀ q, e.slots[q]? = if r = q then some slot else d.slots[q]?)
    (ht : ∀ q, e.executor.tasks.count q =
      if r = q then (if slot.draining then 1 else 0) else d.executor.tasks.count q)
    (hp : slot.draining = false → slot.pending = [])
    (hi : d.issued ≤ e.issued) (hr : r.number ≤ e.issued) : e.Sound where
  tasks q := by
    rw [ht, hs]
    by_cases hq : r = q
    · rw [if_pos hq, if_pos hq]
      rfl
    · rw [if_neg hq, if_neg hq, h.tasks]
  idle q other ho := by
    rw [hs] at ho
    by_cases hq : r = q
    · rw [if_pos hq] at ho
      obtain rfl := Option.some.inj ho
      exact hp
    · rw [if_neg hq] at ho
      exact h.idle q other ho
  issued q other ho := by
    rw [hs] at ho
    by_cases hq : r = q
    · exact hq ▸ hr
    · rw [if_neg hq] at ho
      exact Nat.le_trans (h.issued q other ho) hi

/-- a slot may change as long as its draining flag is kept -/
theorem setSlot {slot other : Slot κ} (hs : d.slots[r]? = some slot)
    (hd : other.draining = slot.draining)
    (hp : other.draining = false → other.pending = []) : (d.setSlot r other).Sound := by
  refine h.of_slot (fun q => slots_setSlot d r q other) (fun q => ?_) hp (Nat.le_refl _)
    (h.issued r slot hs)
  show d.executor.tasks.count q = _
  by_cases hq : r = q
  · rw [if_pos hq, ← hq, h.tasks, hs, hd]
    rfl
  · rw [if_neg hq]

theorem noteAll (events : List Event) : (d.noteAll events).Sound := ⟨h.tasks, h.idle, h.issued⟩

theorem note (event : Event) : (d.note event).Sound := ⟨h.tasks, h.idle, h.issued⟩

theorem push (c : κ) (r : Registration) : (d.push c r).Sound := by
  unfold Delivery.push
  split
  · exact h
  · rename_i slot hs
    by_cases hd : slot.draining = true
    · rw [if_pos hd]
      exact h.setSlot hs rfl (fun hn => by rw [hn] at hd; cases hd)
    · have hc : d.executor.tasks.count r = 0 := by
        rw [h.tasks, hs, if_neg (by simpa using hd)]
      rw [if_neg hd]
      by_cases ha : d.executor.accepts r = true
      · rw [if_pos ha]
        refine h.of_slot (fun q => slots_setSlot d r q _) (fun q => ?_) (fun hn => by cases hn)
          (Nat.le_refl _) (h.issued r slot hs)
        show (d.executor.tasks ++ [r]).count q = _
        by_cases hq : r = q
        · rw [if_pos hq, ← hq, List.count_append, hc]
          simp
        · rw [if_neg hq, List.count_append, List.count_singleton]
          simp [hq]
      · rw [if_neg ha]
        have hn : (d.setSlot r { slot with pending := [] }).Sound := h.setSlot hs rfl (fun _ => rfl)
        exact hn.note _

theorem foldl_push (c : κ) (rs : List Registration) : (rs.foldl (Delivery.push · c) d).Sound := by
  induction rs generalizing d with
  | nil => exact h
  | cons r rs ih => exact ih (h.push c r)

theorem enqueue (c : κ) : (d.enqueue c).Sound := h.foldl_push c d.registered

/-- the registration to come has no slot yet -/
theorem slots_next : d.slots[(⟨d.issued + 1⟩ : Registration)]? = none := by
  cases hs : d.slots[(⟨d.issued + 1⟩ : Registration)]? with
  | none => rfl
  | some slot =>
    have hn : d.issued + 1 ≤ d.issued := h.issued _ slot hs
    omega

theorem number_le (hr : d.isRegistered r = true) : r.number ≤ d.issued := by
  obtain ⟨slot, hs, -⟩ := (Option.any_eq_true _ _).1 hr
  exact h.issued r slot hs

theorem register (initial : Option κ) : (d.register initial).2.Sound := by
  have hc : d.executor.tasks.count (⟨d.issued + 1⟩ : Registration) = 0 := by
    rw [h.tasks, h.slots_next]
    rfl
  have ho : ({ d.setSlot ⟨d.issued + 1⟩ .fresh with issued := d.issued + 1 } : Delivery κ).Sound := by
    refine h.of_slot (fun q => slots_setSlot d ⟨d.issued + 1⟩ q .fresh) (fun q => ?_) (fun _ => rfl)
      (Nat.le_succ _) (Nat.le_refl _)
    show d.executor.tasks.count q = _
    by_cases hq : (⟨d.issued + 1⟩ : Registration) = q
    · rw [if_pos hq, ← hq, hc]
      rfl
    · rw [if_neg hq]
  cases initial with
  | none => exact ho.note _
  | some c => exact (ho.push c _).note _

theorem cancel (r : Registration) : (d.cancel r).Sound := by
  unfold Delivery.cancel
  split
  · exact h
  · rename_i slot hs
    exact h.setSlot hs rfl (h.idle r slot hs)

theorem remove (r : Registration) : (d.remove r).2.Sound := by
  unfold Delivery.remove
  split
  · exact (h.cancel r).note _
  · exact h

theorem endTask {slot : Slot κ} (hs : d.slots[r]? = some slot) : (d.endTask r slot).Sound := by
  refine h.of_slot (slots_endTask d r · slot) (fun q => ?_) (fun _ => rfl) (Nat.le_refl _)
    (h.issued r slot hs)
  show (d.executor.tasks.erase r).count q = _
  by_cases hq : r = q
  · rw [if_pos hq, ← hq, List.count_erase_self, h.tasks]
    split <;> rfl
  · rw [if_neg hq, List.count_erase_of_ne (Ne.symm hq)]

theorem mem_tasks_iff : r ∈ d.executor.tasks ↔ d.slots[r]?.any Slot.draining = true := by
  rw [← List.count_pos_iff, h.tasks]
  by_cases hd : d.slots[r]?.any Slot.draining = true
  · simp [hd]
  · simp [hd]

/-- a task that is out has a slot, and it is draining -/
theorem slot_of_task (hr : r ∈ d.executor.tasks) :
    ∃ slot, d.slots[r]? = some slot ∧ slot.draining = true :=
  (Option.any_eq_true _ _).1 (h.mem_tasks_iff.1 hr)

/-- whether or not a task is out -/
theorem look (r : Registration) : (d.look r).2.Sound := by
  cases hs : d.slots[r]? with
  | none =>
    rw [Delivery.look, hs]
    exact h
  | some slot =>
    obtain ⟨-, hl⟩ | ⟨-, hl⟩ := d.look_cases r hs
    · rw [hl]
      exact h
    · rw [hl]
      exact h.endTask hs

/-- only a task that is out takes a callback -/
theorem pop (hr : r ∈ d.executor.tasks) : (d.pop r).2.Sound := by
  obtain ⟨slot, hs, hd⟩ := h.slot_of_task hr
  obtain ⟨c, rest, -, hp⟩ | ⟨-, hp⟩ := d.pop_cases r hs
  · rw [hp]
    exact h.setSlot hs rfl (fun hn => by rw [hd] at hn; cases hn)
  · rw [hp]
    exact h.endTask hs

theorem fail (r : Registration) (failure : Failure) : (d.fail r failure).Sound := h.note _

/-- with no task out, nothing waits -/
theorem pending_eq_nil {slot : Slot κ} (hs : d.slots[r]? = some slot)
    (hr : r ∉ d.executor.tasks) : slot.pending = [] := by
  have hc := List.count_eq_zero.2 hr
  rw [h.tasks, hs] at hc
  apply h.idle r slot hs
  cases hd : slot.draining with
  | false => rfl
  | true => simp [hd] at hc

end Sound

end Delivery

end OverlayWatch
