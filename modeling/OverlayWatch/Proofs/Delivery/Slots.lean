import Mathlib.Data.List.Basic
import OverlayWatch.Delivery

/-!
# Slots

What each operation of a delivery does to the slot of one registration, and what it leaves alone.

* `Slot.receive`              a slot after a callback was pushed to it;
* `Delivery.slots_push`, `slots_enqueue`, `slots_cancel`, `pop_cases`   one slot after one operation;
* `Delivery.Works`            what a drain task leaves alone at its own slot;
* `Delivery.works_look`, `works_pop`   all but its slot and its place with the executor;
* `Delivery.isRegistered_cancel` and the like   who is registered after an operation;
* `Delivery.executor_remove`, `issued_push` and the like   what an operation has no part in.
-/

namespace OverlayWatch

variable {κ : Type}

/-- `taken` says whether the executor would take a new task -/
def Slot.receive (slot : Slot κ) (taken : Bool) (c : κ) : Slot κ :=
  if slot.draining || taken then { slot with pending := slot.pending ++ [c], draining := true }
  else { slot with pending := [] }

theorem Slot.cancelled_receive (slot : Slot κ) (taken : Bool) (c : κ) :
    (slot.receive taken c).cancelled = slot.cancelled := by
  unfold receive
  split <;> rfl

namespace Delivery

variable (d : Delivery κ) (c : κ) (r q : Registration)

/-! ## one slot, one operation -/

theorem slots_setSlot (slot : Slot κ) :
    (d.setSlot r slot).slots[q]? = if r = q then some slot else d.slots[q]? := by
  by_cases h : r = q
  · rw [if_pos h, ← h, getElem?_slots_setSlot_self]
  · rw [if_neg h, getElem?_slots_setSlot_of_ne h]

theorem slots_push : (d.push c r).slots[q]? =
    if r = q then d.slots[q]?.map fun slot => slot.receive (d.executor.accepts q) c
    else d.slots[q]? := by
  unfold push
  split
  · rename_i hs
    by_cases h : r = q
    · rw [if_pos h, ← h, hs]
      rfl
    · rw [if_neg h]
  · rename_i slot hs
    by_cases hd : slot.draining = true
    · rw [if_pos hd, slots_setSlot]
      by_cases h : r = q
      · rw [if_pos h, if_pos h, ← h, hs]
        simp [Slot.receive, hd]
      · rw [if_neg h, if_neg h]
    · rw [if_neg hd]
      by_cases ha : d.executor.accepts r = true
      · rw [if_pos ha]
        show (d.setSlot r _).slots[q]? = _
        rw [slots_setSlot]
        by_cases h : r = q
        · rw [if_pos h, if_pos h, ← h, hs]
          simp [Slot.receive, ha]
        · rw [if_neg h, if_neg h]
      · rw [if_neg ha]
        show (d.setSlot r _).slots[q]? = _
        rw [slots_setSlot]
        by_cases h : r = q
        · rw [if_pos h, if_pos h, ← h, hs]
          simp [Slot.receive, ha, hd]
        · rw [if_neg h, if_neg h]

theorem accepts_push : (d.push c r).executor.accepts = d.executor.accepts := by
  unfold push
  split
  · rfl
  · split
    · rfl
    · split <;> rfl

theorem issued_push : (d.push c r).issued = d.issued := by
  unfold push
  split
  · rfl
  · split
    · rfl
    · split <;> rfl

theorem slots_foldl_push {rs : List Registration} (hd : rs.Nodup) :
    (rs.foldl (push · c) d).slots[q]? =
      if q ∈ rs then d.slots[q]?.map fun slot => slot.receive (d.executor.accepts q) c
      else d.slots[q]? := by
  induction rs generalizing d with
  | nil => rfl
  | cons r rs ih =>
    obtain ⟨hr, hrs⟩ := List.nodup_cons.1 hd
    rw [List.foldl_cons, ih _ hrs, accepts_push, slots_push]
    by_cases h : r = q
    · subst h
      simp [hr]
    · simp [h, Ne.symm h]

theorem nodup_registered : d.registered.Nodup := by
  have hd : (d.slots.toList.filter fun entry => !entry.2.cancelled).Pairwise
      fun a b => a.1 ≠ b.1 :=
    (Std.ExtTreeMap.distinct_keys_toList.imp fun h e =>
      h (by rw [e]; exact Std.ReflOrd.compare_self)).filter _
  exact List.pairwise_map.2 hd

theorem slots_enqueue : (d.enqueue c).slots[q]? = d.slots[q]?.map fun slot =>
    if slot.cancelled then slot else slot.receive (d.executor.accepts q) c := by
  rw [enqueue, slots_foldl_push d c q d.nodup_registered]
  cases hs : d.slots[q]? with
  | none => simp
  | some slot =>
    have hm : q ∈ d.registered ↔ slot.cancelled = false := by
      rw [mem_registered, isRegistered, hs]
      simp
    cases hc : slot.cancelled with
    | true => simp [hm, hc]
    | false => simp [hm, hc]

theorem slots_cancel : (d.cancel r).slots[q]? =
    if r = q then d.slots[q]?.map fun slot => { slot with cancelled := true }
    else d.slots[q]? := by
  unfold cancel
  split
  · rename_i hs
    by_cases h : r = q
    · rw [if_pos h, ← h, hs]
      rfl
    · rw [if_neg h]
  · rename_i slot hs
    rw [slots_setSlot]
    by_cases h : r = q
    · rw [if_pos h, if_pos h, ← h, hs]
      rfl
    · rw [if_neg h, if_neg h]

theorem slots_remove_of_ne {r q : Registration} (h : r ≠ q) :
    (d.remove r).2.slots[q]? = d.slots[q]? := by
  unfold remove
  split
  · show (d.cancel r).slots[q]? = _
    rw [slots_cancel, if_neg h]
  · rfl

theorem slots_endTask (slot : Slot κ) : (d.endTask r slot).slots[q]? =
    if r = q then some { slot with pending := [], draining := false } else d.slots[q]? :=
  slots_setSlot d r q _

/-- a drain task goes on exactly if its registration is not cancelled -/
theorem look_cases {slot : Slot κ} (hs : d.slots[r]? = some slot) :
    (slot.cancelled = false ∧ d.look r = (true, d)) ∨
    (slot.cancelled = true ∧ d.look r = (false, d.endTask r slot)) := by
  rw [look, hs]
  cases hc : slot.cancelled with
  | false => exact .inl ⟨rfl, by simp [hc]⟩
  | true => exact .inr ⟨rfl, by simp [hc]⟩

/-- it gets the first callback queued, or it ends -/
theorem pop_cases {slot : Slot κ} (hs : d.slots[r]? = some slot) :
    (∃ c rest, slot.pending = c :: rest ∧
      d.pop r = (some c, d.setSlot r { slot with pending := rest })) ∨
    (slot.pending = [] ∧ d.pop r = (none, d.endTask r slot)) := by
  rw [pop, hs]
  rcases hp : slot.pending with _ | ⟨c, rest⟩
  · exact .inr ⟨rfl, by simp [hp]⟩
  · exact .inl ⟨c, rest, rfl, by simp [hp]⟩

theorem slots_register_of_ne {q : Registration} (h : q ≠ ⟨d.issued + 1⟩) (initial : Option κ) :
    (d.register initial).2.slots[q]? = d.slots[q]? := by
  cases initial with
  | none => exact getElem?_slots_setSlot_of_ne (Ne.symm h)
  | some c =>
    show (push _ c ⟨d.issued + 1⟩).slots[q]? = _
    rw [slots_push, if_neg (Ne.symm h)]
    exact getElem?_slots_setSlot_of_ne (Ne.symm h)

theorem slots_register_self (c : κ) : (d.register (some c)).2.slots[(⟨d.issued + 1⟩ : Registration)]?
    = some (Slot.fresh.receive (d.executor.accepts ⟨d.issued + 1⟩) c) := by
  show (push { d.setSlot ⟨d.issued + 1⟩ .fresh with issued := d.issued + 1 } c _).slots[_]? = _
  rw [slots_push, if_pos rfl, getElem?_slots_setSlot_self]
  rfl

/-! ## who is registered -/

theorem isRegistered_push : (d.push c r).isRegistered q = d.isRegistered q := by
  unfold isRegistered
  rw [slots_push]
  by_cases h : r = q
  · rw [if_pos h]
    cases d.slots[q]? with
    | none => rfl
    | some slot => simp [Slot.cancelled_receive]
  · rw [if_neg h]

theorem isRegistered_cancel : (d.cancel r).isRegistered q = (!decide (r = q) && d.isRegistered q) := by
  unfold isRegistered
  rw [slots_cancel]
  by_cases h : r = q
  · rw [if_pos h]
    cases d.slots[q]? with
    | none => simp
    | some slot => simp [h]
  · rw [if_neg h]
    simp [h]

theorem isRegistered_remove :
    (d.remove r).2.isRegistered q = (!decide (r = q) && d.isRegistered q) := by
  unfold remove
  split
  · exact d.isRegistered_cancel r q
  · rename_i hr
    by_cases h : r = q
    · subst h
      simpa using hr
    · simp [h]

theorem look_answer : (d.look r).1 = d.isRegistered r := by
  cases hs : d.slots[r]? with
  | none => simp [look, isRegistered, hs]
  | some slot =>
    obtain ⟨hc, hl⟩ | ⟨hc, hl⟩ := d.look_cases r hs
    · simp [hl, isRegistered, hs, hc]
    · simp [hl, isRegistered, hs, hc]

/-- who is registered goes on to the queue -/
theorem poll_of_registered {d : Delivery κ} {r : Registration} (h : d.isRegistered r = true) :
    d.look r = (true, d) ∧ d.poll r = d.pop r := by
  obtain ⟨slot, hs, hc⟩ := (Option.any_eq_true _ _).1 h
  have hl : d.look r = (true, d) := by
    rw [look, hs]
    simpa using hc
  exact ⟨hl, by rw [poll, hl]; rfl⟩

/-- who is not ends -/
theorem poll_of_not_registered {d : Delivery κ} {r : Registration} (h : d.isRegistered r = false) :
    d.poll r = (none, (d.look r).2) := by
  have hl : (d.look r).1 = false := (d.look_answer r).trans h
  show (if (d.look r).1 then (d.look r).2.pop r else (none, (d.look r).2)) = _
  rw [hl]
  rfl

theorem isRegistered_register_of_ne {q : Registration} (h : q ≠ ⟨d.issued + 1⟩)
    (initial : Option κ) : (d.register initial).2.isRegistered q = d.isRegistered q := by
  rw [isRegistered, slots_register_of_ne d h, isRegistered]

/-- whether or not the first callback is refused -/
theorem isRegistered_register_self (initial : Option κ) :
    (d.register initial).2.isRegistered ⟨d.issued + 1⟩ = true := by
  cases initial with
  | none =>
    show (d.setSlot _ .fresh).isRegistered _ = true
    rw [isRegistered, getElem?_slots_setSlot_self]
    rfl
  | some c =>
    rw [isRegistered, slots_register_self, Option.any_some, Slot.cancelled_receive]
    rfl

/-- they are in the order in which they came -/
theorem sorted_registered : d.registered.Pairwise fun a b => a.number < b.number := by
  have hd : (d.slots.toList.filter fun entry => !entry.2.cancelled).Pairwise
      fun a b => compare a.1 b.1 = .lt := Std.ExtTreeMap.ordered_keys_toList.filter _
  exact List.pairwise_map.2 (hd.imp fun h => Nat.compare_eq_lt.1 h)

theorem remove_answer : (d.remove r).1 = d.isRegistered r := by
  unfold remove
  split
  · rename_i h
    exact h.symm
  · rename_i h
    exact (eq_false_of_ne_true h).symm

/-! ## what stays -/

theorem policy_push : (d.push c r).policy = d.policy := by
  unfold push
  split
  · rfl
  · split
    · rfl
    · split <;> rfl

theorem policy_register (initial : Option κ) : (d.register initial).2.policy = d.policy := by
  cases initial with
  | none => rfl
  | some c => exact policy_push _ c _

theorem policy_cancel : (d.cancel r).policy = d.policy := by
  unfold cancel
  split <;> rfl

theorem policy_remove : (d.remove r).2.policy = d.policy := by
  unfold remove
  split
  · exact d.policy_cancel r
  · rfl

theorem mem_tasks_push (h : q ∈ d.executor.tasks) : q ∈ (d.push c r).executor.tasks := by
  unfold push
  split
  · exact h
  · split
    · exact h
    · split
      · exact List.mem_append_left _ h
      · exact h

theorem issued_register (initial : Option κ) : (d.register initial).2.issued = d.issued + 1 := by
  cases initial with
  | none => rfl
  | some c => exact issued_push _ c _

theorem accepts_register (initial : Option κ) :
    (d.register initial).2.executor.accepts = d.executor.accepts := by
  cases initial with
  | none => rfl
  | some c => exact accepts_push _ c _

theorem mem_tasks_register (h : q ∈ d.executor.tasks) (initial : Option κ) :
    q ∈ (d.register initial).2.executor.tasks := by
  cases initial with
  | none => exact h
  | some c => exact mem_tasks_push _ c _ q h

theorem executor_cancel : (d.cancel r).executor = d.executor := by
  unfold cancel
  split <;> rfl

theorem issued_cancel : (d.cancel r).issued = d.issued := by
  unfold cancel
  split <;> rfl

theorem executor_remove : (d.remove r).2.executor = d.executor := by
  unfold remove
  split
  · exact d.executor_cancel r
  · rfl

theorem issued_remove : (d.remove r).2.issued = d.issued := by
  unfold remove
  split
  · exact d.issued_cancel r
  · rfl

/-! ## the work of a drain task -/

/-- from `d` to `e`, the drain task of `r` has done something at its slot -/
structure Works (r : Registration) (d e : Delivery κ) : Prop where
  policy : e.policy = d.policy
  issued : e.issued = d.issued
  accepts : e.executor.accepts = d.executor.accepts
  journal : e.journal = d.journal
  tasks : ∀ q, q ∈ e.executor.tasks → q ∈ d.executor.tasks
  others : ∀ q, r ≠ q → e.slots[q]? = d.slots[q]?
  registered : ∀ q, e.isRegistered q = d.isRegistered q

namespace Works

variable {d : Delivery κ} {r : Registration} {slot : Slot κ}

theorem refl (r : Registration) (d : Delivery κ) : Works r d d :=
  ⟨rfl, rfl, rfl, rfl, fun _ h => h, fun _ _ => rfl, fun _ => rfl⟩

theorem registered_setSlot (hs : d.slots[r]? = some slot) {other : Slot κ}
    (hc : other.cancelled = slot.cancelled) (q : Registration) :
    (d.setSlot r other).isRegistered q = d.isRegistered q := by
  rw [isRegistered, isRegistered, slots_setSlot]
  by_cases h : r = q
  · subst h
    rw [if_pos rfl, hs, Option.any_some, Option.any_some, hc]
  · rw [if_neg h]

theorem setSlot (hs : d.slots[r]? = some slot) (pending : List κ) :
    Works r d (d.setSlot r { slot with pending }) where
  policy := rfl
  issued := rfl
  accepts := rfl
  journal := rfl
  tasks _ h := h
  others _ h := getElem?_slots_setSlot_of_ne h
  registered := registered_setSlot hs rfl

theorem endTask (hs : d.slots[r]? = some slot) : Works r d (d.endTask r slot) where
  policy := rfl
  issued := rfl
  accepts := rfl
  journal := rfl
  tasks _ h := List.mem_of_mem_erase h
  others _ h := getElem?_slots_setSlot_of_ne h
  registered :=
    have h : ({ slot with pending := [], draining := false } : Slot κ).cancelled = slot.cancelled := rfl
    registered_setSlot hs h

end Works

theorem works_look : Works r d (d.look r).2 := by
  cases hs : d.slots[r]? with
  | none =>
    rw [look, hs]
    exact Works.refl r d
  | some slot =>
    obtain ⟨-, hl⟩ | ⟨-, hl⟩ := d.look_cases r hs
    · rw [hl]
      exact Works.refl r d
    · rw [hl]
      exact Works.endTask hs

theorem works_pop : Works r d (d.pop r).2 := by
  cases hs : d.slots[r]? with
  | none =>
    rw [pop, hs]
    exact Works.refl r d
  | some slot =>
    obtain ⟨c, rest, -, hp⟩ | ⟨-, hp⟩ := d.pop_cases r hs
    · rw [hp]
      exact Works.setSlot hs rest
    · rw [hp]
      exact Works.endTask hs

end Delivery

end OverlayWatch
