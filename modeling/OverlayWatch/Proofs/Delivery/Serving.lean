import OverlayWatch.Proofs.Delivery.Keeping

/-!
# What a registration is promised

Whoever is registered when a callback is handed in is promised its calls.  They are made one by one:
until then they are in the hands of the drain task, in the queue, or still to be queued, and no move
loses one, makes one twice or changes their order.

* `Traffic.Serving`        what has been received and all that is kept is what was promised;
* `serving_iff`            what is kept, and what is still to be queued;
* `Serving.step`           a move adds the callback that it hands in to the promise, nothing else;
* `Serving.register`       a new registration is promised its first callback;
* `Serving.received_eq`    at rest, everything promised has been received.
-/

namespace OverlayWatch

namespace Traffic

variable {κ γ : Type}

/-- the registration is not removed, no call of it fails, and it is not cancelled for that -/
def Move.Spares (r : Registration) : Move κ → Prop
  | .remove q => q ≠ r
  | .fail q _ => q ≠ r
  | .cancel q => q ≠ r
  | _ => True

instance (r : Registration) : (m : Move κ) → Decidable (m.Spares r)
  | .remove q => inferInstanceAs (Decidable (q ≠ r))
  | .fail q _ => inferInstanceAs (Decidable (q ≠ r))
  | .cancel q => inferInstanceAs (Decidable (q ≠ r))
  | .register _ => .isTrue trivial
  | .enqueue _ => .isTrue trivial
  | .post _ => .isTrue trivial
  | .look _ => .isTrue trivial
  | .take _ => .isTrue trivial
  | .call _ => .isTrue trivial
  | .finish _ => .isTrue trivial
  | .note _ => .isTrue trivial

theorem Move.Spares.retains {r : Registration} {m : Move κ} (h : m.Spares r) (t : Traffic κ γ) :
    t.Retains r m := by
  cases m with
  | remove q => exact h
  | fail q failure => exact fun e => absurd e h
  | cancel q => exact h
  | _ => trivial

/-- the calls that a move promises to everyone registered -/
def Move.adds (calls : κ → List γ) : Move κ → List γ
  | .enqueue c => calls c
  | _ => []

theorem Move.adds_eq (calls : κ → List γ) (m : Move κ) : m.adds calls = m.queued.flatMap calls := by
  cases m with
  | enqueue c => exact (List.append_nil _).symm
  | _ => rfl

/-- the calls received, in hand, queued and still to be queued are the promised ones -/
def Serving (calls : κ → List γ) (t : Traffic κ γ) (r : Registration) (promised : List γ) : Prop :=
  ∃ slot, t.delivery.slots[r]? = some slot ∧ slot.cancelled = false ∧
    t.received r ++ (t.inHand r ++ slot.pending.flatMap calls ++ t.posting[r]?.toList.flatMap calls)
      = promised

variable {calls : κ → List γ} {t u : Traffic κ γ} {r : Registration} {promised : List γ}

theorem serving_iff : Serving calls t r promised ↔
    ∃ kept, Keeping calls t r kept ∧ kept ++ t.posting[r]?.toList.flatMap calls = promised := by
  constructor
  · rintro ⟨slot, hr, hc, rfl⟩
    exact ⟨_, ⟨slot, hr, hc, rfl⟩, List.append_assoc _ _ _⟩
  · rintro ⟨kept, ⟨slot, hr, hc, rfl⟩, rfl⟩
    exact ⟨slot, hr, hc, (List.append_assoc _ _ _).symm⟩

namespace Serving

theorem received_prefix (h : Serving calls t r promised) : t.received r <+: promised := by
  obtain ⟨slot, -, -, hp⟩ := h
  exact ⟨_, hp⟩

/-- with no task out and nothing more to be queued, everything promised has been received -/
theorem received_eq (h : Serving calls t r promised) (hs : t.Sound)
    (ht : t.delivery.executor.tasks = []) (hp : t.posting.isEmpty = true) :
    t.received r = promised := by
  obtain ⟨slot, hr, -, hp'⟩ := h
  have hq : slot.pending = [] := hs.delivery.pending_eq_nil hr (by rw [ht]; exact List.not_mem_nil)
  have hu : t.underway[r]? = none := by
    rcases hn : t.underway[r]? with _ | turn
    · rfl
    · have hm := hs.underway r turn hn
      rw [ht] at hm
      cases hm
  rw [← hp', inHand, hu, hq, getElem?_posting_of_isEmpty hp]
  simp

/-- a move by which nothing is lost -/
theorem advance {m : Move κ} (h : Serving calls t r promised) (hs : t.Sound) (hm : t.Retains r m)
    (hk : (t.handed r m).flatMap Handover.kept = (t.handed r m).map Handover.callback)
    (hu : t.step calls m = some u) : Serving calls u r (promised ++ m.adds calls) := by
  obtain ⟨kept, hkeep, rfl⟩ := serving_iff.1 h
  have hp := handed_append_posting hs hkeep.isRegistered hu
  refine serving_iff.2 ⟨_, hkeep.step hs hm hu, ?_⟩
  rw [hk, List.append_assoc, ← List.flatMap_append, hp, List.flatMap_append, Move.adds_eq,
    List.append_assoc]

theorem step_of_retains {m : Move κ} (h : Serving calls t r promised) (hs : t.Sound)
    (ha : t.delivery.executor.accepts r = true) (hm : t.Retains r m)
    (hu : t.step calls m = some u) : Serving calls u r (promised ++ m.adds calls) :=
  h.advance hs hm (kept_handed ha m) hu

theorem step {m : Move κ} (h : Serving calls t r promised) (hs : t.Sound)
    (ha : t.delivery.executor.accepts r = true) (hm : m.Spares r)
    (hu : t.step calls m = some u) : Serving calls u r (promised ++ m.adds calls) :=
  h.step_of_retains hs ha (hm.retains t) hu

/-- a callback that is only handed in is not lost, whatever the executor takes -/
theorem enqueue (h : Serving calls t r promised) (hs : t.Sound) {c : κ}
    (hu : t.step calls (.enqueue c) = some u) : Serving calls u r (promised ++ calls c) :=
  h.advance (m := .enqueue c) hs trivial rfl hu

/-- a new registration is promised its first callback, and nothing of it has been done yet -/
theorem register (hs : t.Sound) {initial : Option κ}
    (ha : t.delivery.executor.accepts ⟨t.delivery.issued + 1⟩ = true)
    (hu : t.step calls (.register initial) = some u) :
    Serving calls u ⟨t.delivery.issued + 1⟩ (initial.toList.flatMap calls) := by
  have hp : u.posting.isEmpty = true := by
    obtain ⟨hp, rfl⟩ := of_register hu
    exact hp
  refine serving_iff.2 ⟨_, Keeping.register hs hu, ?_⟩
  rw [kept_handed ha, callback_handed_register, getElem?_posting_of_isEmpty hp]
  exact List.append_nil _

end Serving

end Traffic

end OverlayWatch
