import OverlayWatch.Proofs.Service.Counters

/-!
# How many calls an observer is to expect

The service counts a notification when it goes out, and an observer counts a call when it is made.  For
an observer that is there from the start the two counts meet: the calls of its stream are two for the
snapshot and one for each notification counted.

* `Stats.expectedCalls_foldl_addSent`   every notification that goes out stands for one call;
* `State.length_stream`        the counters say how long the stream of the first observer is;
* `Traffic.IsServed`           every callback queued for a registration has been run;
* `Serving.length_received_eq_iff`   what has been received and what has not make up the promise;
* `Activity.Promised.length_received_eq_iff`   so all has been received just when all has been run.
-/

namespace OverlayWatch

open Notification (calls)

/-! ## counted notifications -/

theorem Stats.expectedCalls_foldl_addSent (s : Stats) {sent : List Notification}
    (h : ∀ n ∈ sent, ∃ call, n.calls = [call]) :
    (sent.foldl addSent s).expectedCalls = s.expectedCalls + (sent.flatMap calls).length := by
  induction sent generalizing s with
  | nil => rfl
  | cons n sent ih =>
    obtain ⟨call, hn⟩ := h n List.mem_cons_self
    have hs : (s.addSent n).expectedCalls = s.expectedCalls + 1 := by
      cases n with
      | snapshot change maps => cases hn
      | properties change => simp only [addSent, expectedCalls]; omega
      | valueMaps maps => simp only [addSent, expectedCalls]; omega
    rw [List.foldl_cons, ih _ fun m hm => h m (List.mem_cons_of_mem n hm), hs, List.flatMap_cons, hn,
      List.length_append, Nat.add_assoc]
    rfl

theorem Stats.expectedCalls_count_ok (s : Stats) (u : Update) (d : Delta) :
    (s.count u (.ok d)).expectedCalls = s.expectedCalls + d.calls.length := by
  rw [count, expectedCalls_foldl_addSent _ fun n hn => Delta.notifications_single hn,
    Delta.calls_notifications]
  cases u <;> rfl

namespace State

theorem expectedCalls_counted (s : State) (stats : Stats) (updates : List Update) :
    (s.counted stats updates).expectedCalls =
      stats.expectedCalls + ((s.deltas updates).flatMap Delta.calls).length := by
  induction updates generalizing s stats with
  | nil => rfl
  | cons u rest ih =>
    rw [counted, ih]
    cases hu : s.update u with
    | error fault =>
      rw [deltas_cons_error hu, advance_error hu]
      rfl
    | ok result =>
      obtain ⟨d, next⟩ := result
      rw [deltas_cons_ok hu, advance_ok hu, List.flatMap_cons, List.length_append, ← Nat.add_assoc,
        ← Stats.expectedCalls_count_ok]
      rfl

/-- the first observer hears the two calls of its snapshot and one for each notification -/
theorem length_stream (s : State) (updates : List Update) :
    (s.stream updates).length = (s.counted .zero updates).expectedCalls := by
  rw [expectedCalls_counted, stream, List.length_append]
  rfl

end State

/-! ## callbacks that have been run -/

namespace Traffic

variable {κ γ : Type}

/-- no callback waits in the queue, and the one in hand has made all its calls -/
def IsServed (t : Traffic κ γ) (r : Registration) : Prop :=
  t.inHand r = [] ∧ (t.delivery.slots[r]?.map Slot.pending).getD [] = []

instance [DecidableEq κ] [DecidableEq γ] (t : Traffic κ γ) (r : Registration) :
    Decidable (t.IsServed r) :=
  inferInstanceAs (Decidable (_ ∧ _))

variable {calls : κ → List γ} {t : Traffic κ γ} {r : Registration} {promised : List γ}

/-- a callback that makes no call at all would not show -/
theorem Serving.length_received_eq_iff (h : Serving calls t r promised)
    (hc : ∀ c, calls c ≠ []) (hp : t.posting.isEmpty = true) :
    (t.received r).length = promised.length ↔ t.IsServed r := by
  obtain ⟨slot, hr, -, rfl⟩ := h
  rw [getElem?_posting_of_isEmpty hp, IsServed, hr]
  cases hq : slot.pending with
  | nil => simp [hq]
  | cons c rest =>
    have hlen : 0 < (calls c).length := List.length_pos_iff.2 (hc c)
    simp only [Option.toList_none, List.flatMap_nil, List.append_nil, List.flatMap_cons,
      List.length_append, Option.map_some, Option.getD_some, hq, reduceCtorEq, and_false, iff_false]
    omega

end Traffic

namespace Activity

theorem calls_ne_nil (n : Notification) : n.calls ≠ [] := by
  cases n <;> exact List.cons_ne_nil _ _

variable {a b : Activity} {r : Registration} {promised : List Call}

/-- nothing is on its way to the queue -/
theorem Promised.length_received_eq_iff (h : b.Promised r promised) (hb : b.isSettled = true) :
    (b.received r).length = promised.length ↔ b.traffic.IsServed r := by
  obtain ⟨sent, hq, rfl⟩ := h
  obtain ⟨ho, hp⟩ := isSettled_iff.1 hb
  rw [ho, List.flatMap_nil, List.append_nil]
  exact hq.length_received_eq_iff calls_ne_nil hp

theorem Promised.length_received_le (h : b.Promised r promised) :
    (b.received r).length ≤ promised.length :=
  h.received_prefix.length_le

end Activity

end OverlayWatch
