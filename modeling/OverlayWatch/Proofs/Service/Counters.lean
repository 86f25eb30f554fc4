import OverlayWatch.Proofs.Service.Ingestion
import OverlayWatch.Proofs.Service.Stream

/-!
# What has been counted

A notification is counted when it goes out, which may be some time after its update.  With what is
still to be sent out counted in, the counters are at every moment those of the updates so far, whoever
has come in or gone and however far the drain tasks have got.

* `State.counted`          the counters after updates, from what the state makes of each;
* `Activity.due`           the counters once the last update has been sent out;
* `Activity.due_step`      a move counts the update that it hands in;
* `Activity.stats_run`     so once nothing is left to send out, the updates alone have been counted.
-/

namespace OverlayWatch

def State.counted (s : State) (stats : Stats) : List Update → Stats
  | [] => stats
  | u :: rest => (s.advance u).counted (stats.count u ((s.update u).map Prod.fst)) rest

theorem State.counted_append (s : State) (stats : Stats) (l k : List Update) :
    s.counted stats (l ++ k) = (l.foldl advance s).counted (s.counted stats l) k := by
  induction l generalizing s stats with
  | nil => rfl
  | cons u l ih => exact ih (s.advance u) _

namespace Activity

def due (a : Activity) : Stats := a.outbox.foldl Stats.addSent a.stats

variable {a b : Activity} {m : Move}

theorem due_ingest {u : Update} (h : a.step (.ingest u) = some b) :
    b.due = a.due.count u ((a.state.update u).map Prod.fst) := by
  rw [step] at h
  split at h
  · rename_i hs
    have ha : a.due = a.stats := by rw [due, (isSettled_iff.1 hs).1, List.foldl_nil]
    rw [Service.accept, show a.service.state = a.state from rfl] at h
    cases hu : a.state.update u with
    | error fault =>
      rw [hu] at h
      obtain rfl := Option.some.inj h
      show a.outbox.foldl Stats.addSent a.stats.addRejected = _
      rw [ha, (isSettled_iff.1 hs).1]
      rfl
    | ok result =>
      obtain ⟨d, next⟩ := result
      rw [hu] at h
      obtain rfl := Option.some.inj h
      rw [ha]
      rfl
  · cases h

theorem due_send (h : a.step .send = some b) : b.due = a.due := by
  rw [step] at h
  split at h
  · rename_i n rest ho
    obtain ⟨traffic, -, rfl⟩ := Option.map_eq_some_iff.1 h
    rw [due, due, ho]
    rfl
  · cases h

theorem due_deliver {t : Traffic.Move Notification} (h : a.deliver t = some b) : b.due = a.due := by
  obtain ⟨traffic, -, rfl⟩ := Option.map_eq_some_iff.1 h
  rfl

theorem due_step (h : a.step m = some b) : b.due = a.state.counted a.due m.updates := by
  cases m with
  | ingest u => exact due_ingest h
  | send => exact due_send h
  | subscribe =>
    rw [step] at h
    split at h
    · obtain rfl := Option.some.inj h
      rfl
    · cases h
  | unsubscribe r =>
    rw [step] at h
    split at h
    · obtain rfl := Option.some.inj h
      rfl
    · cases h
  | deliver t =>
    obtain ⟨-, h⟩ := Option.ite_none_right_eq_some.1 h
    exact due_deliver h

theorem due_run {moves : List Move} (h : a.run moves = some b) :
    b.due = a.state.counted a.due (ingested moves) := by
  induction moves generalizing a with
  | nil =>
    obtain rfl := Option.some.inj h
    rfl
  | cons m rest ih =>
    obtain ⟨c, hc, hr⟩ := run_cons h
    rw [ih hr, due_step hc, state_step hc, ingested_cons, State.counted_append]

theorem stats_run {policy : FailurePolicy} {moves : List Move}
    (h : (start policy).run moves = some b) (hb : b.isSettled = true) :
    b.stats = State.empty.counted .zero (ingested moves) := by
  have hd : b.due = b.stats := by rw [due, (isSettled_iff.1 hb).1, List.foldl_nil]
  rw [← hd]
  exact due_run h

theorem stats_performAll {policy : FailurePolicy} {jobs : List Job}
    (h : (start policy).performAll jobs = some b) :
    b.stats = State.empty.counted .zero (jobs.flatMap Job.updates) := by
  obtain ⟨hrun, hfree⟩ := (isFree_start policy).run_movesOf h
  rw [stats_run hrun hfree.isSettled, ingested_movesOf h]

end Activity

end OverlayWatch
