import OverlayWatch.Proofs.Service.Reception
import OverlayWatch.Proofs.Service.Replay
import OverlayWatch.Proofs.Service.Sessions
import OverlayWatch.ReplayCommand

/-!
# The session of the replay command

The command has one observer, which is there from the start, never fails and asks for nothing, and its
drain task first runs when the whole trace has been replayed.  So everything waits in one queue, in the
order in which it went out, and the task works the queue off while the command waits.

* `Delivery.Awaits`            one registration, with these callbacks waiting;
* `Service.awaits_replayFrom`   what waits after a replay;
* `Session.Attends`            the observer sits behind the registration;
* `Session.Delivering`         it has heard the first of the callbacks sent, and the others wait;
* `Delivering.run`, `Delivering.wait`   that stays so, however far the task gets;
* `Delivering.isDelivered_iff`   everything has been delivered just when none of them waits;
* `ReplayCommand.replayed_spec`   at any pace the service is as the replay has left it, and at a quick
                               one the observer hears its whole stream;
* `Trace.replay_accounted`     every step is taken in, and the numbers are those of the trace;
* `ReplayCommand.wait_exact`   the wait ends just when all has been delivered.
-/

namespace OverlayWatch

/-! ## the queue -/

namespace Delivery

variable {κ : Type}

/-- the sole registration, with what is queued for it and whether its drain task is out -/
structure Awaits (d : Delivery κ) (r : Registration) (pending : List κ) (out : Bool) : Prop where
  slots : d.slots = (∅ : Std.ExtTreeMap Registration (Slot κ)).insert r ⟨pending, out, false⟩
  tasks : d.executor.tasks = if out then [r] else []

variable {d : Delivery κ} {r : Registration} {pending : List κ} {out : Bool}

theorem awaits_first (policy : FailurePolicy) (c : κ) :
    ((empty policy).register (some c)).2.Awaits ⟨1⟩ [c] true := ⟨rfl, rfl⟩

namespace Awaits

variable (h : d.Awaits r pending out)
include h

theorem registered : d.registered = [r] := by
  rw [Delivery.registered, h.slots]
  rfl

theorem getElem?_slots : d.slots[r]? = some ⟨pending, out, false⟩ := by
  rw [h.slots, Std.ExtTreeMap.getElem?_insert_self]

theorem backlog : d.backlog = (if out then 1 else 0) + pending.length := by
  rw [Delivery.backlog, h.slots, h.tasks]
  cases out <;> rfl

theorem pending_eq_nil_iff : pending = [] ↔ ∃ slot, d.slots[r]? = some slot ∧ slot.pending = [] := by
  rw [h.getElem?_slots]
  simp

theorem slots_setSlot (slot : Slot κ) : (d.setSlot r slot).slots =
    (∅ : Std.ExtTreeMap Registration (Slot κ)).insert r slot := by
  apply Std.ExtTreeMap.ext_getElem?
  intro q
  rw [Delivery.setSlot, h.slots]
  by_cases e : r = q <;> simp [e]

theorem setSlot (left : List κ) : (d.setSlot r ⟨left, out, false⟩).Awaits r left out :=
  ⟨h.slots_setSlot _, h.tasks⟩

end Awaits

/-- the task is out: a callback more is queued, and it goes on from callback to callback to its end -/
theorem Awaits.enqueue (h : d.Awaits r pending true) (c : κ) :
    (d.enqueue c).Awaits r (pending ++ [c]) true := by
  have hp : d.push c r = d.setSlot r ⟨pending ++ [c], true, false⟩ := by
    simp [push, h.getElem?_slots]
  rw [Delivery.enqueue, h.registered, List.foldl_cons, List.foldl_nil, hp]
  exact h.setSlot _

theorem Awaits.poll_cons {c : κ} {rest : List κ} (h : d.Awaits r (c :: rest) out) :
    d.poll r = (some c, d.setSlot r ⟨rest, out, false⟩) := by
  simp [poll, look, pop, h.getElem?_slots]

theorem Awaits.poll_nil (h : d.Awaits r [] out) :
    d.poll r = (none, d.endTask r ⟨[], out, false⟩) := by
  simp [poll, look, pop, h.getElem?_slots]

theorem Awaits.endTask (h : d.Awaits r pending true) :
    (d.endTask r ⟨pending, true, false⟩).Awaits r [] false := by
  refine ⟨h.slots_setSlot _, ?_⟩
  show d.executor.tasks.erase r = []
  rw [h.tasks]
  simp

end Delivery

/-! ## a replay -/

namespace Service

variable {s : Service} {r : Registration} {pending : List Notification}

theorem awaits_publish (h : s.delivery.Awaits r pending true) (d : Delta) :
    (s.publish d).delivery.Awaits r (pending ++ d.notifications) true := by
  unfold publish
  induction d.notifications generalizing s pending with
  | nil =>
    rw [List.append_nil]
    exact h
  | cons n sent ih =>
    rw [List.foldl_cons, List.append_cons]
    exact ih (h.enqueue n)

theorem awaits_replayStep (h : s.delivery.Awaits r pending true) (index : Nat) (step : Step) :
    (s.replayStep index step).2.delivery.Awaits r
      (pending ++ (s.state.deltas [step.update s.reachableNodes]).flatMap Delta.notifications)
      true := by
  let u := step.update s.reachableNodes
  obtain ⟨d, hu⟩ : ∃ d, s.state.update u = .ok (d, s.state.advance u) := s.state.update_ofStep step
  have hi : s.replayStep index step = _ := ingest_ok (s := s.note (u.replaying index)) hu
  have hd : (s.state.deltas [u]).flatMap Delta.notifications = d.notifications := by
    rw [State.deltas_cons_ok hu]
    exact List.append_nil _
  rw [hi, hd]
  refine awaits_publish ?_ d
  exact ⟨h.slots, h.tasks⟩

/-- nothing has been worked off yet -/
theorem awaits_replayFrom (h : s.delivery.Awaits r pending true) (index : Nat) (steps : List Step) :
    (s.replayFrom index steps).2.delivery.Awaits r
      (pending ++ (s.state.deltas (s.state.updatesOf steps)).flatMap Delta.notifications) true := by
  induction steps generalizing s index pending with
  | nil =>
    show s.delivery.Awaits r (pending ++ []) true
    rw [List.append_nil]
    exact h
  | cons step rest ih =>
    obtain ⟨hr, hs, -⟩ := s.replayStep_spec index step
    have hn := awaits_replayStep h index step
    rcases hstep : s.replayStep index step with ⟨result, next⟩
    rw [hstep] at hr hs hn
    obtain rfl : result = .ok () := hr
    have hrest := ih hn (index + 1)
    rw [hs] at hrest
    rw [replayFrom, hstep, State.updatesOf_cons, ← List.singleton_append, State.deltas_append,
      List.flatMap_append, ← List.append_assoc]
    exact hrest

end Service

/-! ## the observer -/

namespace Session

open ReplayCommand (observer received isDelivered Pace wait_of_isDelivered)

/-- a listener that only listens hears all calls of a callback, and nothing else happens -/
theorem makeCalls_quiet (s : Session Service Call ServiceRequest) {name : String}
    (hq : s.audience.behaviours[name]? = some .quiet) (calls : List Call) :
    ∃ audience : Audience Call ServiceRequest, s.makeCalls name calls = (none, ⟨s.host, audience⟩) ∧
      audience.behaviours = s.audience.behaviours ∧ audience.seats = s.audience.seats ∧
      audience.heardBy name = s.audience.heardBy name ++ calls := by
  induction calls generalizing s with
  | nil => exact ⟨s.audience, rfl, rfl, rfl, (List.append_nil _).symm⟩
  | cons call rest ih =>
    have hr : (s.audience.hear name call).1 = .quiet := by
      simp only [Audience.hear, hq]
      rfl
    have ha : s.afterCall name call = ⟨s.host, (s.audience.hear name call).2⟩ := by
      rw [afterCall, hr]
      rfl
    obtain ⟨audience, hm, hb, hs, hh⟩ := ih ⟨s.host, (s.audience.hear name call).2⟩ hq
    refine ⟨audience, ?_, hb, hs, ?_⟩
    · rw [makeCalls_cons_ok (by rw [hr]; rfl), ha]
      exact hm
    · rw [hh]
      show (s.audience.hear name call).2.heardBy name ++ rest = _
      rw [Audience.heardBy_hear, if_pos rfl, List.append_assoc]
      rfl

/-- the observer is behind the sole registration and only listens -/
structure Attends (s : Session Service Call ServiceRequest) (r : Registration)
    (pending : List Notification) (out : Bool) : Prop where
  awaits : s.host.delivery.Awaits r pending out
  seat : s.audience.seats[r]? = some observer
  quiet : s.audience.behaviours[observer]? = some .quiet

variable {s t : Session Service Call ServiceRequest} {r : Registration}

/-- its task is the only one -/
theorem Attends.turn_eq {pending : List Notification} (h : s.Attends r pending true) :
    s.turn = s.turnOf r := by
  have ht : s.delivery.executor.tasks = [r] := h.awaits.tasks
  simp only [Session.turn, ht]

theorem Attends.turn {n : Notification} {rest : List Notification}
    (h : s.Attends r (n :: rest) true) :
    s.turn.Attends r rest true ∧ s.turn.host.state = s.host.state ∧
      s.turn.host.stats = s.host.stats ∧
      s.turn.audience.heardBy observer = s.audience.heardBy observer ++ n.calls := by
  have hp : s.delivery.poll r = (some n, s.host.delivery.setSlot r ⟨rest, true, false⟩) :=
    h.awaits.poll_cons
  have hs : s.audience.seats.getD r "" = observer := by
    rw [Std.ExtTreeMap.getD_eq_getD_getElem?, h.seat]
    rfl
  obtain ⟨audience, hm, hb, hseats, hh⟩ := makeCalls_quiet
    (s.withDelivery (s.host.delivery.setSlot r ⟨rest, true, false⟩)) h.quiet n.calls
  have hturn : s.turnOf r =
      ⟨{ s.host with delivery := s.host.delivery.setSlot r ⟨rest, true, false⟩ }, audience⟩ := by
    simp only [turnOf, hp, hs]
    rw [show Notifier.calls Service n = n.calls from rfl, hm]
    rfl
  rw [h.turn_eq, hturn]
  refine ⟨⟨h.awaits.setSlot rest, ?_, ?_⟩, rfl, rfl, hh⟩
  · exact hseats ▸ h.seat
  · exact hb ▸ h.quiet

/-- the last turn finds the queue empty, and the task ends -/
theorem Attends.turn_last (h : s.Attends r [] true) :
    s.turn.Attends r [] false ∧ s.turn.host.state = s.host.state ∧
      s.turn.host.stats = s.host.stats ∧ s.turn.audience = s.audience := by
  have hp : s.delivery.poll r = (none, s.host.delivery.endTask r ⟨[], true, false⟩) :=
    h.awaits.poll_nil
  have hturn : s.turnOf r =
      ⟨{ s.host with delivery := s.host.delivery.endTask r ⟨[], true, false⟩ }, s.audience⟩ := by
    simp only [turnOf, hp]
    rfl
  rw [h.turn_eq, hturn]
  exact ⟨⟨h.awaits.endTask, h.seat, h.quiet⟩, rfl, rfl, rfl⟩

theorem run_of_idle (h : s.delivery.executor.tasks = []) (turns : Nat) : s.run turns = s := by
  cases turns with
  | zero => rfl
  | succ turns => rw [Session.run, h, List.isEmpty_nil, if_pos rfl]

theorem run_succ (h : s.delivery.executor.tasks = [r]) (turns : Nat) :
    s.run (turns + 1) = s.turn.run turns := by
  rw [Session.run, h]
  rfl

/-! ## working the queue off -/

/-- the service is this one but for its delivery; of the callbacks that were sent the observer has heard
the first, and the others wait; the drain task is out until it has found that none does -/
structure Delivering (service : Service) (sent : List Notification)
    (s : Session Service Call ServiceRequest) (left : List Notification) (out : Bool) : Prop where
  attends : s.Attends ⟨1⟩ left out
  idle : out = false → left = []
  state : s.host.state = service.state
  stats : s.host.stats = service.stats
  heard : ∃ done, sent = done ++ left ∧ received s = done.flatMap Notification.calls

namespace Delivering

variable {service : Service} {sent left : List Notification} {out : Bool}

/-- however many turns the task has; it is over when it has had one for each callback and one more -/
theorem run (h : Delivering service sent s left out) (turns : Nat) :
    ∃ rest still, Delivering service sent (s.run turns) rest still ∧
      (s.delivery.backlog ≤ turns → still = false) := by
  induction turns generalizing s left out with
  | zero =>
    refine ⟨left, out, h, fun hb => ?_⟩
    rw [show s.delivery = s.host.delivery from rfl, h.attends.awaits.backlog] at hb
    cases out with
    | false => rfl
    | true =>
      rw [if_pos rfl] at hb
      omega
  | succ turns ih =>
    cases out with
    | false =>
      have hidle : s.delivery.executor.tasks = [] := h.attends.awaits.tasks
      rw [run_of_idle hidle]
      exact ⟨left, false, h, fun _ => rfl⟩
    | true =>
      have htask : s.delivery.executor.tasks = [⟨1⟩] := h.attends.awaits.tasks
      have hbacklog : s.delivery.backlog = 1 + left.length := h.attends.awaits.backlog
      obtain ⟨done, hsent, hreceived⟩ := h.heard
      rw [run_succ htask]
      cases left with
      | nil =>
        obtain ⟨hn, hs, hk, ha⟩ := h.attends.turn_last
        have hnext : Delivering service sent s.turn [] false :=
          ⟨hn, fun _ => rfl, hs.trans h.state, hk.trans h.stats, done, hsent,
            by rw [received, ha]; exact hreceived⟩
        rw [run_of_idle hn.awaits.tasks]
        exact ⟨[], false, hnext, fun _ => rfl⟩
      | cons n rest =>
        obtain ⟨hn, hs, hk, hh⟩ := h.attends.turn
        have hnext : Delivering service sent s.turn rest true := by
          refine ⟨hn, nofun, hs.trans h.state, hk.trans h.stats, done ++ [n], ?_, ?_⟩
          · rw [hsent, List.append_assoc]
            rfl
          · rw [received, hh, List.flatMap_append]
            exact congrArg₂ _ hreceived (List.append_nil _).symm
        obtain ⟨last, still, hlast, hover⟩ := ih hnext
        refine ⟨last, still, hlast, fun hb => hover ?_⟩
        rw [show s.turn.delivery = s.turn.host.delivery from rfl, hn.awaits.backlog, if_pos rfl]
        rw [hbacklog, List.length_cons] at hb
        omega

/-- everything has been delivered just when no callback waits -/
theorem isDelivered_iff (h : Delivering service sent s left out)
    (hs : (sent.flatMap Notification.calls).length = service.stats.expectedCalls) :
    isDelivered s.host.stats (received s) = true ↔ left = [] := by
  obtain ⟨done, hsent, hreceived⟩ := h.heard
  rw [isDelivered, decide_eq_true_iff, h.stats, ← hs, hreceived, hsent, List.flatMap_append,
    List.length_append]
  cases left with
  | nil => simp
  | cons n rest =>
    have hlen : 0 < n.calls.length := List.length_pos_iff.2 (Activity.calls_ne_nil n)
    rw [List.flatMap_cons, List.length_append]
    refine iff_of_false ?_ (List.cons_ne_nil n rest)
    omega

/-- if the task is quick, one pause is enough -/
theorem wait (h : Delivering service sent s left out)
    (hs : (sent.flatMap Notification.calls).length = service.stats.expectedCalls) (pace : Pace)
    (pauses : Nat) : ∃ rest still,
      Delivering service sent (ReplayCommand.wait pace service.stats pauses s) rest still ∧
        (pace = .quick → 0 < pauses → rest = []) := by
  induction pauses generalizing s left out with
  | zero => exact ⟨left, out, h, fun _ hn => absurd hn (Nat.lt_irrefl 0)⟩
  | succ pauses ih =>
    rw [ReplayCommand.wait]
    split
    · rename_i hd
      rw [← h.stats] at hd
      exact ⟨left, out, h, fun _ _ => (h.isDelivered_iff hs).1 hd⟩
    · obtain ⟨rest, still, hr, hover⟩ := h.run (pace (pauses + 1) s)
      by_cases hp : pace = .quick
      · subst hp
        obtain rfl : still = false := hover (Nat.le_refl _)
        have hd := (hr.isDelivered_iff hs).2 (hr.idle rfl)
        rw [hr.stats] at hd
        rw [wait_of_isDelivered hd]
        exact ⟨rest, false, hr, fun _ _ => hr.idle rfl⟩
      · obtain ⟨last, out, hl, -⟩ := ih hr
        exact ⟨last, out, hl, fun e => absurd e hp⟩

theorem stop (h : Delivering service sent s left out) (pace : Pace) :
    ∃ rest still, Delivering service sent (ReplayCommand.stop pace s) rest still ∧
      (s.delivery.backlog ≤ pace 0 s → still = false) := by
  have hclosed : Delivering service sent (s.onExecutor Executor.close) left out :=
    ⟨⟨⟨h.attends.awaits.slots, h.attends.awaits.tasks⟩, h.attends.seat, h.attends.quiet⟩, h.idle,
      h.state, h.stats, h.heard⟩
  exact hclosed.run (pace 0 s)

/-- the whole stream is heard when no task is out -/
theorem received_eq (h : Delivering service sent s left false) :
    received s = sent.flatMap Notification.calls := by
  obtain ⟨done, hsent, hreceived⟩ := h.heard
  rw [hreceived, hsent, h.idle rfl, List.append_nil]

end Delivering

end Session

/-! ## the command -/

namespace ReplayCommand

/-- when the replay is over, all that was sent waits -/
theorem delivering_replay (t : Trace) :
    let updates := State.empty.updatesOf t.steps
    let s : Session Service Call ServiceRequest :=
      ((Session.start (Service.start .cancel)).join observer .quiet Service.subscribe).2
    let after := (t.replay s.host).2
    ∃ sent, (s.act fun _ => after).Delivering after sent sent true ∧
      sent.flatMap Notification.calls = State.empty.stream updates := by
  intro updates s after
  let greeting : Notification := .snapshot State.empty.snapshot.1 State.empty.snapshot.2
  have hw := Service.awaits_replayFrom (s := s.host) (Delivery.awaits_first .cancel greeting) 0 t.steps
  have hseat : s.audience.seats[(⟨1⟩ : Registration)]? = some observer :=
    Std.ExtTreeMap.getElem?_insert_self
  have hquiet : s.audience.behaviours[observer]? = some .quiet := rfl
  refine ⟨_, ⟨⟨hw, hseat, hquiet⟩, nofun, rfl, rfl, [], rfl, rfl⟩, ?_⟩
  rw [List.flatMap_append, List.flatMap_assoc]
  simp only [Delta.calls_notifications]
  rfl

theorem pauses_pos {waitMs : Nat} (h : 0 < waitMs) : 0 < pauses waitMs :=
  Nat.div_pos (by unfold pauseMs; omega) (by decide)

/-- the wait is over, and the observer has heard its stream but for what waits -/
theorem waited_spec (pace : Pace) (waitMs : Nat) (t : Trace) :
    let updates := State.empty.updatesOf t.steps
    let service := (t.replay (Service.start .cancel).subscribe.2).2
    (waited pace waitMs t).1 = .ok t.steps.length ∧ service.state = State.after updates ∧
    service.stats = State.empty.counted .zero updates ∧
    ∃ sent left out, (waited pace waitMs t).2.Delivering service sent left out ∧
      (sent.flatMap Notification.calls).length = service.stats.expectedCalls ∧
      (pace = .quick → 0 < waitMs → left = []) := by
  intro updates service
  obtain ⟨hr, hs, hk⟩ := (Service.start .cancel).subscribe.2.replayFrom_spec 0 t.steps
  obtain ⟨sent, hall, hcalls⟩ := delivering_replay t
  have hlen : (sent.flatMap Notification.calls).length = service.stats.expectedCalls := by
    rw [hcalls, State.length_stream]
    exact congrArg Stats.expectedCalls hk.symm
  obtain ⟨left, out, hwait, hquick⟩ := hall.wait hlen pace (pauses waitMs)
  exact ⟨hr.trans (by rw [Nat.zero_add]), hs, hk, sent, left, out, hwait, hlen,
    fun hp hn => hquick hp (pauses_pos hn)⟩

/-- no step is refused, and the service is as the replay has left it; the observer has heard all of its
stream but what waits, and nothing does if the tasks are quick -/
theorem replayed_spec (pace : Pace) (waitMs : Nat) (t : Trace) :
    let updates := State.empty.updatesOf t.steps
    let session := (replayed pace waitMs t).2
    (replayed pace waitMs t).1 = .ok t.steps.length ∧
    session.host.state = State.after updates ∧
    session.host.stats = State.empty.counted .zero updates ∧
    ∃ left out, session.host.delivery.Awaits ⟨1⟩ left out ∧
      (isDelivered session.host.stats (received session) = true ↔ left = []) ∧
      (pace = .quick → left = []) := by
  intro updates session
  obtain ⟨hr, hs, hk, sent, rest, still, hwait, hlen, -⟩ := waited_spec pace waitMs t
  obtain ⟨left, out, hlast, hover⟩ := hwait.stop pace
  refine ⟨hr, hlast.state.trans hs, hlast.stats.trans hk, left, out, hlast.attends.awaits,
    hlast.isDelivered_iff hlen, ?_⟩
  rintro rfl
  exact hlast.idle (hover (Nat.le_refl _))

/-- all but the two numbers of notifications can be read off the trace -/
theorem summary_runTrace (pace : Pace) (waitMs : Nat) (config : Config) (filter : Filter)
    (t : Trace) :
    let stats := State.empty.counted .zero (State.empty.updatesOf t.steps)
    (runTrace pace waitMs config filter t).summary = some
      { stepsApplied := t.steps.length
        stats := ⟨t.batches, t.topologies, 0, stats.propertyNotifications, stats.valueMapNotifications⟩
        reachableNodes := (t.lastReachable?.getD ∅).size
        reachableProperties := Set.ncard {x : NodeId × String |
          x.1 ∈ t.lastReachable?.getD ∅ ∧ (lastLive t.events x.1 x.2).isSome} } := by
  intro stats
  let updates := State.empty.updatesOf t.steps
  obtain ⟨happlied, hstate, hstats, -⟩ := replayed_spec pace waitMs t
  have hsummary : (runTrace pace waitMs config filter t).summary =
      some (summarize t.steps.length (replayed pace waitMs t).2.host) := by
    unfold runTrace
    rcases h : replayed pace waitMs t with ⟨applied, session⟩
    rw [h] at happlied
    obtain rfl : applied = .ok t.steps.length := happlied
    rfl
  have hintake : stats.intake = (0 + t.batches, 0 + t.topologies, 0) :=
    State.empty.intake_counted_updatesOf .zero t.steps
  simp only [Stats.intake, Prod.mk.injEq, Nat.zero_add] at hintake
  obtain ⟨hbatches, htopologies, hrejected⟩ := hintake
  have hnodes : (State.after updates).reachable = t.lastReachable?.getD ∅ :=
    State.empty.reachable_foldl_updatesOf t.steps
  have hhistory : history updates = t.events := State.empty.history_updatesOf t.steps
  have hsize := (State.coherent_after updates).size_visible
  simp only [hnodes, State.get?_store_after, hhistory] at hsize
  rw [hsummary]
  congr 1
  rw [summarize, Service.reachableNodes, Service.reachableProperties, hstate, hstats, hnodes, hsize,
    ← hbatches, ← htopologies, ← hrejected]

end ReplayCommand

/-! ## what a replay leads to, and what the wait for deliveries waits for -/

open Activity (ingested)

/-- **A replay takes in every step**, whatever the service has seen before: no step is refused, each is
counted as what it is, and in the end the last recorded set is reachable, with the last event that the
trace has for each node and key, or else what was filed before.  It makes no difference what observers
and drain tasks do in the meantime, as long as nobody else hands updates in.  Of the summary of the
command, all but the two numbers of notifications can be read off the trace, however long the command
waits and however far the tasks get in that time. -/
theorem Trace.replay_accounted (updates : List Update) (stats : Stats)
    (traffic : Traffic Notification Call) (t : Trace) (config : Config) (filter : Filter)
    (pace : ReplayCommand.Pace) (waitMs : Nat) :
    let a : Activity := ⟨State.after updates, stats, [], traffic⟩
    let after := (t.replay a.service).2
    let nodes := t.lastReachable?.getD a.service.reachableNodes
    (t.replay a.service).1 = .ok t.steps.length ∧
    after.stats.rejectedTopologyChanges = stats.rejectedTopologyChanges ∧
    after.stats.rawBatches = stats.rawBatches + t.batches ∧
    after.stats.topologyChanges = stats.topologyChanges + t.topologies ∧
    after.reachableNodes = nodes ∧
    (∀ p, p ∈ after.reachableProperties ↔ p.node ∈ nodes ∧
      (lastEvent t.events p.node p.key).elim (a.state.store.get? p.node p.key) Property.live? =
        some p) ∧
    (∀ moves b, a.run moves = some b → ingested moves = a.state.updatesOf t.steps →
      b.isSettled = true → b.state = after.state ∧ b.stats = after.stats) ∧
    ∃ changes maps, (ReplayCommand.runTrace pace waitMs config filter t).summary = some
      { stepsApplied := t.steps.length
        stats := ⟨t.batches, t.topologies, 0, changes, maps⟩
        reachableNodes := (t.lastReachable?.getD ∅).size
        reachableProperties := Set.ncard {x : NodeId × String |
          x.1 ∈ t.lastReachable?.getD ∅ ∧ (lastLive t.events x.1 x.2).isSome} } := by
  intro a after nodes
  obtain ⟨hr, hs, hk⟩ := a.service.replayFrom_spec 0 t.steps
  have hintake := a.state.intake_counted_updatesOf stats t.steps
  rw [show a.state.counted stats (a.state.updatesOf t.steps) = after.stats from hk.symm] at hintake
  simp only [Stats.intake, Prod.mk.injEq] at hintake
  obtain ⟨hbatches, htopologies, hrejected⟩ := hintake
  have hstate : after.state = (a.state.updatesOf t.steps).foldl State.advance a.state := hs
  have hnodes : after.state.reachable = nodes := by
    rw [hstate, State.reachable_foldl_updatesOf]
    rfl
  have hcoherent : after.state.Coherent := by
    rw [hstate]
    exact (State.coherent_after updates).foldl_advance _
  have hstore : ∀ node key, after.state.store.get? node key =
      (lastEvent t.events node key).elim (a.state.store.get? node key) Property.live? := by
    intro node key
    rw [hstate, State.store_foldl_advance, State.history_updatesOf, Store.get?_applyAll]
    rfl
  refine ⟨hr.trans (by rw [Nat.zero_add]), hrejected, hbatches, htopologies, hnodes, fun p => ?_,
    fun moves b hb hm hsettled => ⟨?_, ?_⟩, ?_⟩
  · show p ∈ after.state.visible ↔ _
    rw [hcoherent.visible, hstore, hnodes]
  · rw [Activity.state_run hb, hm, hstate]
  · have hdue : b.due = b.stats := by
      rw [Activity.due, (Activity.isSettled_iff.1 hsettled).1, List.foldl_nil]
    rw [← hdue, Activity.due_run hb, hm]
    exact hk.symm
  · exact ⟨_, _, ReplayCommand.summary_runTrace pace waitMs config filter t⟩

namespace ReplayCommand

/-- a property of a node out of sight, the node, a change and a tombstone without effect, and another
node in its place -/
def recording : Trace :=
  ⟨[.properties [.live ⟨"n"⟩ "k" "v"], .topology {⟨"n"⟩},
    .properties [.live ⟨"n"⟩ "k" "w", .tombstone ⟨"n"⟩ "l"], .topology {⟨"m"⟩}]⟩

/-- the recording is replayed while the drain task is at work -/
def interlude : List Activity.Move :=
  [.look ⟨1⟩, .take ⟨1⟩, .ingest (.batch [.live ⟨"n"⟩ "k" "v"]), .call ⟨1⟩,
    .ingest (.topology (.between ∅ {⟨"n"⟩})), .send, .call ⟨1⟩, .post ⟨1⟩, .finish ⟨1⟩,
    .look ⟨1⟩, .take ⟨1⟩, .send, .post ⟨1⟩,
    .ingest (.batch [.live ⟨"n"⟩ "k" "w", .tombstone ⟨"n"⟩ "l"]), .send, .post ⟨1⟩,
    .call ⟨1⟩, .send, .post ⟨1⟩, .finish ⟨1⟩, .look ⟨1⟩, .take ⟨1⟩, .call ⟨1⟩, .finish ⟨1⟩,
    .ingest (.topology (.between {⟨"n"⟩} {⟨"m"⟩})), .send, .post ⟨1⟩, .send, .post ⟨1⟩,
    .look ⟨1⟩, .take ⟨1⟩]

/-- what was left in the queue is worked off -/
def coda : List Activity.Move :=
  [.call ⟨1⟩, .finish ⟨1⟩, .look ⟨1⟩, .take ⟨1⟩, .call ⟨1⟩, .finish ⟨1⟩, .look ⟨1⟩, .take ⟨1⟩,
    .call ⟨1⟩, .finish ⟨1⟩, .look ⟨1⟩, .take ⟨1⟩, .call ⟨1⟩, .finish ⟨1⟩, .look ⟨1⟩, .take ⟨1⟩]

def waiting : Activity :=
  ((Activity.start .cancel).run (.subscribe :: interlude)).get (by decide +kernel)

def delivered : Activity :=
  ((Activity.start .cancel).run (.subscribe :: (interlude ++ coda))).get (by decide +kernel)

theorem replay_accounted_overlapped :
    let after := (recording.replay (Service.start .cancel)).2
    after.reachableNodes = {⟨"m"⟩} ∧ after.stats.rawBatches = 2 ∧ after.stats.topologyChanges = 2 ∧
      waiting.state = after.state ∧ waiting.stats = after.stats := by
  intro after
  obtain ⟨-, -, hb, ht, hn, -, hr, -⟩ :=
    Trace.replay_accounted [] .zero (.start .cancel) recording .default [] .quick 5000
  obtain ⟨hs, hk⟩ := hr (.subscribe :: interlude) waiting (Option.some_get _).symm
    (by decide +kernel) (by decide +kernel)
  exact ⟨hn, hb, ht, hs, hk⟩

theorem lossReport_eq_nil_iff {stats : Stats} {calls : List Call} :
    lossReport stats calls = [] ↔ isDelivered stats calls = true := by
  unfold lossReport
  cases isDelivered stats calls <;> simp

/-- **The wait ends exactly when everything has been delivered.**  The observer of a new service is in
from the start, never fails and is not removed; a trace is replayed, and drain tasks run in any order
and at any moments, during the replay and after it.  The observer never receives more calls than are
counted when the replay is over.  From then on it has received that many, the wait is over, and there
is no loss to report, just when every callback queued for it has been run; with no task out it has
been.  So it is in the session of the command, however far the task gets in each pause: when the wait is
over, everything has been delivered just when nothing is left in the queue, and if there was any time at
all and the task is quick, nothing is; and in the end there is no loss to report just when nothing is
left, and if the task is quick, nothing is. -/
theorem wait_exact (policy : FailurePolicy) (t : Trace) (moves : List Activity.Move) (b : Activity)
    (hb : (Activity.start policy).run (.subscribe :: moves) = some b)
    (hm : ∀ m ∈ moves, m.Spares ⟨1⟩) (hu : ingested moves <+: State.empty.updatesOf t.steps) :
    let stats := (t.replay (Service.start policy).subscribe.2).2.stats
    let calls := b.received ⟨1⟩
    calls.length ≤ stats.expectedCalls ∧
    (ingested moves = State.empty.updatesOf t.steps → b.isSettled = true →
      b.stats = stats ∧
      (calls.length = stats.expectedCalls ↔ b.traffic.IsServed ⟨1⟩) ∧
      (isDelivered b.stats calls = true ↔ b.traffic.IsServed ⟨1⟩) ∧
      (lossReport b.stats calls = [] ↔ b.traffic.IsServed ⟨1⟩) ∧
      (b.AtRest → b.traffic.IsServed ⟨1⟩)) ∧
    (∀ pace waitMs, let session := (waited pace waitMs t).2
      (isDelivered session.host.stats (received session) = true ↔
        ∃ slot, session.host.delivery.slots[(⟨1⟩ : Registration)]? = some slot ∧ slot.pending = []) ∧
      (pace = .quick → 0 < waitMs →
        isDelivered session.host.stats (received session) = true)) ∧
    (∀ pace waitMs, let session := (replayed pace waitMs t).2
      (lossReport session.host.stats (received session) = [] ↔
        ∃ slot, session.host.delivery.slots[(⟨1⟩ : Registration)]? = some slot ∧ slot.pending = []) ∧
      (pace = .quick → lossReport session.host.stats (received session) = [])) := by
  intro stats calls
  let updates := State.empty.updatesOf t.steps
  have hstats : stats = State.empty.counted .zero updates :=
    ((Service.start policy).subscribe.2.replayFrom_spec 0 t.steps).2.2
  have hexpected : stats.expectedCalls = (State.empty.stream updates).length := by
    rw [hstats, State.length_stream]
  have hsound : b.Sound := (Activity.sound_start policy).run hb
  have hp : b.Promised ⟨1⟩ (State.empty.stream (ingested moves)) :=
    Activity.promised_run (Activity.sound_start policy) hb hm
  have hle : calls.length ≤ stats.expectedCalls := by
    obtain ⟨rest, hrest⟩ := hu
    have hlen : (State.empty.stream (ingested moves)).length ≤ (State.empty.stream updates).length := by
      rw [show updates = ingested moves ++ rest from hrest.symm, State.stream_append, List.length_append]
      exact Nat.le_add_right _ _
    rw [hexpected]
    exact hp.length_received_le.trans hlen
  refine ⟨hle, fun hall hsettled => ?_, fun pace waitMs => ?_, fun pace waitMs => ?_⟩
  · have hb' : b.stats = stats := by
      rw [hstats, show updates = ingested moves from hall.symm]
      have hrun := Activity.stats_run hb hsettled
      exact hrun
    have hserved : calls.length = stats.expectedCalls ↔ b.traffic.IsServed ⟨1⟩ := by
      rw [hexpected, show updates = ingested moves from hall.symm]
      exact hp.length_received_eq_iff hsettled
    have hdelivered : isDelivered b.stats calls = true ↔ b.traffic.IsServed ⟨1⟩ := by
      rw [hb', isDelivered, decide_eq_true_iff, ← hserved]
      exact ⟨hle.antisymm, Eq.ge⟩
    refine ⟨hb', hserved, hdelivered, lossReport_eq_nil_iff.trans hdelivered, fun hrest => ?_⟩
    rw [← hserved, hexpected, show updates = ingested moves from hall.symm]
    exact congrArg List.length (hp.received_eq hsound hrest)
  · obtain ⟨-, -, -, sent, left, out, hw, hlen, hq⟩ := waited_spec pace waitMs t
    have hd := hw.isDelivered_iff hlen
    exact ⟨hd.trans hw.attends.awaits.pending_eq_nil_iff, fun e hn => hd.2 (hq e hn)⟩
  · obtain ⟨-, -, -, left, out, hw, hd, hq⟩ := replayed_spec pace waitMs t
    have hl := lossReport_eq_nil_iff.trans hd
    exact ⟨hl.trans hw.pending_eq_nil_iff, fun e => hl.2 (hq e)⟩

/-- four calls are still to be made when the replay is over -/
theorem wait_exact_overlapped :
    let replayed := (recording.replay (Service.start .cancel).subscribe.2).2
    (waiting.received ⟨1⟩).length = 4 ∧ (delivered.received ⟨1⟩).length = 8 ∧
      isDelivered replayed.stats (waiting.received ⟨1⟩) = false ∧
      isDelivered replayed.stats (delivered.received ⟨1⟩) = true := by
  intro replayed
  obtain ⟨-, hw, -⟩ := wait_exact .cancel recording interlude waiting (Option.some_get _).symm
    (by decide +kernel) (by decide +kernel)
  obtain ⟨hs, -, hd, -⟩ := hw (by decide +kernel) (by decide +kernel)
  obtain ⟨-, hv, -⟩ := wait_exact .cancel recording (interlude ++ coda) delivered
    (Option.some_get _).symm (by decide +kernel) (by decide +kernel)
  obtain ⟨ht, -, he, -, hr⟩ := hv (by decide +kernel) (by decide +kernel)
  refine ⟨by decide +kernel, by decide +kernel, ?_, ?_⟩
  · rw [← Bool.not_eq_true, ← show waiting.stats = replayed.stats from hs, hd]
    decide +kernel
  · rw [← show delivered.stats = replayed.stats from ht, he]
    exact hr (by decide +kernel)

end ReplayCommand

end OverlayWatch
