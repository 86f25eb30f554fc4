import OverlayWatch.Proofs.Service.Guests
import OverlayWatch.Proofs.State.History

/-!
# What an observer hears

From the moment it comes in, an observer is promised the snapshot and then the calls of every update
that is taken in, and nothing that happens in between changes the promise: not the order in which
the drain tasks run, not the other observers, not a refused update.

* `Delta.calls`              the calls for one update;
* `State.greeting`           the calls that an observer starts with;
* `State.stream`             these, and then the calls for the updates to come;
* `Activity.Promised`        what has been received, is kept or is still to be sent out;
* `Promised.step`            a move adds the calls of the update that it hands in;
* `Activity.stream_exact`    what is received is always a first part of the stream, and at rest all
                             of it;
* `Stay.hears_stream`, `Guest.hears_stream`   the same where jobs are done, and in a session.
-/

namespace OverlayWatch

/-- the changes if there are any, then the maps if there are any -/
def Delta.calls (d : Delta) : List Call :=
  d.change.toList.map .properties ++ if d.maps.isEmpty then [] else [.valueMaps d.maps]

theorem Delta.calls_notifications (d : Delta) :
    d.notifications.flatMap Notification.calls = d.calls := by
  obtain ⟨change, maps⟩ := d
  unfold notifications calls
  rw [List.flatMap_append]
  congr 1
  · cases change <;> rfl
  · split <;> rfl

theorem Delta.notifications_single {d : Delta} {n : Notification} (h : n ∈ d.notifications) :
    ∃ call, n.calls = [call] := by
  obtain ⟨change, maps⟩ := d
  unfold Delta.notifications at h
  rcases List.mem_append.1 h with h | h
  · obtain ⟨c, -, rfl⟩ := List.mem_map.1 h
    exact ⟨.properties c, rfl⟩
  · split at h
    · cases h
    · obtain rfl := List.mem_singleton.1 h
      exact ⟨.valueMaps maps, rfl⟩

namespace State

def greeting (s : State) : List Call := [.properties s.snapshot.1, .valueMaps s.snapshot.2]

/-- the calls that an observer is to be made which comes in now and sees these updates -/
def stream (s : State) (updates : List Update) : List Call :=
  s.greeting ++ (s.deltas updates).flatMap Delta.calls

theorem stream_append (s : State) (l k : List Update) :
    s.stream (l ++ k) = s.stream l ++ ((l.foldl advance s).deltas k).flatMap Delta.calls := by
  rw [stream, stream, deltas_append, List.flatMap_append, List.append_assoc]

end State

namespace Activity

open Notification (calls)

variable {a b : Activity} {m : Move} {r : Registration} {promised : List Call}

/-! ## the state -/

theorem state_step (h : a.step m = some b) : b.state = m.updates.foldl State.advance a.state := by
  rcases step_cases h with ⟨u, rfl⟩ | rfl | ⟨hm, hb, -⟩
  · show b.state = a.state.advance u
    obtain ⟨-, -, ⟨d, hu, -⟩ | ⟨fault, hu, hb, -⟩⟩ := of_ingest h
    · rw [State.advance_ok hu]
    · rw [State.advance_error hu, hb]
  · obtain ⟨n, rest, -, -, hb, -⟩ := of_send h
    exact hb
  · rw [hm, hb]
    rfl

theorem state_run {moves : List Move} (h : a.run moves = some b) :
    b.state = (ingested moves).foldl State.advance a.state := by
  induction moves generalizing a with
  | nil => exact congrArg state (Option.some.inj h).symm
  | cons m rest ih =>
    obtain ⟨c, hc, hr⟩ := run_cons h
    rw [ih hr, ingested_cons, List.foldl_append, state_step hc]

theorem state_performAll {policy : FailurePolicy} {jobs : List Job}
    (h : (start policy).performAll jobs = some b) :
    b.state = State.after (jobs.flatMap Job.updates) := by
  rw [state_run ((isFree_start policy).run_movesOf h).1, ingested_movesOf h]
  rfl

/-! ## promises -/

def Promised (a : Activity) (r : Registration) (promised : List Call) : Prop :=
  ∃ sent, Traffic.Serving calls a.traffic r sent ∧ sent ++ a.outbox.flatMap calls = promised

namespace Promised

theorem send (h : a.Promised r promised) (hs : a.Sound) (hb : a.step .send = some b) :
    b.Promised r promised := by
  obtain ⟨sent, hq, hp⟩ := h
  obtain ⟨n, rest, ho, hb, -, ht⟩ := of_send hb
  refine ⟨sent ++ calls n, hq.enqueue hs.traffic ht, ?_⟩
  rw [hb, ← hp, ho, List.flatMap_cons, List.append_assoc]

theorem ingest (h : a.Promised r promised) (hs : a.Sound) {u : Update}
    (hb : a.step (.ingest u) = some b) :
    b.Promised r (promised ++ (a.state.deltas [u]).flatMap Delta.calls) := by
  obtain ⟨ho, ⟨events, ht⟩, hu⟩ := of_ingest hb
  obtain ⟨sent, hq, hp⟩ := h
  have hn : (.note events : Traffic.Move Notification).Spares r := trivial
  have hq : Traffic.Serving calls b.traffic r (sent ++ []) :=
    hq.step hs.traffic (hs.accepting r) hn ht
  rw [List.append_nil] at hq
  refine ⟨sent, hq, ?_⟩
  rw [← hp, ho, List.flatMap_nil, List.append_nil]
  rcases hu with ⟨d, hu, hd⟩ | ⟨fault, hu, -, hn⟩
  · rw [State.deltas_cons_ok hu, hd, Delta.calls_notifications]
    simp [State.deltas]
  · rw [State.deltas_cons_error hu, hn]
    rfl

theorem step (h : a.Promised r promised) (hs : a.Sound) (hm : m.Spares r)
    (hb : a.step m = some b) :
    b.Promised r (promised ++ (a.state.deltas m.updates).flatMap Delta.calls) := by
  rcases step_cases hb with ⟨u, rfl⟩ | rfl | ⟨hu, -, ho, t, ht, hn, hr⟩
  · exact h.ingest hs hb
  · show b.Promised r (promised ++ [])
    rw [List.append_nil]
    exact h.send hs hb
  · rw [hu]
    show b.Promised r (promised ++ [])
    rw [List.append_nil]
    obtain ⟨sent, hq, hp⟩ := h
    have hq := hq.step hs.traffic (hs.accepting r) (hr r hm) ht
    rw [hn, List.append_nil] at hq
    exact ⟨sent, hq, by rw [ho, hp]⟩

theorem run {moves : List Move} (h : a.Promised r promised) (hs : a.Sound)
    (hm : ∀ m ∈ moves, m.Spares r) (hb : a.run moves = some b) :
    b.Promised r (promised ++ (a.state.deltas (ingested moves)).flatMap Delta.calls) := by
  induction moves generalizing a promised with
  | nil =>
    obtain rfl := Option.some.inj hb
    show a.Promised r (promised ++ [])
    rwa [List.append_nil]
  | cons m rest ih =>
    obtain ⟨c, hc, hr⟩ := run_cons hb
    have hp := h.step hs (hm m List.mem_cons_self) hc
    have hp := ih hp (hs.step hc) (fun k hk => hm k (List.mem_cons_of_mem m hk)) hr
    rw [ingested_cons, State.deltas_append, List.flatMap_append, ← List.append_assoc,
      ← state_step hc]
    exact hp

theorem subscribe (hs : a.Sound) (hb : a.step .subscribe = some b) :
    b.Promised a.service.subscribe.1 a.state.greeting := by
  obtain ⟨-, ho, -, ht⟩ := of_subscribe hb
  refine ⟨a.state.greeting, Traffic.Serving.register hs.traffic (hs.accepting _) ht, ?_⟩
  rw [ho]
  rfl

theorem received_prefix (h : a.Promised r promised) : a.received r <+: promised := by
  obtain ⟨sent, hq, rfl⟩ := h
  exact hq.received_prefix.trans (List.prefix_append _ _)

theorem received_eq (h : a.Promised r promised) (hs : a.Sound) (hr : a.AtRest) :
    a.received r = promised := by
  obtain ⟨sent, hq, rfl⟩ := h
  obtain ⟨ho, hp⟩ := isSettled_iff.1 hr.2
  rw [ho, List.flatMap_nil, List.append_nil]
  exact hq.received_eq hs.traffic hr.1 hp

end Promised

/-! ## the stream of one observer, and of two -/

/-- an observer that comes in and is neither removed nor fails -/
theorem promised_run {later : List Move} (hs : a.Sound) (hb : a.run (.subscribe :: later) = some b)
    (hl : ∀ m ∈ later, m.Spares a.service.subscribe.1) :
    b.Promised a.service.subscribe.1 (a.state.stream (ingested later)) := by
  obtain ⟨c, hc, hr⟩ := run_cons hb
  have hp := (Promised.subscribe hs hc).run (hs.step hc) hl hr
  rwa [state_step hc] at hp

namespace Stay

variable {policy : FailurePolicy} (v : Stay policy)

def stream : List Call := (State.after v.earlier).stream v.updates

theorem hears_stream (hl : ∀ j ∈ v.later, j.Spares v.registration) :
    v.received <+: v.stream ∧
      (v.now.traffic.delivery.executor.tasks = [] → v.received = v.stream) := by
  have hs : v.opening.Sound := (sound_start policy).run v.run_before
  have he : v.opening.state = State.after v.earlier := state_performAll v.reached
  have hp := promised_run hs v.run_later (spares_movesOf hl v.performed_later)
  rw [v.ingested_later, he] at hp
  exact ⟨hp.received_prefix, fun ht => hp.received_eq (hs.run v.run_later) (v.isFree_now.atRest ht)⟩

end Stay

end Activity

namespace Guest

variable {policy : FailurePolicy} (g : Guest policy)

def stream : List Call := (State.after g.earlier).stream g.updates

theorem hears_stream (hk : g.IsKept) (hn : ∀ calls, g.ends calls = none) :
    g.heard <+: g.stream ∧ (g.IsOver → g.heard = g.stream) := by
  obtain ⟨v, hbefore, hlater, -, hheard, htasks, hconforms⟩ := g.exists_stay hk
  have hv := v.hears_stream (hconforms.spares hn v.performed_later)
  have hstream : v.stream = g.stream := by
    rw [Activity.Stay.stream, Activity.Stay.earlier, Activity.Stay.updates, hbefore, hlater]
    rfl
  rwa [hheard, hstream, htasks] at hv

end Guest

namespace Activity

open Notification (calls)

/-- **Every observer hears the same stream, whenever the drain tasks run**: the snapshot and then the
calls of every later update that is taken in, each once and in order.  What it has received is always
a first part of that, and all of it once nothing is going on; and of two observers, both have then
heard the same since the later one came in.  So it is where the service is asked for one thing after
the other, and for every listener of a session that never fails and is not removed. -/
theorem stream_exact (policy : FailurePolicy) (before later : List Move) (a b : Activity)
    (ha : (start policy).run before = some a) (hb : a.run (.subscribe :: later) = some b)
    (hl : ∀ m ∈ later, m.Spares a.service.subscribe.1) :
    let r := a.service.subscribe.1
    let s := State.after (ingested before)
    b.received r <+: s.stream (ingested later) ∧
    (b.AtRest → b.received r = s.stream (ingested later)) ∧
    (∀ between rest c, later = between ++ .subscribe :: rest →
      a.run (.subscribe :: between) = some c →
      (∀ m ∈ rest, m.Spares c.service.subscribe.1) → b.AtRest →
      let t := State.after (ingested (before ++ between))
      let common := (t.deltas (ingested rest)).flatMap Delta.calls
      b.received r = s.stream (ingested between) ++ common ∧
      b.received c.service.subscribe.1 = t.greeting ++ common) ∧
    (∀ v : Stay policy, (∀ j ∈ v.later, j.Spares v.registration) →
      v.received <+: v.stream ∧
      (v.now.traffic.delivery.executor.tasks = [] → v.received = v.stream)) ∧
    ∀ g : Guest policy, g.IsKept → (∀ calls, g.ends calls = none) →
      g.heard <+: g.stream ∧ (g.IsOver → g.heard = g.stream) := by
  intro r s
  have hs : a.Sound := (sound_start policy).run ha
  have he : a.state = s := state_run ha
  have hp : b.Promised r (s.stream (ingested later)) := he ▸ promised_run hs hb hl
  refine ⟨hp.received_prefix, hp.received_eq (hs.run hb),
    fun between rest c hk hc hq hr => ?_, Stay.hears_stream, Guest.hears_stream⟩
  intro t common
  have hcs : c.Sound := hs.run hc
  have ht : t = (ingested between).foldl State.advance s := by
    show State.after _ = _
    rw [ingested_append, State.after_append]
  have hct : c.state = t := by
    rw [state_run hc, he, ht]
    rfl
  have hcb : c.run (.subscribe :: rest) = some b := by
    rw [hk, ← List.cons_append, run_append, hc] at hb
    exact hb
  constructor
  · rw [hp.received_eq (hs.run hb) hr, hk, ingested_append, State.stream_append, ← ht]
    rfl
  · have hd := promised_run hcs hcb hq
    rw [hd.received_eq (hs.run hb) hr, hct]
    rfl

/-- a node becomes reachable before anyone has come in -/
def overture : List Move := [.ingest (.topology (.between ∅ {⟨"n"⟩})), .send]

/-- the task of the first observer starts while a batch is being sent out, and a second observer comes
in before it has gone far -/
def entrance : List Move :=
  [.ingest (.batch [.live ⟨"n"⟩ "k" "v"]), .send, .post ⟨1⟩, .look ⟨1⟩, .take ⟨1⟩, .call ⟨1⟩, .send,
    .post ⟨1⟩]

/-- a change is refused, a batch is sent out, and the second observer is done first -/
def finale : List Move :=
  [.look ⟨2⟩, .take ⟨2⟩, .call ⟨2⟩, .ingest (.topology (.between ∅ {⟨"n"⟩})), .call ⟨1⟩,
    .ingest (.batch [.tombstone ⟨"n"⟩ "k"]), .send, .post ⟨2⟩, .finish ⟨1⟩, .post ⟨1⟩,
    .call ⟨2⟩, .finish ⟨2⟩, .look ⟨2⟩, .take ⟨2⟩, .call ⟨2⟩, .finish ⟨2⟩, .send, .post ⟨1⟩, .post ⟨2⟩,
    .look ⟨2⟩, .take ⟨2⟩, .call ⟨2⟩, .finish ⟨2⟩, .look ⟨2⟩, .take ⟨2⟩,
    .look ⟨1⟩, .take ⟨1⟩, .call ⟨1⟩, .finish ⟨1⟩, .look ⟨1⟩, .take ⟨1⟩, .call ⟨1⟩, .finish ⟨1⟩,
    .look ⟨1⟩, .take ⟨1⟩, .call ⟨1⟩, .finish ⟨1⟩, .look ⟨1⟩, .take ⟨1⟩, .call ⟨1⟩, .finish ⟨1⟩,
    .look ⟨1⟩, .take ⟨1⟩]

def opened : Activity := ((start .cancel).run overture).get (by decide +kernel)

def entered : Activity := (opened.run (.subscribe :: entrance)).get (by decide +kernel)

def closed : Activity :=
  (opened.run (.subscribe :: (entrance ++ .subscribe :: finale))).get (by decide +kernel)

/-- hands a batch in at its second call -/
def announcing (calls : List Call) : Reaction ServiceRequest :=
  if calls.length = 2 then ⟨[.ingest [.live ⟨"n"⟩ "k" "v"]], none⟩ else .quiet

/-- a listener that announces something, next to one that fails at once -/
def hosted : Guest .cancel :=
  .come .cancel
    [.ingest (.topology (.between ∅ {⟨"n"⟩})), .join "b" fun _ => ⟨[], some (.returned "no")⟩]
    "a" announcing
    [.turn ⟨2⟩, .turn ⟨1⟩, .turn ⟨2⟩, .turn ⟨1⟩, .turn ⟨2⟩, .turn ⟨2⟩]
    (by decide +kernel) (by decide +kernel) (by decide) (by decide +kernel) (by decide)

theorem stream_exact_of_two :
    closed.AtRest ∧ (closed.received ⟨1⟩).length = 6 ∧ (closed.received ⟨2⟩).length = 4 ∧
    closed.received ⟨1⟩ = (State.after (ingested overture)).stream (ingested (entrance ++ finale)) ∧
    closed.received ⟨2⟩ = (State.after (ingested (overture ++ entrance))).stream (ingested finale) ∧
    hosted.heard = hosted.stream ∧ hosted.heard.length = 4 := by
  have hr : closed.AtRest := by decide +kernel
  obtain ⟨-, h1, h2, -, hsession⟩ := stream_exact .cancel overture
    (entrance ++ .subscribe :: finale) opened closed
    (Option.some_get _).symm (Option.some_get _).symm (by decide +kernel)
  obtain ⟨-, h2⟩ := h2 entrance finale entered rfl (Option.some_get _).symm (by decide +kernel) hr
  have hnever : ∀ calls, hosted.ends calls = none := by
    intro calls
    show (announcing calls).failure = none
    unfold announcing
    split <;> rfl
  obtain ⟨-, hheard⟩ := hsession hosted (by decide +kernel) hnever
  exact ⟨hr, by decide +kernel, by decide +kernel, h1 hr, h2, hheard (by decide +kernel),
    by decide +kernel⟩

end Activity

end OverlayWatch
