import OverlayWatch.Proofs.Service.Stream

/-!
# What a failing observer hears

Where failures are only logged, an observer may fail at any of its calls and stays registered.  The
snapshot is the one callback of two calls, so it is the only one of which a failure can cost a call:
if the first call fails, the second is never made.  Everything after it is heard in full.

* `State.streamFor`          the calls that an observer hears which fails at these;
* `State.streamFor_eq_stream_iff`   that is the whole stream unless it fails at its first call;
* `Activity.Obeys`           in a run, the observer is not removed and fails at these calls;
* `Activity.Assured`         what it will have heard in the end;
* `Conforms.obeys`           jobs that conform to its failures are moves that do;
* `Activity.heard_exact`     so which other calls fail makes no difference.
-/

namespace OverlayWatch

namespace State

/-- the calls of the snapshot up to the first that fails, and then every call of the updates -/
def streamFor (s : State) (ends : List Call → Option Failure) (updates : List Update) : List Call :=
  upToFailure ends [] s.greeting ++ (s.deltas updates).flatMap Delta.calls

section
variable (s : State) (ends others : List Call → Option Failure) (updates : List Update)

theorem upToFailure_greeting : upToFailure ends [] s.greeting =
    if (ends [.properties s.snapshot.1]).isSome then [.properties s.snapshot.1] else s.greeting := by
  rw [greeting, upToFailure, upToFailure_singleton]
  rfl

theorem streamFor_congr (h : (others [.properties s.snapshot.1]).isSome =
    (ends [.properties s.snapshot.1]).isSome) :
    s.streamFor others updates = s.streamFor ends updates := by
  rw [streamFor, streamFor, upToFailure_greeting, upToFailure_greeting, h]

theorem streamFor_eq_stream_iff :
    s.streamFor ends updates = s.stream updates ↔ ends [.properties s.snapshot.1] = none := by
  rw [streamFor, stream, List.append_cancel_right_eq, upToFailure_greeting]
  cases ends [.properties s.snapshot.1] with
  | none => simp
  | some f => simp [greeting]

end

end State

namespace Activity

open Notification (calls)

/-! ## an observer that may fail -/

def Heeds (ends : List Call → Option Failure) (a : Activity) (r : Registration) : Move → Prop
  | .unsubscribe q => a.traffic.Heeds ends r (.remove q)
  | .deliver m => a.traffic.Heeds ends r m
  | _ => True

def Obeys (ends : List Call → Option Failure) (r : Registration) : Activity → List Move → Prop
  | _, [] => True
  | a, m :: rest => a.Heeds ends r m ∧ ∀ b ∈ a.step m, Obeys ends r b rest

instance (ends : List Call → Option Failure) (a : Activity) (r : Registration) :
    (m : Move) → Decidable (a.Heeds ends r m)
  | .unsubscribe q => inferInstanceAs (Decidable (a.traffic.Heeds ends r (.remove q)))
  | .deliver m => inferInstanceAs (Decidable (a.traffic.Heeds ends r m))
  | .subscribe => .isTrue trivial
  | .ingest _ => .isTrue trivial
  | .send => .isTrue trivial

instance decidableObeys (ends : List Call → Option Failure) (r : Registration) :
    (a : Activity) → (moves : List Move) → Decidable (Obeys ends r a moves)
  | _, [] => .isTrue trivial
  | a, m :: rest =>
    have := fun b : Activity => decidableObeys ends r b rest
    inferInstanceAs (Decidable (a.Heeds ends r m ∧ ∀ b ∈ a.step m, Obeys ends r b rest))

variable {ends : List Call → Option Failure} {a b : Activity} {m : Move} {r : Registration}
  {promised : List Call}

/-- an update comes in, a notification goes out, or the service has no part in the move -/
theorem heeds_cases (hm : a.Heeds ends r m) (h : a.step m = some b) :
    (∃ u, m = .ingest u) ∨ m = .send ∨
    (m.updates = [] ∧ b.outbox = a.outbox ∧
      ∃ t : Traffic.Move Notification, a.traffic.step calls t = some b.traffic ∧
        t.queued = [] ∧ a.traffic.Heeds ends r t) := by
  cases m with
  | ingest u => exact .inl ⟨u, rfl⟩
  | send => exact .inr (.inl rfl)
  | subscribe =>
    obtain ⟨ho, hb, -, ht⟩ := of_subscribe h
    exact .inr (.inr ⟨rfl, hb.trans ho.symm, _, ht, rfl, trivial⟩)
  | unsubscribe q =>
    obtain ⟨ht, ho, -⟩ := of_unsubscribe h
    exact .inr (.inr ⟨rfl, ho, _, ht, rfl, hm⟩)
  | deliver t =>
    obtain ⟨hi, ht, ho, -⟩ := of_inner h
    exact .inr (.inr ⟨rfl, ho, _, ht, Traffic.Move.queued_of_isInner hi, hm⟩)

theorem policy_step (h : a.step m = some b) :
    b.traffic.delivery.policy = a.traffic.delivery.policy := by
  obtain ⟨t, ht⟩ := traffic_step h
  exact Traffic.policy_step ht

theorem policy_run {moves : List Move} (h : a.run moves = some b) :
    b.traffic.delivery.policy = a.traffic.delivery.policy := by
  induction moves generalizing a with
  | nil => rw [Option.some.inj h]
  | cons m rest ih =>
    obtain ⟨c, hc, hr⟩ := run_cons h
    rw [ih hr, policy_step hc]

/-! ## what it will have heard -/

def Assured (ends : List Call → Option Failure) (a : Activity) (r : Registration)
    (promised : List Call) : Prop :=
  ∃ sent, Traffic.Assured calls ends a.traffic r sent ∧
    a.outbox.foldl (hear calls ends) sent = promised

namespace Assured

theorem send (h : Assured ends a r promised) (hs : a.Sound)
    (hp : a.traffic.delivery.policy = .proceed) (hb : a.step .send = some b) :
    Assured ends b r promised := by
  obtain ⟨sent, hq, rfl⟩ := h
  obtain ⟨n, rest, ho, hb, -, ht⟩ := of_send hb
  have hq : Traffic.Assured calls ends b.traffic r (hear calls ends sent n) :=
    hq.step hs.traffic (hs.accepting r) hp (m := .enqueue n) trivial ht
  refine ⟨_, hq, ?_⟩
  rw [hb, ho]
  rfl

theorem ingest (h : Assured ends a r promised) (hs : a.Sound)
    (hp : a.traffic.delivery.policy = .proceed) {u : Update} (hb : a.step (.ingest u) = some b) :
    Assured ends b r (promised ++ (a.state.deltas [u]).flatMap Delta.calls) := by
  obtain ⟨ho, ⟨events, ht⟩, hu⟩ := of_ingest hb
  obtain ⟨sent, hq, rfl⟩ := h
  have hq : Traffic.Assured calls ends b.traffic r sent :=
    hq.step hs.traffic (hs.accepting r) hp (m := .note events) trivial ht
  refine ⟨sent, hq, ?_⟩
  rw [ho]
  rcases hu with ⟨d, hu, hd⟩ | ⟨fault, hu, -, hn⟩
  · rw [State.deltas_cons_ok hu, hd, foldl_hear_of_single fun n hn => Delta.notifications_single hn,
      Delta.calls_notifications]
    simp [State.deltas]
  · rw [State.deltas_cons_error hu, hn]
    exact (List.append_nil _).symm

theorem step (h : Assured ends a r promised) (hs : a.Sound)
    (hp : a.traffic.delivery.policy = .proceed) (hm : a.Heeds ends r m) (hb : a.step m = some b) :
    Assured ends b r (promised ++ (a.state.deltas m.updates).flatMap Delta.calls) := by
  rcases heeds_cases hm hb with ⟨u, rfl⟩ | rfl | ⟨hu, ho, t, ht, hn, hr⟩
  · exact h.ingest hs hp hb
  · show Assured ends b r (promised ++ [])
    rw [List.append_nil]
    exact h.send hs hp hb
  · rw [hu]
    show Assured ends b r (promised ++ [])
    rw [List.append_nil]
    obtain ⟨sent, hq, rfl⟩ := h
    have hq := hq.step hs.traffic (hs.accepting r) hp hr ht
    rw [hn] at hq
    exact ⟨sent, hq, by rw [ho]⟩

theorem run {moves : List Move} (h : Assured ends a r promised) (hs : a.Sound)
    (hp : a.traffic.delivery.policy = .proceed) (hm : Obeys ends r a moves)
    (hb : a.run moves = some b) :
    Assured ends b r (promised ++ (a.state.deltas (ingested moves)).flatMap Delta.calls) := by
  induction moves generalizing a promised with
  | nil =>
    obtain rfl := Option.some.inj hb
    show Assured ends a r (promised ++ [])
    rwa [List.append_nil]
  | cons m rest ih =>
    obtain ⟨c, hc, hr⟩ := run_cons hb
    have hn := h.step hs hp hm.1 hc
    have hn := ih hn (hs.step hc) ((policy_step hc).trans hp) (hm.2 c hc) hr
    rw [ingested_cons, State.deltas_append, List.flatMap_append, ← List.append_assoc,
      ← state_step hc]
    exact hn

theorem subscribe (hs : a.Sound) (hb : a.step .subscribe = some b) :
    Assured ends b a.service.subscribe.1 (upToFailure ends [] a.state.greeting) := by
  obtain ⟨-, ho, -, ht⟩ := of_subscribe hb
  refine ⟨_, Traffic.Assured.register hs.traffic (hs.accepting _) ht, ?_⟩
  rw [ho]
  rfl

theorem received_prefix (h : Assured ends a r promised) : a.received r <+: promised := by
  obtain ⟨sent, hq, rfl⟩ := h
  exact hq.received_prefix.trans (prefix_foldl_hear _ _)

theorem received_eq (h : Assured ends a r promised) (hs : a.Sound) (hr : a.AtRest) :
    a.received r = promised := by
  obtain ⟨sent, hq, rfl⟩ := h
  obtain ⟨ho, hp⟩ := isSettled_iff.1 hr.2
  rw [ho]
  exact hq.received_eq hs.traffic hr.1 hp

end Assured

/-- an observer that comes in and is not removed -/
theorem assured_run {before later : List Move} (ha : (start .proceed).run before = some a)
    (hb : a.run (.subscribe :: later) = some b)
    (hl : Obeys ends a.service.subscribe.1 a (.subscribe :: later)) :
    b.Sound ∧ Assured ends b a.service.subscribe.1
      ((State.after (ingested before)).streamFor ends (ingested later)) := by
  have hs : a.Sound := (sound_start .proceed).run ha
  have hp : a.traffic.delivery.policy = .proceed := policy_run ha
  have he : a.state = State.after (ingested before) := state_run ha
  obtain ⟨c, hc, hr⟩ := run_cons hb
  have hn := (Assured.subscribe hs hc).run (hs.step hc) ((policy_step hc).trans hp) (hl.2 c hc) hr
  rw [state_step hc, he] at hn
  exact ⟨hs.run hb, hn⟩

/-! ## jobs -/

section
variable {l k : List Move}

theorem Obeys.append (hl : Obeys ends r a l) (hb : a.run l = some b) (hk : Obeys ends r b k) :
    Obeys ends r a (l ++ k) := by
  induction l generalizing a with
  | nil =>
    obtain rfl := Option.some.inj hb
    exact hk
  | cons m l ih =>
    obtain ⟨c, hc, hr⟩ := run_cons hb
    refine ⟨hl.1, fun d hd => ?_⟩
    obtain rfl := Option.some.inj (hc.symm.trans hd)
    exact ih (hl.2 c hc) hr

theorem obeys_of_forall (h : ∀ m ∈ l, ∀ c : Activity, c.Heeds ends r m) : Obeys ends r a l := by
  induction l generalizing a with
  | nil => trivial
  | cons m l ih =>
    exact ⟨h m List.mem_cons_self a, fun b _ => ih fun k hk => h k (List.mem_cons_of_mem m hk)⟩

/-- with its first move a job heeds how calls end, and no later one has a part in that -/
theorem Job.Heeds.obeys {j : Job} (h : j.Heeds ends a r) : Obeys ends r a (j.moves a) := by
  match j with
  | .ask .subscribe => exact ⟨trivial, fun _ _ => trivial⟩
  | .ask (.unsubscribe q) => exact ⟨h, fun _ _ => trivial⟩
  | .ask (.ingest u) =>
    refine ⟨trivial, fun b _ => ?_⟩
    rcases a.service.accept u with ⟨_ | d, s⟩
    · trivial
    · refine obeys_of_forall fun m hm c => ?_
      obtain rfl | ⟨q, rfl⟩ := mem_sends hm
      · trivial
      · trivial
  | .deliver o =>
    refine ⟨h, fun b _ => obeys_of_forall fun m hm c => ?_⟩
    obtain ⟨k, hk, rfl⟩ := List.mem_map.1 hm
    have hgoes := Traffic.Operation.goesOn_of_mem_rest hk
    cases k with
    | post q => trivial
    | take q => trivial
    | cancel q => trivial
    | _ => cases hgoes

theorem Conforms.obeys {jobs : List Job} (h : a.Conforms ends r jobs) (hf : a.IsFree)
    (hb : a.performAll jobs = some b) : Obeys ends r a (a.movesOf jobs) := by
  induction jobs generalizing a with
  | nil => trivial
  | cons j rest ih =>
    obtain ⟨c, hc, hr⟩ := performAll_cons hb
    rw [movesOf_cons hc]
    exact h.1.obeys.append (hf.run_moves hc) (ih (h.2 c hc) (hf.perform hc) hr)

end

namespace Stay

/-- what is heard where failures are only logged -/
theorem hears (v : Stay .proceed) (hl : v.opened.Conforms ends v.registration v.later) :
    let due := (State.after v.earlier).streamFor ends v.updates
    v.received <+: due ∧ (v.now.traffic.delivery.executor.tasks = [] → v.received = due) := by
  have hjobs : v.opening.Conforms ends v.registration (.subscribe :: v.later) :=
    ⟨trivial, fun b hb => by
      obtain rfl := Option.some.inj hb
      exact hl⟩
  have hmoves : Obeys ends v.registration v.opening (.subscribe :: v.opened.movesOf v.later) :=
    hjobs.obeys v.isFree_opening v.performed
  obtain ⟨hs, hp⟩ := assured_run v.run_before v.run_later hmoves
  rw [v.ingested_before, v.ingested_later] at hp
  exact ⟨hp.received_prefix, fun ht => hp.received_eq hs (v.isFree_now.atRest ht)⟩

end Stay

end Activity

namespace Guest

variable (g : Guest .proceed)

def streamFor : List Call := (State.after g.earlier).streamFor g.ends g.updates

theorem hears (hk : g.IsKept) :
    g.heard <+: g.streamFor ∧ (g.IsOver → g.heard = g.streamFor) := by
  obtain ⟨v, hbefore, hlater, -, hheard, htasks, hconforms⟩ := g.exists_stay hk
  have hv := v.hears hconforms
  rw [Activity.Stay.earlier, Activity.Stay.updates, hbefore, hlater, hheard, htasks] at hv
  exact hv

end Guest

namespace Activity

open Notification (calls)

/-- **A failure costs an observer one call at most**: the second one of its snapshot, and that only if
it fails at the first.  What it has received is always a first part of what it should hear, and at rest
all of it; that is the whole stream exactly if it does not fail at the first call of all.  In any other
run with the same updates in which it fails at that call or not alike, it hears the same, whichever of
the others it fails at, how, and whenever the drain tasks run.  So it is where the service is asked for
one thing after the other, and for every listener of a session that is not removed, with the failures
of its own behaviour. -/
theorem heard_exact (before later : List Move) (a b : Activity) (ends : List Call → Option Failure)
    (ha : (start .proceed).run before = some a) (hb : a.run (.subscribe :: later) = some b)
    (hl : Obeys ends a.service.subscribe.1 a (.subscribe :: later)) :
    let r := a.service.subscribe.1
    let s := State.after (ingested before)
    let first : List Call := [.properties s.snapshot.1]
    b.received r <+: s.streamFor ends (ingested later) ∧
    (b.AtRest → b.received r = s.streamFor ends (ingested later) ∧
      (b.received r = s.stream (ingested later) ↔ ends first = none)) ∧
    (∀ (earlier others : List Move) (c d : Activity) (fails : List Call → Option Failure),
      (start .proceed).run earlier = some c → c.run (.subscribe :: others) = some d →
      Obeys fails c.service.subscribe.1 c (.subscribe :: others) →
      ingested earlier = ingested before → ingested others = ingested later →
      (fails first).isSome = (ends first).isSome → b.AtRest → d.AtRest →
      d.received c.service.subscribe.1 = b.received r) ∧
    (∀ (v : Stay .proceed) (fails : List Call → Option Failure),
      v.opened.Conforms fails v.registration v.later →
      let due := (State.after v.earlier).streamFor fails v.updates
      v.received <+: due ∧ (v.now.traffic.delivery.executor.tasks = [] → v.received = due)) ∧
    ∀ g : Guest .proceed, g.IsKept →
      g.heard <+: g.streamFor ∧ (g.IsOver → g.heard = g.streamFor) := by
  intro r s first
  obtain ⟨hs, hp⟩ := assured_run ha hb hl
  have hrest : b.AtRest → b.received r = s.streamFor ends (ingested later) := hp.received_eq hs
  refine ⟨hp.received_prefix, fun hr => ⟨hrest hr, ?_⟩, ?_, fun v fails => v.hears, Guest.hears⟩
  · rw [hrest hr]
    exact s.streamFor_eq_stream_iff ends (ingested later)
  · intro earlier others c d fails hc hd ho hbefore hlater hfirst hr hdr
    obtain ⟨ht, hq⟩ := assured_run hc hd ho
    rw [hq.received_eq ht hdr, hrest hr, hbefore, hlater]
    exact s.streamFor_congr ends fails (ingested later) hfirst

/-- an error at every call but the first -/
def stubborn (calls : List Call) : Option Failure :=
  if calls.length = 1 then none else some (.returned "no")

/-- a node becomes reachable while the snapshot is being delivered, and the observer fails -/
def bumpy : List Move :=
  [.look ⟨1⟩, .take ⟨1⟩, .call ⟨1⟩, .ingest (.topology (.between ∅ {⟨"n"⟩})), .call ⟨1⟩, .send,
    .fail ⟨1⟩ (.returned "no"), .post ⟨1⟩,
    .look ⟨1⟩, .take ⟨1⟩, .call ⟨1⟩, .fail ⟨1⟩ (.returned "no"), .look ⟨1⟩, .take ⟨1⟩]

/-- the same update before the snapshot is taken up, and nothing fails -/
def smooth : List Move :=
  [.ingest (.topology (.between ∅ {⟨"n"⟩})), .send, .post ⟨1⟩,
    .look ⟨1⟩, .take ⟨1⟩, .call ⟨1⟩, .call ⟨1⟩, .finish ⟨1⟩, .look ⟨1⟩, .take ⟨1⟩, .call ⟨1⟩,
    .finish ⟨1⟩, .look ⟨1⟩, .take ⟨1⟩]

def bumpyRun : Activity := ((start .proceed).run (.subscribe :: bumpy)).get (by decide +kernel)

def smoothRun : Activity := ((start .proceed).run (.subscribe :: smooth)).get (by decide +kernel)

def startled (calls : List Call) : Reaction ServiceRequest :=
  if calls.length = 1 then ⟨[], some (.panicked none)⟩ else .quiet

/-- in a session: a listener that panics at its first call, and a batch after that -/
def brief : Guest .proceed :=
  .come .proceed [.ingest (.topology (.between ∅ {⟨"n"⟩}))] "c" startled
    [.turn ⟨1⟩, .ingest (.batch [.live ⟨"n"⟩ "k" "v"]), .turn ⟨1⟩, .turn ⟨1⟩, .turn ⟨1⟩]
    (by decide +kernel) (by decide +kernel) (by decide) (by decide +kernel) (by decide)

theorem heard_exact_bumpy :
    bumpyRun.AtRest ∧ (bumpyRun.received ⟨1⟩).length = 3 ∧
    bumpyRun.received ⟨1⟩ = State.empty.stream (ingested bumpy) ∧
    smoothRun.AtRest ∧ smoothRun.received ⟨1⟩ = bumpyRun.received ⟨1⟩ ∧
    brief.heard = brief.streamFor ∧ brief.heard.length = 3 := by
  have hb : bumpyRun.AtRest := by decide +kernel
  have hd : smoothRun.AtRest := by decide +kernel
  obtain ⟨-, hrest, hsame, -, hsession⟩ := heard_exact [] bumpy (start .proceed) bumpyRun stubborn rfl
    (Option.some_get _).symm (by decide +kernel)
  obtain ⟨-, hstream⟩ := hrest hb
  have hboth := hsame [] smooth (start .proceed) smoothRun (fun _ => none) rfl
    (Option.some_get _).symm (by decide +kernel) rfl rfl rfl hb hd
  obtain ⟨-, hbrief⟩ := hsession brief (by decide +kernel)
  exact ⟨hb, by decide +kernel, hstream.2 rfl, hd, hboth, hbrief (by decide +kernel),
    by decide +kernel⟩

def heardOut : List Move :=
  [.look ⟨1⟩, .take ⟨1⟩, .call ⟨1⟩, .call ⟨1⟩, .finish ⟨1⟩, .look ⟨1⟩, .take ⟨1⟩]

def brokenOff : List Move :=
  [.look ⟨1⟩, .take ⟨1⟩, .call ⟨1⟩, .fail ⟨1⟩ (.returned "no"), .look ⟨1⟩, .take ⟨1⟩]

/-- the two runs differ in whether the first call fails -/
theorem not_heard_alike :
    ¬ ∀ (before later others : List Move) (a b c : Activity),
      (start .proceed).run before = some a → a.run (.subscribe :: later) = some b →
      a.run (.subscribe :: others) = some c → (∀ r, .unsubscribe r ∉ later ++ others) →
      ingested others = ingested later → b.AtRest → c.AtRest →
      c.received a.service.subscribe.1 = b.received a.service.subscribe.1 := by
  intro h
  have hstays : ∀ r, Move.unsubscribe r ∉ heardOut ++ brokenOff := by
    simp [heardOut, brokenOff, Move.look, Move.take, Move.call, Move.finish, Move.fail]
  have heq := h [] heardOut brokenOff (start .proceed)
    (((start .proceed).run (.subscribe :: heardOut)).get (by decide +kernel))
    (((start .proceed).run (.subscribe :: brokenOff)).get (by decide +kernel))
    rfl (Option.some_get _).symm (Option.some_get _).symm hstays rfl
    (by decide +kernel) (by decide +kernel)
  revert heq
  decide +kernel

end Activity

end OverlayWatch
