import OverlayWatch.Proofs.Delivery.Serving
import OverlayWatch.Service

/-!
# A service at work

The service together with the update that it is sending out and with the drain tasks at work.  The
feeds, those who come and go and the tasks each make their moves, in any order; an update is taken in
and a new observer comes in only when the update before has been sent out completely.

* `Activity.step`       one move, when it is possible;
* `Activity.run`        moves one after the other;
* `Activity.ingested`   the updates that the feeds have handed in, refused ones included;
* `Activity.AtRest`     no drain task is out, and no update is being sent out;
* `Activity.of_ingest` and the like   all that a move can do;
* `Activity.Sound`      the traffic is sound, and the executor takes in every task.
-/

namespace OverlayWatch

structure Activity where
  state : State
  stats : Stats
  /-- what is still to be sent out of the last update -/
  outbox : List Notification
  traffic : Traffic Notification Call

namespace Activity

inductive Move where
  | subscribe
  | unsubscribe (r : Registration)
  | ingest (u : Update)
  /-- the next notification goes out -/
  | send
  /-- the delivery goes on with what has been begun -/
  | deliver (m : Traffic.Move Notification)

namespace Move

/-- the notification that has gone out last is queued for one of its observers -/
def post (r : Registration) : Move := .deliver (.post r)

def look (r : Registration) : Move := .deliver (.look r)

def take (r : Registration) : Move := .deliver (.take r)

def call (r : Registration) : Move := .deliver (.call r)

def finish (r : Registration) : Move := .deliver (.finish r)

def fail (r : Registration) (failure : Failure) : Move := .deliver (.fail r failure)

def cancel (r : Registration) : Move := .deliver (.cancel r)

end Move

def start (policy : FailurePolicy) : Activity := ⟨.empty, .zero, [], .start policy⟩

def service (a : Activity) : Service := ⟨a.state, a.stats, a.traffic.delivery⟩

def withService (a : Activity) (s : Service) : Activity :=
  { a with
    state := s.state
    stats := s.stats
    traffic := { a.traffic with delivery := s.delivery } }

/-- nothing of the last update is still to be sent out or to be queued -/
def isSettled (a : Activity) : Bool := a.outbox.isEmpty && a.traffic.posting.isEmpty

def withTraffic (a : Activity) (traffic : Traffic Notification Call) : Activity := { a with traffic }

/-- a move that concerns the delivery alone -/
def deliver (a : Activity) (m : Traffic.Move Notification) : Option Activity :=
  (a.traffic.step Notification.calls m).map a.withTraffic

def step (a : Activity) : Move → Option Activity
  | .subscribe => if a.isSettled then some (a.withService a.service.subscribe.2) else none
  | .unsubscribe r =>
    if a.traffic.posting.isEmpty then some (a.withService (a.service.unsubscribe r).2) else none
  | .ingest u =>
    if a.isSettled then
      match a.service.accept u with
      | (.ok d, s) => some { a.withService s with outbox := d.notifications }
      | (.error _, s) => some (a.withService s)
    else none
  | .send =>
    match a.outbox with
    | n :: rest => ({ a.withService (a.service.countSent n) with outbox := rest }).deliver (.enqueue n)
    | [] => none
  | .deliver m => if m.isInner then a.deliver m else none

def run : Activity → List Move → Option Activity
  | a, [] => some a
  | a, m :: rest => (a.step m).bind fun b => b.run rest

def received (a : Activity) (r : Registration) : List Call := a.traffic.received r

def AtRest (a : Activity) : Prop :=
  a.traffic.delivery.executor.tasks = [] ∧ a.isSettled = true

/-- what the feeds hand in by a move -/
def Move.updates : Move → List Update
  | .ingest u => [u]
  | _ => []

def ingested (moves : List Move) : List Update := moves.flatMap Move.updates

/-- the registration is neither removed nor does it fail -/
def Move.Spares (r : Registration) : Move → Prop
  | .unsubscribe q => q ≠ r
  | .deliver m => m.Spares r
  | _ => True

instance (r : Registration) : (m : Move) → Decidable (m.Spares r)
  | .unsubscribe q => inferInstanceAs (Decidable (q ≠ r))
  | .deliver m => inferInstanceAs (Decidable (m.Spares r))
  | .subscribe => .isTrue trivial
  | .ingest _ => .isTrue trivial
  | .send => .isTrue trivial

instance (a : Activity) : Decidable a.AtRest :=
  inferInstanceAs (Decidable (a.traffic.delivery.executor.tasks = [] ∧ a.isSettled = true))

theorem run_cons {a b : Activity} {m : Move} {rest : List Move} (h : a.run (m :: rest) = some b) :
    ∃ c, a.step m = some c ∧ c.run rest = some b :=
  Option.bind_eq_some_iff.1 h

theorem run_append (a : Activity) (l k : List Move) :
    a.run (l ++ k) = (a.run l).bind fun b => b.run k := by
  induction l generalizing a with
  | nil => rfl
  | cons m l ih =>
    show ((a.step m).bind fun b => b.run (l ++ k)) = ((a.step m).bind fun b => b.run l).bind _
    rw [Option.bind_assoc]
    congr 1
    funext b
    exact ih b

theorem ingested_cons (m : Move) (rest : List Move) :
    ingested (m :: rest) = m.updates ++ ingested rest := rfl

theorem ingested_append (l k : List Move) : ingested (l ++ k) = ingested l ++ ingested k :=
  List.flatMap_append

/-! ## what a move does -/

variable {a b : Activity} {m : Move} {r : Registration}

theorem isSettled_iff : a.isSettled = true ↔ a.outbox = [] ∧ a.traffic.posting.isEmpty = true := by
  rw [isSettled, Bool.and_eq_true, List.isEmpty_iff]

theorem of_deliver {t : Traffic.Move Notification} (h : a.deliver t = some b) :
    a.traffic.step Notification.calls t = some b.traffic ∧ b.outbox = a.outbox ∧
      b.state = a.state := by
  obtain ⟨traffic, ht, rfl⟩ := Option.map_eq_some_iff.1 h
  exact ⟨ht, rfl, rfl⟩

theorem of_inner {t : Traffic.Move Notification} (h : a.step (.deliver t) = some b) :
    t.isInner = true ∧ a.traffic.step Notification.calls t = some b.traffic ∧
      b.outbox = a.outbox ∧ b.state = a.state := by
  obtain ⟨hi, hd⟩ := Option.ite_none_right_eq_some.1 h
  exact ⟨hi, of_deliver hd⟩

theorem of_subscribe (h : a.step .subscribe = some b) :
    a.outbox = [] ∧ b.outbox = [] ∧ b.state = a.state ∧
      a.traffic.step Notification.calls
        (.register (some (.snapshot a.state.snapshot.1 a.state.snapshot.2))) = some b.traffic := by
  rw [step] at h
  split at h
  · rename_i hs
    obtain ⟨ho, hp⟩ := isSettled_iff.1 hs
    obtain rfl := Option.some.inj h
    refine ⟨ho, ho, rfl, ?_⟩
    rw [Traffic.step, if_pos hp]
    rfl
  · cases h

theorem of_unsubscribe (h : a.step (.unsubscribe r) = some b) :
    a.traffic.step Notification.calls (.remove r) = some b.traffic ∧ b.outbox = a.outbox ∧
      b.state = a.state := by
  rw [step] at h
  split at h
  · rename_i hp
    obtain rfl := Option.some.inj h
    refine ⟨?_, rfl, rfl⟩
    rw [Traffic.step, if_pos hp]
    rfl
  · cases h

theorem of_ingest {u : Update} (h : a.step (.ingest u) = some b) :
    a.outbox = [] ∧ (∃ events, a.traffic.step Notification.calls (.note events) = some b.traffic) ∧
      ((∃ d, a.state.update u = .ok (d, b.state) ∧ b.outbox = d.notifications) ∨
      (∃ fault, a.state.update u = .error fault ∧ b.state = a.state ∧ b.outbox = [])) := by
  rw [step] at h
  split at h
  · rename_i hs
    obtain ⟨ho, -⟩ := isSettled_iff.1 hs
    refine ⟨ho, ?_⟩
    rw [Service.accept, show a.service.state = a.state from rfl] at h
    cases hu : a.state.update u with
    | error fault =>
      rw [hu] at h
      obtain rfl := Option.some.inj h
      exact ⟨⟨[.topologyRejected fault.stateFault.message], rfl⟩, .inr ⟨fault, rfl, rfl, ho⟩⟩
    | ok result =>
      obtain ⟨d, next⟩ := result
      rw [hu] at h
      obtain rfl := Option.some.inj h
      exact ⟨⟨u.report d, rfl⟩, .inl ⟨d, rfl, rfl⟩⟩
  · cases h

theorem of_send (h : a.step .send = some b) :
    ∃ n rest, a.outbox = n :: rest ∧ b.outbox = rest ∧ b.state = a.state ∧
      a.traffic.step Notification.calls (.enqueue n) = some b.traffic := by
  rw [step] at h
  split at h
  · rename_i n rest ho
    obtain ⟨ht, hb, hs⟩ := of_deliver h
    exact ⟨n, rest, ho, hb, hs, ht⟩
  · cases h

/-- an update comes in, a notification goes out, or the service has no part in the move but for what
the delivery does -/
theorem step_cases (h : a.step m = some b) :
    (∃ u, m = .ingest u) ∨ m = .send ∨
    (m.updates = [] ∧ b.state = a.state ∧ b.outbox = a.outbox ∧
      ∃ t : Traffic.Move Notification, a.traffic.step Notification.calls t = some b.traffic ∧
        t.adds Notification.calls = [] ∧ ∀ r, m.Spares r → t.Spares r) := by
  cases m with
  | ingest u => exact .inl ⟨u, rfl⟩
  | send => exact .inr (.inl rfl)
  | subscribe =>
    obtain ⟨ho, hb, hs, ht⟩ := of_subscribe h
    exact .inr (.inr ⟨rfl, hs, hb.trans ho.symm, _, ht, rfl, fun _ _ => trivial⟩)
  | unsubscribe q =>
    obtain ⟨ht, ho, hs⟩ := of_unsubscribe h
    exact .inr (.inr ⟨rfl, hs, ho, _, ht, rfl, fun _ hm => hm⟩)
  | deliver t =>
    obtain ⟨hi, ht, ho, hs⟩ := of_inner h
    have hadds : t.adds Notification.calls = [] := by
      rw [Traffic.Move.adds_eq, Traffic.Move.queued_of_isInner hi]
      rfl
    exact .inr (.inr ⟨rfl, hs, ho, t, ht, hadds, fun _ hm => hm⟩)

theorem traffic_step (h : a.step m = some b) :
    ∃ t, a.traffic.step Notification.calls t = some b.traffic := by
  rcases step_cases h with ⟨u, rfl⟩ | rfl | ⟨-, -, -, t, ht, -⟩
  · obtain ⟨-, ⟨events, ht⟩, -⟩ := of_ingest h
    exact ⟨_, ht⟩
  · obtain ⟨n, rest, -, -, -, ht⟩ := of_send h
    exact ⟨_, ht⟩
  · exact ⟨t, ht⟩

/-! ## what holds at every moment -/

/-- sound traffic, and an executor that takes in every task -/
structure Sound (a : Activity) : Prop where
  traffic : a.traffic.Sound
  accepting : ∀ r, a.traffic.delivery.executor.accepts r = true

theorem sound_start (policy : FailurePolicy) : (start policy).Sound where
  traffic := Traffic.sound_start policy
  accepting _ := rfl

theorem Sound.step (hs : a.Sound) (h : a.step m = some b) : b.Sound := by
  obtain ⟨t, ht⟩ := traffic_step h
  refine ⟨hs.traffic.step ht, fun r => ?_⟩
  rw [Traffic.accepts_step ht]
  exact hs.accepting r

theorem Sound.run {moves : List Move} (hs : a.Sound) (h : a.run moves = some b) : b.Sound := by
  induction moves generalizing a with
  | nil => exact Option.some.inj h ▸ hs
  | cons m rest ih =>
    obtain ⟨c, hc, hr⟩ := run_cons h
    exact ih (hs.step hc) hr

end Activity

end OverlayWatch
