import OverlayWatch.Proofs.Service.Jobs

/-!
# Sessions of the service

In a session listeners come in under their names, updates are taken in, and a turn of a drain task is
run from start to end, with all that the listener asks for on the way.  All of these are jobs of the
service, and each job is known: what is asked of the service by the feeds and by the listeners, and
what the drain tasks do.

* `Session.Scene`, `play`, `playAll`   what happens in a session, and what it leads to;
* `Scene.jobs`, `jobsOf`     the jobs that it consists of;
* `Activity.Mirrors`         an activity with the service and the calls of a session;
* `Mirrors.play`             it can do the jobs of the next scene;
* `Mirrors.playAll`          and so those of a whole session.
-/

namespace OverlayWatch

open Notification (calls)
open Activity (Job)

/-! ## what a listener hears -/

namespace Audience

variable {γ ρ : Type}

theorem heardBy_hear (a : Audience γ ρ) (name other : String) (call : γ) :
    (a.hear name call).2.heardBy other
      = a.heardBy other ++ if name = other then [call] else [] := by
  unfold hear heardBy
  show (a.heard.insert name (a.heard.getD name [] ++ [call])).getD other [] = _
  rw [Std.ExtTreeMap.getD_insert]
  by_cases h : name = other
  · subst h
    simp
  · simp [h]

end Audience

namespace Session

section
variable {μ κ γ ρ : Type} [Notifier μ κ γ ρ] {s : Session μ γ ρ} {name : String} {call : γ}

/-- the session when the listener has had a call and what it asked for has been done -/
def afterCall (s : Session μ γ ρ) (name : String) (call : γ) : Session μ γ ρ :=
  let heard := s.audience.hear name call
  ⟨heard.1.requests.foldl Notifier.perform s.host, heard.2⟩

theorem makeCalls_cons_ok (h : (s.audience.hear name call).1.failure = none) (rest : List γ) :
    s.makeCalls name (call :: rest) = (s.afterCall name call).makeCalls name rest := by
  simp [makeCalls, afterCall, h]

theorem makeCalls_cons_failed {failure : Failure}
    (h : (s.audience.hear name call).1.failure = some failure) (rest : List γ) :
    s.makeCalls name (call :: rest) = (some failure, s.afterCall name call) := by
  simp [makeCalls, afterCall, h]

end

/-! ## what happens in a session -/

inductive Scene where
  | join (name : String) (behaviour : Behaviour Call ServiceRequest)
  | unsubscribe (r : Registration)
  | ingest (u : Update)
  | turn (r : Registration)

/-- the name under which someone comes in -/
def Scene.newcomer? : Scene → Option String
  | .join name _ => some name
  | _ => none

def play (s : Session Service Call ServiceRequest) :
    Scene → Option (Session Service Call ServiceRequest)
  | .join name behaviour => some (s.join name behaviour Service.subscribe).2
  | .unsubscribe r => some (s.act fun host => (host.unsubscribe r).2)
  | .ingest u => some (s.act fun host => (host.ingest u).2)
  | .turn r => if r ∈ s.delivery.executor.tasks then some (s.turnOf r) else none

def playAll : Session Service Call ServiceRequest → List Scene →
    Option (Session Service Call ServiceRequest)
  | s, [] => some s
  | s, scene :: rest => (s.play scene).bind fun t => t.playAll rest

def seatOf (s : Session Service Call ServiceRequest) (r : Registration) : String :=
  s.audience.seats.getD r ""

end Session

def ServiceRequest.request : ServiceRequest → Service.Request
  | .unsubscribe r => .unsubscribe r
  | .ingest batch => .ingest (.batch batch)

namespace Session

variable (s : Session Service Call ServiceRequest)

/-- the next call of a callback, and what the listener asks for -/
def callJobs (r : Registration) (call : Call) : List Job :=
  .call r :: (s.audience.hear (s.seatOf r) call).1.requests.map fun q => .ask q.request

/-- all calls of a callback, up to the first that fails, and its end -/
def runJobs (s : Session Service Call ServiceRequest) (r : Registration) : List Call → List Job
  | [] => [.settle r none]
  | call :: rest => s.callJobs r call ++
    match (s.audience.hear (s.seatOf r) call).1.failure with
    | some failure => [.settle r (some failure)]
    | none => (s.afterCall (s.seatOf r) call).runJobs r rest

def turnJobs (r : Registration) : List Job :=
  .poll r :: match s.delivery.poll r with
    | (none, _) => []
    | (some c, d) => (s.withDelivery d).runJobs r (calls c)

def Scene.jobs : Scene → List Job
  | .join _ _ => [.subscribe]
  | .unsubscribe r => [.unsubscribe r]
  | .ingest u => [.ingest u]
  | .turn r => s.turnJobs r

def jobsOf : Session Service Call ServiceRequest → List Scene → List Job
  | _, [] => []
  | s, scene :: rest => scene.jobs s ++ (s.play scene).elim [] fun t => t.jobsOf rest

variable {s} {t : Session Service Call ServiceRequest}

theorem playAll_cons {scene : Scene} {rest : List Scene} (h : s.playAll (scene :: rest) = some t) :
    ∃ c, s.play scene = some c ∧ c.playAll rest = some t :=
  Option.bind_eq_some_iff.1 h

theorem jobsOf_cons {scene : Scene} (h : s.play scene = some t) (rest : List Scene) :
    s.jobsOf (scene :: rest) = scene.jobs s ++ t.jobsOf rest := by
  rw [jobsOf, h]
  rfl

end Session

namespace Activity

/-- the service and the calls made are those of the session, and no task is in the middle of a turn -/
structure Mirrors (a : Activity) (s : Session Service Call ServiceRequest) : Prop where
  host : a.service = s.host
  free : a.IsFree
  heard : ∀ name, s.audience.heardBy name =
    (a.traffic.made.filter fun e => s.seatOf e.1 = name).map Prod.snd

/-- one task has this callback in hand, and no other is in the middle of a turn -/
def Holds (a : Activity) (r : Registration) (begun : Bool) (left : List Call) : Prop :=
  a.traffic.underway = (∅ : Std.ExtTreeMap Registration (Turn Call)).insert r (.inHand begun left)

theorem Holds.getElem? {a : Activity} {r : Registration} {begun : Bool} {left : List Call}
    (h : a.Holds r begun left) : a.traffic.underway[r]? = some (.inHand begun left) := by
  rw [h, Std.ExtTreeMap.getElem?_insert_self]

/-- requests are served one after the other -/
theorem performAll_asks (a : Activity) (asked : List Service.Request) :
    a.performAll (asked.map .ask) = some (a.withService (asked.foldl Service.serve a.service)) := by
  induction asked generalizing a with
  | nil => rfl
  | cons q asked ih => exact ih (a.withService (a.service.serve q))

theorem foldl_perform (s : Service) (requests : List ServiceRequest) :
    requests.foldl Notifier.perform s =
      (requests.map ServiceRequest.request).foldl Service.serve s := by
  rw [List.foldl_map]
  congr 1
  funext s q
  cases q <;> rfl

namespace Mirrors

variable {a : Activity} {s t : Session Service Call ServiceRequest} {r : Registration}
  {begun : Bool}

theorem withService (h : a.Mirrors s) (f : Service → Service) :
    (a.withService (f a.service)).Mirrors (s.act f) where
  host := congrArg f h.host
  free := ⟨h.free.outbox, h.free.traffic.registry, h.free.traffic.queues⟩
  heard := h.heard

theorem tasks (h : a.Mirrors s) : a.traffic.delivery.executor.tasks = s.delivery.executor.tasks :=
  congrArg (fun service : Service => service.delivery.executor.tasks) h.host

/-- the next call, with what the listener asks for on the way -/
theorem call (h : a.Mirrors s) {call : Call} {rest : List Call}
    (hu : a.Holds r begun (call :: rest)) :
    ∃ b, a.performAll (s.callJobs r call) = some b ∧ b.Holds r true rest ∧
      b.Mirrors (s.afterCall (s.seatOf r) call) ∧ b.received r = a.received r ++ [call] := by
  let heard := s.audience.hear (s.seatOf r) call
  let c : Activity := { a with traffic := { a.traffic with
    underway := a.traffic.underway.insert r (.inHand true rest)
    made := a.traffic.made ++ [(r, call)] } }
  have hc : a.perform (.call r) = some c := by
    simp [Job.call, perform, Traffic.Operation.isInner, Traffic.perform, Traffic.step, hu.getElem?,
      withTraffic, c]
  have hasks := performAll_asks c (heard.1.requests.map ServiceRequest.request)
  rw [← foldl_perform, List.map_map] at hasks
  refine ⟨_, performAll_of_cons hc hasks, ?_, ⟨?_, ?_, fun other => ?_⟩, ?_⟩
  · show a.traffic.underway.insert r _ = _
    rw [hu, Traffic.insert_insert]
  · exact congrArg (heard.1.requests.foldl Notifier.perform) h.host
  · exact ⟨h.free.outbox, h.free.traffic.registry, Traffic.isLooking_insert h.free.traffic.queues rfl⟩
  · show (s.audience.hear (s.seatOf r) call).2.heardBy other = _
    rw [Audience.heardBy_hear, h.heard]
    show _ = ((a.traffic.made ++ [(r, call)]).filter fun e => s.seatOf e.1 = other).map Prod.snd
    rw [List.filter_append, List.map_append]
    congr 1
    by_cases e : s.seatOf r = other
    · simp [e]
    · simp [e]
  · show Traffic.received { a.traffic with made := a.traffic.made ++ [(r, call)] } r = _
    rw [Traffic.received_append, if_pos rfl]
    rfl

/-- a callback ends, and its listener is cancelled for a failure if the policy says so -/
theorem settle (h : a.Mirrors s) {left : List Call} (hu : a.Holds r begun left)
    {outcome : Option Failure} (ho : (Turn.inHand begun left).mayEnd outcome = true) :
    ∃ b, a.perform (.settle r outcome) = some b ∧ b.traffic.underway = ∅ ∧
      b.Mirrors (s.onDelivery fun d => d.settle r outcome) := by
  let b : Activity := { a with traffic := { a.traffic with
    delivery := a.traffic.delivery.settle r outcome
    underway := a.traffic.underway.erase r } }
  have hb : a.perform (.settle r outcome) = some b := by
    simp [Job.settle, perform, Traffic.Operation.isInner, Traffic.perform, hu.getElem?, ho,
      withTraffic, b]
  have hw := h.withService fun s => { s with delivery := s.delivery.settle r outcome }
  refine ⟨b, hb, ?_, hw.host, h.free.perform hb, hw.heard⟩
  show a.traffic.underway.erase r = ∅
  rw [hu, Traffic.erase_insert, Traffic.erase_of_idle Std.ExtTreeMap.getElem?_empty]

/-- all calls of the callback in hand, up to the first that fails -/
theorem runCalls (h : a.Mirrors s) {left : List Call} (hu : a.Holds r begun left)
    {failure : Option Failure} (ht : s.makeCalls (s.seatOf r) left = (failure, t)) :
    ∃ b, a.performAll (s.runJobs r left) = some b ∧ b.traffic.underway = ∅ ∧
      b.Mirrors (t.onDelivery fun d => d.settle r failure) := by
  induction left generalizing a s begun with
  | nil =>
    obtain ⟨rfl, rfl⟩ := Prod.mk.inj ht
    obtain ⟨b, hb, hn, hm⟩ := h.settle hu (Turn.mayEnd_none begun)
    exact ⟨b, performAll_of_cons hb rfl, hn, hm⟩
  | cons call rest ih =>
    obtain ⟨c, hc, hr, hm, -⟩ := h.call hu
    rw [Session.runJobs, performAll_append, hc]
    rcases hf : (s.audience.hear (s.seatOf r) call).1.failure with _ | f
    · rw [Session.makeCalls_cons_ok hf] at ht
      exact ih hm hr ht
    · rw [Session.makeCalls_cons_failed hf] at ht
      obtain ⟨rfl, rfl⟩ := Prod.mk.inj ht
      obtain ⟨b, hb, hn, hm⟩ := hm.settle hr (Turn.mayEnd_some rest f)
      exact ⟨b, performAll_of_cons hb rfl, hn, hm⟩

/-- what a task does that asks for its next callback -/
theorem poll (h : a.Mirrors s) (hu : a.traffic.underway = ∅) (hr : r ∈ s.delivery.executor.tasks) :
    ∃ b, a.perform (.poll r) = some b ∧ b.Mirrors (s.withDelivery (s.delivery.poll r).2) ∧
      b.traffic.made = a.traffic.made ∧
      match (s.delivery.poll r).1 with
      | none => b.traffic.underway = ∅
      | some c => b.Holds r false (calls c) := by
  have hd : a.traffic.delivery = s.delivery := congrArg Service.delivery h.host
  have hn : a.traffic.underway[r]? = none := by rw [hu, Std.ExtTreeMap.getElem?_empty]
  have hg : r ∈ a.traffic.delivery.executor.tasks ∧ a.traffic.underway[r]? = none := ⟨hd ▸ hr, hn⟩
  let b : Activity := { a with traffic := { a.traffic with
    delivery := (s.delivery.poll r).2
    underway := (s.delivery.poll r).1.elim a.traffic.underway fun c =>
      a.traffic.underway.insert r (.inHand false (calls c)) } }
  have hb : a.perform (.poll r) = some b := by
    show Option.map a.withTraffic (a.traffic.perform calls (.poll r)) = some b
    rw [Traffic.perform, if_pos hg, hd]
    rfl
  have hw := h.withService fun service => { service with delivery := (s.delivery.poll r).2 }
  refine ⟨b, hb, ⟨hw.host, h.free.perform hb, hw.heard⟩, rfl, ?_⟩
  cases hp : (s.delivery.poll r).1 with
  | none =>
    show (s.delivery.poll r).1.elim a.traffic.underway _ = ∅
    rw [hp, hu]
    rfl
  | some c =>
    show (s.delivery.poll r).1.elim a.traffic.underway _ = _
    rw [hp, hu]
    rfl

/-- a turn of a drain task, from start to end -/
theorem turnOf (h : a.Mirrors s) (hu : a.traffic.underway = ∅) (hr : r ∈ s.delivery.executor.tasks) :
    ∃ b, a.performAll (s.turnJobs r) = some b ∧ b.Mirrors (s.turnOf r) ∧ b.traffic.underway = ∅ := by
  obtain ⟨b, hb, hm, -, hturn⟩ := h.poll hu hr
  rcases hp : s.delivery.poll r with ⟨_ | c, d⟩
  · rw [hp] at hm hturn
    have ht : s.turnOf r = s.withDelivery d := by simp [Session.turnOf, hp]
    refine ⟨b, performAll_of_cons hb ?_, ht ▸ hm, hturn⟩
    rw [hp]
    rfl
  · rw [hp] at hm hturn
    rcases hmade : (s.withDelivery d).makeCalls (s.seatOf r) (calls c) with ⟨failure, t⟩
    obtain ⟨e, he, hn, hm⟩ := hm.runCalls hturn hmade
    have ht : s.turnOf r = t.onDelivery fun d => d.settle r failure := by
      have hmade : (s.withDelivery d).makeCalls (s.audience.seats.getD r "") (Notifier.calls Service c)
          = (failure, t) := hmade
      simp [Session.turnOf, hp, hmade]
    refine ⟨e, performAll_of_cons hb ?_, ht ▸ hm, hn⟩
    rw [hp]
    exact he

/-- a listener comes in: nothing has been made to its registration before -/
theorem join (h : a.Mirrors s) (hs : a.Sound) (name : String)
    (behaviour : Behaviour Call ServiceRequest) :
    (a.withService a.service.subscribe.2).Mirrors (s.join name behaviour Service.subscribe).2 := by
  have hw := h.withService fun s => s.subscribe.2
  refine ⟨hw.host, hw.free, fun other => ?_⟩
  show s.audience.heardBy other = (a.traffic.made.filter
    fun e => (s.audience.seats.insert s.host.subscribe.1 name).getD e.1 "" = other).map Prod.snd
  rw [h.heard, ← h.host]
  congr 1
  apply List.filter_congr
  rintro ⟨q, call⟩ he
  have hq : q.number ≤ a.traffic.delivery.issued := hs.traffic.made q call he
  have hn : a.service.subscribe.1 ≠ q := by
    rintro rfl
    exact Nat.not_succ_le_self _ hq
  have hseat : (s.audience.seats.insert s.host.subscribe.1 name).getD q "" = s.seatOf q := by
    rw [Std.ExtTreeMap.getD_insert, ← h.host]
    simp [hn, Session.seatOf]
  rw [← h.host] at hseat
  simp only [hseat]

/-- the next scene -/
theorem play (h : a.Mirrors s) (hs : a.Sound) (hu : a.traffic.underway = ∅) {scene : Session.Scene}
    (ht : s.play scene = some t) :
    ∃ b, a.performAll (scene.jobs s) = some b ∧ b.Mirrors t ∧ b.traffic.underway = ∅ := by
  cases scene with
  | join name behaviour =>
    obtain rfl := Option.some.inj ht
    exact ⟨_, rfl, h.join hs name behaviour, hu⟩
  | unsubscribe r =>
    obtain rfl := Option.some.inj ht
    exact ⟨_, rfl, h.withService fun s => (s.unsubscribe r).2, hu⟩
  | ingest u =>
    obtain rfl := Option.some.inj ht
    exact ⟨_, rfl, h.withService fun s => (s.ingest u).2, hu⟩
  | turn r =>
    obtain ⟨hr, ht⟩ := Option.ite_none_right_eq_some.1 ht
    obtain rfl := Option.some.inj ht
    exact h.turnOf hu hr

/-- **Every session is jobs of the service**, one after the other -/
theorem playAll (h : a.Mirrors s) (hs : a.Sound) (hu : a.traffic.underway = ∅)
    {scenes : List Session.Scene} (ht : s.playAll scenes = some t) :
    ∃ b, a.performAll (s.jobsOf scenes) = some b ∧ b.Mirrors t ∧ b.traffic.underway = ∅ := by
  induction scenes generalizing a s with
  | nil =>
    obtain rfl := Option.some.inj ht
    exact ⟨a, rfl, h, hu⟩
  | cons scene rest ih =>
    obtain ⟨c, hc, hr⟩ := Session.playAll_cons ht
    obtain ⟨b, hb, hm, hn⟩ := h.play hs hu hc
    obtain ⟨e, he, hlast⟩ := ih hm (hs.performAll h.free hb) hn hr
    refine ⟨e, ?_, hlast⟩
    rw [Session.jobsOf_cons hc, performAll_append, hb]
    exact he

end Mirrors

theorem mirrors_start (policy : FailurePolicy) :
    (Activity.start policy).Mirrors (.start (.start policy)) where
  host := rfl
  free := isFree_start policy
  heard name := by
    show (∅ : Std.ExtTreeMap String (List Call)).getD name [] = []
    rw [Std.ExtTreeMap.getD_empty]

end Activity

end OverlayWatch
