import OverlayWatch.Proofs.Service.Sessions

/-!
# Listeners of a session

A listener that sits behind one registration alone hears in a session what is received by the
registration, and its behaviour says which calls fail.  So what holds of an observer where jobs are
done holds of every listener that comes in under a name of its own.

* `Session.Seated`           whoever sits behind a registration has come in;
* `Session.Sits`             a listener with one seat, and at which calls it fails;
* `Mirrors.heardBy_eq`       it hears what its registration receives;
* `Mirrors.conforms`         the jobs of the session are those of a listener that fails at these calls;
* `Guest`                    a listener that comes in under a name of its own;
* `Guest.exists_stay`        one way for an observer to come in.
-/

namespace OverlayWatch

open Notification (calls)
open Activity (Job)

/-! ## seats -/

namespace Session

section
variable {μ κ γ ρ : Type} [Notifier μ κ γ ρ]

/-- nobody comes in while calls are made -/
theorem audience_makeCalls (s : Session μ γ ρ) (name : String) (calls : List γ) :
    (s.makeCalls name calls).2.audience.seats = s.audience.seats ∧
      (s.makeCalls name calls).2.audience.behaviours = s.audience.behaviours := by
  induction calls generalizing s with
  | nil => exact ⟨rfl, rfl⟩
  | cons call rest ih =>
    cases hf : (s.audience.hear name call).1.failure with
    | none =>
      rw [makeCalls_cons_ok hf]
      exact ih (s.afterCall name call)
    | some failure =>
      rw [makeCalls_cons_failed hf]
      exact ⟨rfl, rfl⟩

theorem audience_turnOf (s : Session μ γ ρ) (r : Registration) :
    (s.turnOf r).audience.seats = s.audience.seats ∧
      (s.turnOf r).audience.behaviours = s.audience.behaviours := by
  unfold turnOf
  split
  · exact ⟨rfl, rfl⟩
  · exact audience_makeCalls _ _ _

end

variable {s t : Session Service Call ServiceRequest} {r : Registration}
  {ends : List Call → Option Failure} {scene : Scene}

/-- whoever sits behind a registration has come in -/
def Seated (s : Session Service Call ServiceRequest) : Prop :=
  ∀ (q : Registration) (name : String),
    s.audience.seats[q]? = some name → s.audience.contains name = true

theorem Seated.play (h : s.Seated) (ht : s.play scene = some t) : t.Seated := by
  cases scene with
  | join other behaviour =>
    obtain rfl := Option.some.inj ht
    intro q name hq
    have hq : (s.audience.seats.insert s.host.subscribe.1 other)[q]? = some name := hq
    show (s.audience.behaviours.insertIfNew other behaviour).contains name = true
    rw [Std.ExtTreeMap.contains_insertIfNew, Bool.or_eq_true, beq_iff_eq]
    rw [Std.ExtTreeMap.getElem?_insert] at hq
    split at hq
    · exact .inl (by simpa using hq)
    · exact .inr (h q name hq)
  | unsubscribe r =>
    obtain rfl := Option.some.inj ht
    exact h
  | ingest u =>
    obtain rfl := Option.some.inj ht
    exact h
  | turn r =>
    obtain ⟨-, ht⟩ := Option.ite_none_right_eq_some.1 ht
    obtain rfl := Option.some.inj ht
    obtain ⟨hseats, hbehaviours⟩ := s.audience_turnOf r
    unfold Seated Audience.contains
    rw [hseats, hbehaviours]
    exact h

theorem Seated.playAll (h : s.Seated) {scenes : List Scene} (ht : s.playAll scenes = some t) :
    t.Seated := by
  induction scenes generalizing s with
  | nil => exact Option.some.inj ht ▸ h
  | cons scene rest ih =>
    obtain ⟨c, hc, hr⟩ := playAll_cons ht
    exact ih (h.play hc) hr

/-- the listener behind the registration sits behind no other one, and its calls fail as `ends` says -/
structure Sits (s : Session Service Call ServiceRequest) (r : Registration)
    (ends : List Call → Option Failure) : Prop where
  alone : ∀ q, s.seatOf q = s.seatOf r → q = r
  behaviour : ∃ behaviour, s.audience.behaviours[s.seatOf r]? = some behaviour ∧
    ∀ calls, (behaviour calls).failure = ends calls

theorem Sits.congr (h : s.Sits r ends) (hseats : t.audience.seats = s.audience.seats)
    (hbehaviours : t.audience.behaviours = s.audience.behaviours) :
    t.Sits r ends ∧ t.seatOf r = s.seatOf r := by
  have hseat : t.seatOf = s.seatOf := by
    funext q
    rw [seatOf, seatOf, hseats]
  exact ⟨⟨by rw [hseat]; exact h.alone, by rw [hseat, hbehaviours]; exact h.behaviour⟩, by rw [hseat]⟩

theorem Sits.join (h : s.Sits r ends) (hr : r.number ≤ s.delivery.issued) {other : String}
    (hn : other ≠ s.seatOf r) (behaviour : Behaviour Call ServiceRequest) :
    (s.join other behaviour Service.subscribe).2.Sits r ends ∧
      (s.join other behaviour Service.subscribe).2.seatOf r = s.seatOf r := by
  let t := (s.join other behaviour Service.subscribe).2
  have hseat : ∀ q, t.seatOf q = if s.host.subscribe.1 = q then other else s.seatOf q := by
    intro q
    show (s.audience.seats.insert s.host.subscribe.1 other).getD q "" = _
    rw [Std.ExtTreeMap.getD_insert]
    simp [seatOf]
  have hne : s.host.subscribe.1 ≠ r := by
    rintro rfl
    exact Nat.not_succ_le_self _ hr
  have hsame : t.seatOf r = s.seatOf r := by rw [hseat, if_neg hne]
  obtain ⟨own, hown, hends⟩ := h.behaviour
  refine ⟨⟨fun q hq => ?_, own, ?_, hends⟩, hsame⟩
  · have hq : t.seatOf q = t.seatOf r := hq
    rw [hsame, hseat] at hq
    split at hq
    · exact absurd hq hn
    · exact h.alone q hq
  · show (s.audience.behaviours.insertIfNew other behaviour)[t.seatOf r]? = some own
    rw [hsame, Std.ExtTreeMap.getElem?_insertIfNew]
    simp [hn, hown]

/-- others come and go -/
theorem Sits.play (h : s.Sits r ends) (hr : r.number ≤ s.delivery.issued)
    (ht : s.play scene = some t) (hn : scene.newcomer? ≠ some (s.seatOf r)) :
    t.Sits r ends ∧ t.seatOf r = s.seatOf r := by
  cases scene with
  | join other behaviour =>
    obtain rfl := Option.some.inj ht
    exact h.join hr (fun e => hn (congrArg some e)) behaviour
  | unsubscribe q =>
    obtain rfl := Option.some.inj ht
    exact h.congr rfl rfl
  | ingest u =>
    obtain rfl := Option.some.inj ht
    exact h.congr rfl rfl
  | turn q =>
    obtain ⟨-, ht⟩ := Option.ite_none_right_eq_some.1 ht
    obtain rfl := Option.some.inj ht
    exact h.congr (s.audience_turnOf q).1 (s.audience_turnOf q).2

end Session

/-! ## what a listener makes of its calls -/

namespace Activity.Mirrors

variable {a : Activity} {s t : Session Service Call ServiceRequest} {r q : Registration}
  {ends : List Call → Option Failure} {begun : Bool} {left : List Call}

theorem heardBy_eq (h : a.Mirrors s) (hs : s.Sits r ends) :
    s.audience.heardBy (s.seatOf r) = a.received r := by
  rw [h.heard, received, Traffic.received]
  congr 1
  apply List.filter_congr
  rintro ⟨q, call⟩ -
  exact decide_eq_decide.2 ⟨hs.alone q, congrArg s.seatOf⟩

/-- how the next call ends -/
theorem failure_eq (h : a.Mirrors s) (hs : s.Sits r ends) (call : Call) :
    (s.audience.hear (s.seatOf r) call).1.failure = ends (a.received r ++ [call]) := by
  obtain ⟨behaviour, hb, he⟩ := hs.behaviour
  rw [← h.heardBy_eq hs, ← he]
  simp only [Audience.hear, hb]

theorem conforms_asks {asked : List Service.Request} (hk : ∀ q ∈ asked, (Job.ask q).Keeps r) :
    a.Conforms ends r (asked.map .ask) := by
  refine conforms_of_forall fun j hj c => ?_
  obtain ⟨q, hq, rfl⟩ := List.mem_map.1 hj
  have hq := hk q hq
  cases q with
  | unsubscribe p => exact hq
  | subscribe => trivial
  | ingest u => trivial

/-- the callback in hand is that of the listener -/
theorem conforms_runJobs (h : a.Mirrors s) (hs : s.Sits r ends) (hu : a.Holds r begun left)
    (hn : begun = true → ends (a.received r) = none) (hk : ∀ j ∈ s.runJobs r left, j.Keeps r) :
    a.Conforms ends r (s.runJobs r left) := by
  have hgoes : ∀ turn ∈ a.traffic.underway[r]?, turn.begun = true →
      ends (a.traffic.received r) = none := by
    intro turn ht hb
    obtain rfl := Option.some.inj (hu.getElem?.symm.trans ht)
    exact hn hb
  induction left generalizing a s begun with
  | nil => exact ⟨fun _ => hgoes, fun _ _ => trivial⟩
  | cons call rest ih =>
    obtain ⟨c, hc, hr, hm, hreceived⟩ := h.call hu
    obtain ⟨hsits, hseat⟩ := hs.congr (t := s.afterCall (s.seatOf r) call) rfl rfl
    have hfailure := h.failure_eq hs call
    rw [← hreceived] at hfailure
    have hcall : a.Conforms ends r (s.callJobs r call) := by
      refine ⟨fun _ => hgoes, fun b _ => ?_⟩
      have hmap : ((s.audience.hear (s.seatOf r) call).1.requests.map fun q => Job.ask q.request) =
          ((s.audience.hear (s.seatOf r) call).1.requests.map ServiceRequest.request).map .ask :=
        List.map_map.symm
      rw [hmap]
      refine conforms_asks fun q hq => hk _ (List.mem_append_left _ (List.mem_cons_of_mem _ ?_))
      rw [hmap]
      exact List.mem_map_of_mem hq
    rw [Session.runJobs] at hk ⊢
    refine hcall.append hc ?_
    cases hf : (s.audience.hear (s.seatOf r) call).1.failure with
    | some failure =>
      rw [hf] at hfailure
      exact ⟨fun _ => hfailure.symm, fun _ _ => trivial⟩
    | none =>
      rw [hf] at hfailure hk
      refine ih hm hsits hr (fun _ => hfailure.symm)
        (fun j hj => hk j (List.mem_append_right _ hj)) fun turn ht _ => hfailure.symm

/-- the callback in hand is that of another listener -/
theorem heeds_of_mem_runJobs (hq : q ≠ r) {j : Job} (hj : j ∈ s.runJobs q left) (hk : j.Keeps r)
    (c : Activity) : j.Heeds ends c r := by
  induction left generalizing s with
  | nil =>
    obtain rfl := List.mem_singleton.1 hj
    exact fun e => absurd e hq
  | cons call rest ih =>
    rw [Session.runJobs] at hj
    rcases List.mem_append.1 hj with hj | hj
    · rcases List.mem_cons.1 hj with rfl | hj
      · exact fun e => absurd e hq
      · obtain ⟨request, -, rfl⟩ := List.mem_map.1 hj
        cases request with
        | unsubscribe p => exact hk
        | ingest batch => trivial
    · split at hj
      · obtain rfl := List.mem_singleton.1 hj
        exact fun e => absurd e hq
      · exact ih hj

theorem conforms_turn (h : a.Mirrors s) (hu : a.traffic.underway = ∅)
    (hq : q ∈ s.delivery.executor.tasks) (hs : s.Sits r ends) (hk : ∀ j ∈ s.turnJobs q, j.Keeps r) :
    a.Conforms ends r (s.turnJobs q) := by
  obtain ⟨b, hb, hm, hmade, hturn⟩ := h.poll hu hq
  refine ⟨trivial, fun c hc => ?_⟩
  obtain rfl := Option.some.inj (hb.symm.trans hc)
  rcases hp : s.delivery.poll q with ⟨_ | c, d⟩
  · trivial
  · rw [hp] at hm hturn
    have hk : ∀ j ∈ (s.withDelivery d).runJobs q (calls c), j.Keeps r := by
      intro j hj
      refine hk j (List.mem_cons_of_mem _ ?_)
      rw [hp]
      exact hj
    by_cases hqr : q = r
    · subst hqr
      obtain ⟨hsits, -⟩ := hs.congr (t := s.withDelivery d) rfl rfl
      exact hm.conforms_runJobs hsits hturn (fun e => by cases e) hk
    · exact conforms_of_forall fun j hj c => heeds_of_mem_runJobs hqr hj (hk j hj) c

theorem conforms_play (h : a.Mirrors s) (hu : a.traffic.underway = ∅) (hs : s.Sits r ends)
    {scene : Session.Scene} (ht : s.play scene = some t) (hk : ∀ j ∈ scene.jobs s, j.Keeps r) :
    a.Conforms ends r (scene.jobs s) := by
  cases scene with
  | join name behaviour => exact ⟨trivial, fun _ _ => trivial⟩
  | unsubscribe q => exact ⟨hk _ List.mem_cons_self, fun _ _ => trivial⟩
  | ingest u => exact ⟨trivial, fun _ _ => trivial⟩
  | turn q =>
    obtain ⟨hq, -⟩ := Option.ite_none_right_eq_some.1 ht
    exact h.conforms_turn hu hq hs hk

/-- **The jobs of a session are those of a listener that fails as it does** -/
theorem conforms (h : a.Mirrors s) (hsound : a.Sound) (hu : a.traffic.underway = ∅)
    (hr : r.number ≤ a.traffic.delivery.issued) (hs : s.Sits r ends) {scenes : List Session.Scene}
    (ht : s.playAll scenes = some t) (hn : ∀ scene ∈ scenes, scene.newcomer? ≠ some (s.seatOf r))
    (hk : ∀ j ∈ s.jobsOf scenes, j.Keeps r) :
    a.Conforms ends r (s.jobsOf scenes) ∧ t.Sits r ends ∧ t.seatOf r = s.seatOf r := by
  induction scenes generalizing a s with
  | nil =>
    obtain rfl := Option.some.inj ht
    exact ⟨trivial, hs, rfl⟩
  | cons scene rest ih =>
    obtain ⟨c, hc, hrest⟩ := Session.playAll_cons ht
    rw [Session.jobsOf_cons hc] at hk ⊢
    obtain ⟨hfirst, hlater⟩ := List.forall_mem_append.1 hk
    obtain ⟨b, hb, hm, hidle⟩ := h.play hsound hu hc
    have hissued : r.number ≤ s.delivery.issued := by
      rw [show s.delivery = a.traffic.delivery from congrArg Service.delivery h.host.symm]
      exact hr
    obtain ⟨hsits, hseat⟩ := hs.play hissued hc (hn scene List.mem_cons_self)
    obtain ⟨hconforms, hlast, hsame⟩ := ih hm (hsound.performAll h.free hb) hidle
      (Nat.le_trans hr (issued_run (h.free.run_movesOf hb).1)) hsits hrest
      (fun k hk => hseat ▸ hn k (List.mem_cons_of_mem scene hk)) hlater
    exact ⟨(h.conforms_play hu hs hc hfirst).append hb hconforms, hlast, hsame.trans hseat⟩

end Activity.Mirrors

/-! ## a listener that comes in -/

/-- a listener that comes in under a name of its own, in a session of a new service -/
structure Guest (policy : FailurePolicy) where
  before : List Session.Scene
  opening : Session Service Call ServiceRequest
  name : String
  behaviour : Behaviour Call ServiceRequest
  later : List Session.Scene
  now : Session Service Call ServiceRequest
  reached : (Session.start (Service.start policy)).playAll before = some opening
  played : opening.playAll (.join name behaviour :: later) = some now
  /-- an empty seat goes by the empty name -/
  named : name ≠ ""
  fresh : opening.audience.contains name = false
  alone : ∀ scene ∈ later, scene.newcomer? ≠ some name

namespace Guest

open Activity (Stay)

variable {policy : FailurePolicy} (g : Guest policy)

/-- made from what happens in the session, if it can happen -/
def come (policy : FailurePolicy) (before : List Session.Scene) (name : String)
    (behaviour : Behaviour Call ServiceRequest) (later : List Session.Scene)
    (h : ((Session.start (Service.start policy)).playAll before).isSome)
    (hl : ((((Session.start (Service.start policy)).playAll before).get h).playAll
      (.join name behaviour :: later)).isSome)
    (named : name ≠ "")
    (fresh : (((Session.start (Service.start policy)).playAll before).get h).audience.contains name
      = false)
    (alone : ∀ scene ∈ later, scene.newcomer? ≠ some name) : Guest policy :=
  ⟨before, _, name, behaviour, later, _, (Option.some_get h).symm, (Option.some_get hl).symm,
    named, fresh, alone⟩

def registration : Registration := g.opening.host.subscribe.1

/-- the session when the listener has just come in -/
def opened : Session Service Call ServiceRequest :=
  (g.opening.join g.name g.behaviour Service.subscribe).2

/-- the calls that the listener has had -/
def heard : List Call := g.now.audience.heardBy g.name

def ends (calls : List Call) : Option Failure := (g.behaviour calls).failure

def earlierJobs : List Job := (Session.start (Service.start policy)).jobsOf g.before

def jobs : List Job := g.opened.jobsOf g.later

/-- the updates that the feeds and the listeners had handed in before it came, and those since then -/
def earlier : List Update := g.earlierJobs.flatMap Job.updates

def updates : List Update := g.jobs.flatMap Job.updates

/-- neither from outside nor at a listener's request is it removed -/
def IsKept : Prop := ∀ j ∈ g.jobs, j.Keeps g.registration

def IsOver : Prop := g.now.delivery.executor.tasks = []

instance : Decidable g.IsKept := inferInstanceAs (Decidable (∀ j ∈ g.jobs, j.Keeps g.registration))

instance : Decidable g.IsOver := inferInstanceAs (Decidable (g.now.delivery.executor.tasks = []))

theorem played_later : g.opened.playAll g.later = some g.now := g.played

theorem sits_opened :
    g.opened.Sits g.registration g.ends ∧ g.opened.seatOf g.registration = g.name := by
  have hseated : g.opening.Seated := by
    refine Session.Seated.playAll (fun q name hq => ?_) g.reached
    have hq : (∅ : Std.ExtTreeMap Registration String)[q]? = some name := hq
    rw [Std.ExtTreeMap.getElem?_empty] at hq
    cases hq
  have hseat : ∀ q, g.opened.seatOf q =
      if g.registration = q then g.name else g.opening.seatOf q := by
    intro q
    show (g.opening.audience.seats.insert g.registration g.name).getD q "" = _
    rw [Std.ExtTreeMap.getD_insert]
    simp [Session.seatOf]
  have hown : g.opened.seatOf g.registration = g.name := by rw [hseat, if_pos rfl]
  refine ⟨⟨fun q hq => ?_, g.behaviour, ?_, fun _ => rfl⟩, hown⟩
  · rw [hown, hseat] at hq
    split at hq
    · exact Eq.symm ‹_›
    · rw [Session.seatOf, Std.ExtTreeMap.getD_eq_getD_getElem?] at hq
      cases hs : g.opening.audience.seats[q]? with
      | none =>
        rw [hs] at hq
        exact absurd hq.symm g.named
      | some other =>
        rw [hs] at hq
        have hc := hseated q other hs
        rw [show other = g.name from hq, g.fresh] at hc
        cases hc
  · have hnew : g.opening.audience.behaviours.contains g.name = false := g.fresh
    show (g.opening.audience.behaviours.insertIfNew g.name g.behaviour)[g.opened.seatOf _]? = _
    rw [hown, Std.ExtTreeMap.getElem?_insertIfNew]
    simp [← Std.ExtTreeMap.contains_iff_mem, hnew]

/-- **A listener of a session is an observer** that comes in while jobs are done, that receives what the
listener hears, and whose calls fail as it lets them -/
theorem exists_stay (hk : g.IsKept) : ∃ v : Stay policy, v.before = g.earlierJobs ∧
    v.later = g.jobs ∧ v.registration = g.registration ∧ v.received = g.heard ∧
    v.now.traffic.delivery.executor.tasks = g.now.delivery.executor.tasks ∧
    v.opened.Conforms g.ends v.registration v.later := by
  obtain ⟨a, ha, hm, hu⟩ := (Activity.mirrors_start policy).playAll (Activity.sound_start policy) rfl
    g.reached
  have hs : a.Sound := (Activity.sound_start policy).performAll (Activity.isFree_start policy) ha
  have hopened : (a.withService a.service.subscribe.2).Mirrors g.opened :=
    hm.join hs g.name g.behaviour
  have hsubscribe : a.performAll [.subscribe] = some (a.withService a.service.subscribe.2) := rfl
  have hsopened : (a.withService a.service.subscribe.2).Sound := hs.performAll hm.free hsubscribe
  obtain ⟨b, hb, hn, -⟩ := hopened.playAll hsopened hu g.played_later
  have hregistration : a.service.subscribe.1 = g.registration :=
    congrArg (fun s : Service => s.subscribe.1) hm.host
  obtain ⟨hsits, hname⟩ := g.sits_opened
  have hissued : g.registration.number ≤
      (a.withService a.service.subscribe.2).traffic.delivery.issued := by
    have hnext := a.traffic.delivery.issued_register
      (some (.snapshot a.state.snapshot.1 a.state.snapshot.2))
    rw [← hregistration]
    exact Nat.le_of_eq hnext.symm
  obtain ⟨hconforms, hlast, hsame⟩ := hopened.conforms hsopened hu hissued hsits g.played_later
    (by rw [hname]; exact g.alone) hk
  refine ⟨⟨g.earlierJobs, a, g.jobs, b, ha, hb⟩, rfl, rfl, hregistration, ?_, hn.tasks, ?_⟩
  · have hheard := hn.heardBy_eq hlast
    rw [hsame, hname] at hheard
    show b.received a.service.subscribe.1 = g.heard
    rw [hregistration, ← hheard]
    rfl
  · show Activity.Conforms g.ends a.service.subscribe.1 _ _
    rw [hregistration]
    exact hconforms

end Guest

end OverlayWatch
