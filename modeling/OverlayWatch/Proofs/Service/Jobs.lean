import OverlayWatch.Proofs.Delivery.Hearing
import OverlayWatch.Proofs.Service.Activity

/-!
# Jobs of the service and their moves

A job is done from start to end: a request is served, with all that the service sends out for it, or a
drain task does its next piece of work.  It is what its moves come to if nobody makes another one in
between.  So what holds whatever moves are made can be read of `Service.subscribe`,
`Service.unsubscribe` and `Service.ingest`.

* `Service.Request`, `Service.serve`   what can be asked of the service;
* `Activity.Job`             a request, or an operation of a drain task;
* `Activity.perform`, `performAll`     jobs done one after the other;
* `Job.moves`, `movesOf`     the moves that they consist of;
* `sends`                    the moves by which notifications are sent out;
* `Activity.IsFree`          nothing is being sent out, and nothing is locked;
* `IsFree.run_moves`         then to do a job is to make its moves;
* `IsFree.run_movesOf`       and jobs are their moves, one after the other;
* `Job.Keeps`, `Job.Spares`  a registration is not removed, and does not fail;
* `Activity.Conforms`        whatever calls of it fail, its callbacks end accordingly;
* `Stay`                     an observer that comes in where jobs are done.
-/

namespace OverlayWatch

open Notification (calls)

namespace Service

inductive Request where
  | subscribe
  | unsubscribe (r : Registration)
  | ingest (u : Update)

def serve (s : Service) : Request → Service
  | .subscribe => s.subscribe.2
  | .unsubscribe r => (s.unsubscribe r).2
  | .ingest u => (s.ingest u).2

def Request.updates : Request → List Update
  | .ingest u => [u]
  | _ => []

end Service

/-- the operation goes on with what has been begun -/
def Traffic.Operation.isInner {κ : Type} : Operation κ → Bool
  | .poll _ => true
  | .call _ => true
  | .settle _ _ => true
  | _ => false

theorem Traffic.Operation.isInner_first {κ : Type} {o : Operation κ} (h : o.isInner = true) :
    o.first.isInner = true := by
  cases o with
  | poll r => rfl
  | call r => rfl
  | settle r outcome => cases outcome <;> rfl
  | _ => cases h

theorem Traffic.Move.GoesOn.isInner {κ : Type} {m : Move κ} (h : m.GoesOn) : m.isInner = true := by
  cases m with
  | post r => rfl
  | take r => rfl
  | cancel r => rfl
  | _ => cases h

namespace Activity

inductive Job where
  | ask (q : Service.Request)
  /-- a drain task goes on -/
  | deliver (o : Traffic.Operation Notification)

namespace Job

def subscribe : Job := .ask .subscribe

def unsubscribe (r : Registration) : Job := .ask (.unsubscribe r)

def ingest (u : Update) : Job := .ask (.ingest u)

def poll (r : Registration) : Job := .deliver (.poll r)

def call (r : Registration) : Job := .deliver (.call r)

def settle (r : Registration) (outcome : Option Failure) : Job := .deliver (.settle r outcome)

/-- what the feeds hand in -/
def updates : Job → List Update
  | .ask q => q.updates
  | .deliver _ => []

end Job

def perform (a : Activity) : Job → Option Activity
  | .ask q => some (a.withService (a.service.serve q))
  | .deliver o => if o.isInner then (a.traffic.perform calls o).map a.withTraffic else none

def performAll : Activity → List Job → Option Activity
  | a, [] => some a
  | a, j :: rest => (a.perform j).bind fun b => b.performAll rest

/-- each notification is queued for everyone registered before the next one goes out -/
def sends (s : Service) : List Notification → List Move
  | [] => []
  | n :: rest => .send :: s.delivery.registered.map Move.post ++ sends (s.send n) rest

def Job.moves (a : Activity) : Job → List Move
  | .ask .subscribe => [.subscribe]
  | .ask (.unsubscribe r) => [.unsubscribe r]
  | .ask (.ingest u) => .ingest u :: match a.service.accept u with
    | (.ok d, s) => sends s d.notifications
    | (.error _, _) => []
  | .deliver o => (o.moves a.traffic).map .deliver

/-- the moves that the jobs consist of -/
def movesOf : Activity → List Job → List Move
  | _, [] => []
  | a, j :: rest => j.moves a ++ (a.perform j).elim [] fun b => movesOf b rest

structure IsFree (a : Activity) : Prop where
  outbox : a.outbox = []
  traffic : a.traffic.IsFree

variable {a b : Activity} {j : Job}

theorem isFree_start (policy : FailurePolicy) : (start policy).IsFree :=
  ⟨rfl, Traffic.isFree_start policy⟩

theorem IsFree.isSettled (h : a.IsFree) : a.isSettled = true :=
  isSettled_iff.2 ⟨h.outbox, h.traffic.registry⟩

/-- a drain task does its work while nothing is being sent out -/
theorem IsFree.atRest (h : a.IsFree) (ht : a.traffic.delivery.executor.tasks = []) : a.AtRest :=
  ⟨ht, h.isSettled⟩

theorem performAll_cons {rest : List Job} (h : a.performAll (j :: rest) = some b) :
    ∃ c, a.perform j = some c ∧ c.performAll rest = some b :=
  Option.bind_eq_some_iff.1 h

theorem performAll_of_cons {c : Activity} {rest : List Job} (h : a.perform j = some c)
    (hr : c.performAll rest = some b) : a.performAll (j :: rest) = some b :=
  Option.bind_eq_some_iff.2 ⟨c, h, hr⟩

theorem performAll_append (a : Activity) (l k : List Job) :
    a.performAll (l ++ k) = (a.performAll l).bind fun b => b.performAll k := by
  induction l generalizing a with
  | nil => rfl
  | cons j l ih =>
    show ((a.perform j).bind fun b => b.performAll (l ++ k)) =
      ((a.perform j).bind fun b => b.performAll l).bind _
    rw [Option.bind_assoc]
    congr 1
    funext b
    exact ih b

theorem movesOf_cons (h : a.perform j = some b) (rest : List Job) :
    a.movesOf (j :: rest) = j.moves a ++ b.movesOf rest := by
  rw [movesOf, h]
  rfl

/-! ## the moves of a job -/

/-- moves of the delivery alone, after a first one -/
theorem deliver_run (m : Traffic.Move Notification) {moves : List (Traffic.Move Notification)}
    (hi : ∀ k ∈ moves, k.isInner = true) : ((a.deliver m).bind fun b => b.run (moves.map .deliver)) =
      (a.traffic.run calls (m :: moves)).map a.withTraffic := by
  induction moves generalizing a m with
  | nil =>
    show ((a.traffic.step calls m).map a.withTraffic).bind some =
      ((a.traffic.step calls m).bind some).map a.withTraffic
    rw [Option.bind_fun_some, Option.bind_fun_some]
  | cons k moves ih =>
    rw [deliver, Traffic.run]
    cases a.traffic.step calls m with
    | none => rfl
    | some t =>
      have hk : (a.withTraffic t).step (.deliver k) = (a.withTraffic t).deliver k :=
        if_pos (hi k List.mem_cons_self)
      show (a.withTraffic t).run (.deliver k :: moves.map .deliver) =
        (t.run calls (k :: moves)).map a.withTraffic
      rw [run, hk]
      exact ih k fun n hn => hi n (List.mem_cons_of_mem k hn)

theorem run_send {n : Notification} {rest : List Notification} (ho : a.outbox = n :: rest)
    (hf : a.traffic.IsFree) : a.run (.send :: a.service.delivery.registered.map Move.post) =
      some { a.withService (a.service.send n) with outbox := rest } := by
  let c : Activity := { a.withService (a.service.countSent n) with outbox := rest }
  have hs : a.step .send = c.deliver (.enqueue n) := by rw [step, ho]
  have hi : ∀ k : Traffic.Move Notification,
      k ∈ a.traffic.delivery.registered.map .post → k.isInner = true := by
    intro k hk
    obtain ⟨r, -, rfl⟩ := List.mem_map.1 hk
    rfl
  have ht : c.traffic.run calls (.enqueue n :: a.traffic.delivery.registered.map .post) = some
      { a.traffic with delivery := a.traffic.delivery.enqueue n } :=
    hf.run_moves (o := .enqueue n) rfl
  have hp : a.service.delivery.registered.map Move.post =
      (a.traffic.delivery.registered.map .post).map .deliver := List.map_map.symm
  rw [run, hs, hp, deliver_run _ hi, ht]
  rfl

theorem run_sends {sent : List Notification} (ho : a.outbox = sent) (hf : a.traffic.IsFree) :
    a.run (sends a.service sent) =
      some { a.withService (sent.foldl Service.send a.service) with outbox := [] } := by
  induction sent generalizing a with
  | nil =>
    obtain ⟨state, stats, outbox, traffic⟩ := a
    obtain rfl : outbox = [] := ho
    rfl
  | cons n rest ih =>
    rw [sends, run_append, run_send ho hf]
    exact ih rfl ⟨hf.registry, hf.queues⟩

/-- **A job is its moves**, one after the other, where nothing is locked -/
theorem IsFree.run_moves (h : a.IsFree) (hb : a.perform j = some b) : a.run (j.moves a) = some b := by
  match j with
  | .ask .subscribe =>
    obtain rfl := Option.some.inj hb
    rw [Job.moves, run, step, if_pos h.isSettled]
    rfl
  | .ask (.unsubscribe r) =>
    obtain rfl := Option.some.inj hb
    rw [Job.moves, run, step, if_pos h.traffic.registry]
    rfl
  | .ask (.ingest u) =>
    obtain rfl := Option.some.inj hb
    rw [Job.moves, run, step, if_pos h.isSettled, Service.serve, Service.ingest]
    rcases a.service.accept u with ⟨_ | d, s⟩
    · rfl
    · have hsends := run_sends (a := { a.withService s with outbox := d.notifications }) rfl
        ⟨h.traffic.registry, h.traffic.queues⟩
      refine hsends.trans ?_
      rw [← h.outbox]
      rfl
  | .deliver o =>
    obtain ⟨hi, hb⟩ := Option.ite_none_right_eq_some.1 hb
    obtain ⟨t, ht, rfl⟩ := Option.map_eq_some_iff.1 hb
    have hs : a.step (.deliver o.first) = a.deliver o.first :=
      if_pos (Traffic.Operation.isInner_first hi)
    rw [Job.moves, Traffic.Operation.moves, List.map_cons, run, hs,
      deliver_run _ fun k hk => (Traffic.Operation.goesOn_of_mem_rest hk).isInner]
    exact congrArg (Option.map a.withTraffic) (h.traffic.run_moves ht)

theorem IsFree.perform (h : a.IsFree) (hb : a.perform j = some b) : b.IsFree := by
  cases j with
  | ask q =>
    obtain rfl := Option.some.inj hb
    exact ⟨h.outbox, h.traffic.registry, h.traffic.queues⟩
  | deliver o =>
    obtain ⟨-, hb⟩ := Option.ite_none_right_eq_some.1 hb
    obtain ⟨t, ht, rfl⟩ := Option.map_eq_some_iff.1 hb
    exact ⟨h.outbox, h.traffic.perform ht⟩

/-- **Jobs are moves**, one after the other -/
theorem IsFree.run_movesOf (h : a.IsFree) {jobs : List Job} (hb : a.performAll jobs = some b) :
    a.run (a.movesOf jobs) = some b ∧ b.IsFree := by
  induction jobs generalizing a with
  | nil =>
    obtain rfl := Option.some.inj hb
    exact ⟨rfl, h⟩
  | cons j rest ih =>
    obtain ⟨c, hc, hr⟩ := performAll_cons hb
    obtain ⟨hrun, hfree⟩ := ih (h.perform hc) hr
    rw [movesOf_cons hc, run_append, h.run_moves hc]
    exact ⟨hrun, hfree⟩

theorem Sound.performAll (hs : a.Sound) (hf : a.IsFree) {jobs : List Job}
    (hb : a.performAll jobs = some b) : b.Sound :=
  hs.run (hf.run_movesOf hb).1

theorem issued_run {moves : List Move} (h : a.run moves = some b) :
    a.traffic.delivery.issued ≤ b.traffic.delivery.issued := by
  induction moves generalizing a with
  | nil =>
    obtain rfl := Option.some.inj h
    exact Nat.le_refl _
  | cons m rest ih =>
    obtain ⟨c, hc, hr⟩ := run_cons h
    obtain ⟨t, ht⟩ := traffic_step hc
    exact Nat.le_trans (Traffic.issued_step ht) (ih hr)

/-! ## what is asked by them -/

theorem mem_sends {s : Service} {sent : List Notification} {m : Move} (hm : m ∈ sends s sent) :
    m = .send ∨ ∃ r, m = .post r := by
  induction sent generalizing s with
  | nil => cases hm
  | cons n rest ih =>
    rcases List.mem_append.1 hm with hm | hm
    · rcases List.mem_cons.1 hm with rfl | hm
      · exact .inl rfl
      · obtain ⟨r, -, rfl⟩ := List.mem_map.1 hm
        exact .inr ⟨r, rfl⟩
    · exact ih hm

theorem ingested_sends (s : Service) (sent : List Notification) : ingested (sends s sent) = [] := by
  refine List.flatMap_eq_nil_iff.2 fun m hm => ?_
  obtain rfl | ⟨r, rfl⟩ := mem_sends hm
  · rfl
  · rfl

theorem ingested_moves (a : Activity) (j : Job) : ingested (j.moves a) = j.updates := by
  match j with
  | .ask .subscribe => rfl
  | .ask (.unsubscribe r) => rfl
  | .ask (.ingest u) =>
    rw [Job.moves, ingested_cons]
    rcases a.service.accept u with ⟨_ | d, s⟩
    · rfl
    · rw [ingested_sends]
      rfl
  | .deliver o =>
    refine List.flatMap_eq_nil_iff.2 fun m hm => ?_
    obtain ⟨k, -, rfl⟩ := List.mem_map.1 hm
    rfl

theorem ingested_movesOf {jobs : List Job} (hb : a.performAll jobs = some b) :
    ingested (a.movesOf jobs) = jobs.flatMap Job.updates := by
  induction jobs generalizing a with
  | nil => rfl
  | cons j rest ih =>
    obtain ⟨c, hc, hr⟩ := performAll_cons hb
    rw [movesOf_cons hc, ingested_append, ingested_moves, ih hr, List.flatMap_cons]

def Job.Keeps (r : Registration) : Job → Prop
  | .ask (.unsubscribe q) => q ≠ r
  | _ => True

/-- the registration is neither removed nor does a callback of it fail -/
def Job.Spares (r : Registration) : Job → Prop
  | .ask (.unsubscribe q) => q ≠ r
  | .deliver o => o.first.Spares r
  | _ => True

instance (r : Registration) : (j : Job) → Decidable (j.Keeps r)
  | .ask (.unsubscribe q) => inferInstanceAs (Decidable (q ≠ r))
  | .deliver _ => .isTrue trivial
  | .ask .subscribe => .isTrue trivial
  | .ask (.ingest _) => .isTrue trivial

instance (r : Registration) : (j : Job) → Decidable (j.Spares r)
  | .ask (.unsubscribe q) => inferInstanceAs (Decidable (q ≠ r))
  | .deliver o => inferInstanceAs (Decidable (o.first.Spares r))
  | .ask .subscribe => .isTrue trivial
  | .ask (.ingest _) => .isTrue trivial

theorem spares_of_mem_rest {r : Registration} {o : Traffic.Operation Notification}
    (h : o.first.Spares r) {t : Traffic Notification Call} {m : Traffic.Move Notification}
    (hm : m ∈ o.rest t) : m.Spares r := by
  cases o with
  | settle q outcome =>
    cases outcome with
    | none => cases hm
    | some failure =>
      obtain rfl := List.mem_singleton.1 (List.mem_ite_nil_right.1 hm).2
      exact h
  | enqueue c =>
    obtain ⟨q, -, rfl⟩ := List.mem_map.1 hm
    trivial
  | poll q =>
    obtain rfl := List.mem_singleton.1 (List.mem_ite_nil_right.1 hm).2
    trivial
  | register initial => cases hm
  | remove q => cases hm
  | call q => cases hm
  | note events => cases hm

theorem Job.Spares.moves {r : Registration} (h : j.Spares r) (a : Activity) :
    ∀ m ∈ j.moves a, m.Spares r := by
  intro m hm
  match j with
  | .ask .subscribe =>
    obtain rfl := List.mem_singleton.1 hm
    trivial
  | .ask (.unsubscribe q) =>
    obtain rfl := List.mem_singleton.1 hm
    exact h
  | .ask (.ingest u) =>
    rcases List.mem_cons.1 hm with rfl | hm
    · trivial
    · rcases hs : a.service.accept u with ⟨_ | d, s⟩
      · rw [hs] at hm
        cases hm
      · rw [hs] at hm
        obtain rfl | ⟨q, rfl⟩ := mem_sends hm
        · trivial
        · trivial
  | .deliver o =>
    obtain ⟨k, hk, rfl⟩ := List.mem_map.1 hm
    rcases List.mem_cons.1 hk with rfl | hk
    · exact h
    · exact spares_of_mem_rest h hk

theorem spares_movesOf {r : Registration} {jobs : List Job} (h : ∀ j ∈ jobs, j.Spares r)
    (hb : a.performAll jobs = some b) : ∀ m ∈ a.movesOf jobs, m.Spares r := by
  induction jobs generalizing a with
  | nil => simp [movesOf]
  | cons j rest ih =>
    obtain ⟨c, hc, hr⟩ := performAll_cons hb
    rw [movesOf_cons hc]
    intro m hm
    rcases List.mem_append.1 hm with hm | hm
    · exact (h j List.mem_cons_self).moves a m hm
    · exact ih (fun k hk => h k (List.mem_cons_of_mem j hk)) hr m hm

/-! ## an observer that may fail -/

/-- the registration is not removed; by `ends`, given the calls that it has received, a callback of it
goes on or fails -/
def Job.Heeds (ends : List Call → Option Failure) (a : Activity) (r : Registration) : Job → Prop
  | .ask (.unsubscribe q) => q ≠ r
  | .deliver o => a.traffic.Heeds ends r o.first
  | _ => True

def Conforms (ends : List Call → Option Failure) (r : Registration) : Activity → List Job → Prop
  | _, [] => True
  | a, j :: rest => j.Heeds ends a r ∧ ∀ b ∈ a.perform j, Conforms ends r b rest

section
variable {ends : List Call → Option Failure} {r : Registration} {l k : List Job}

theorem Conforms.append (hl : a.Conforms ends r l) (hb : a.performAll l = some b)
    (hk : b.Conforms ends r k) : a.Conforms ends r (l ++ k) := by
  induction l generalizing a with
  | nil =>
    obtain rfl := Option.some.inj hb
    exact hk
  | cons j l ih =>
    obtain ⟨c, hc, hr⟩ := performAll_cons hb
    refine ⟨hl.1, fun d hd => ?_⟩
    obtain rfl := Option.some.inj (hc.symm.trans hd)
    exact ih (hl.2 c hc) hr

theorem conforms_of_forall (h : ∀ j ∈ l, ∀ c : Activity, j.Heeds ends c r) :
    a.Conforms ends r l := by
  induction l generalizing a with
  | nil => trivial
  | cons j l ih =>
    exact ⟨h j List.mem_cons_self a, fun b _ => ih fun k hk => h k (List.mem_cons_of_mem j hk)⟩

/-- an observer that never fails -/
theorem Conforms.spares (h : a.Conforms ends r l) (hn : ∀ received, ends received = none)
    (hb : a.performAll l = some b) : ∀ j ∈ l, j.Spares r := by
  induction l generalizing a with
  | nil => simp
  | cons j l ih =>
    obtain ⟨c, hc, hr⟩ := performAll_cons hb
    refine List.forall_mem_cons.2 ⟨?_, ih (h.2 c hc) hr⟩
    have hj := h.1
    match j, hj with
    | .ask .subscribe, _ => trivial
    | .ask (.unsubscribe q), hj => exact hj
    | .ask (.ingest u), _ => trivial
    | .deliver (.settle q (some failure)), hj =>
      rintro rfl
      rw [Job.Heeds, Traffic.Operation.first, Traffic.Heeds, hn] at hj
      cases hj rfl
    | .deliver (.settle q none), _ => trivial
    | .deliver (.poll q), _ => trivial
    | .deliver (.call q), _ => trivial
    | .deliver (.register initial), _ => trivial
    | .deliver (.remove q), hj => exact hj
    | .deliver (.enqueue c), _ => trivial
    | .deliver (.note events), _ => trivial

end

/-! ## an observer that comes in -/

/-- an observer that comes in where nothing but jobs is done -/
structure Stay (policy : FailurePolicy) where
  before : List Job
  opening : Activity
  later : List Job
  now : Activity
  reached : (start policy).performAll before = some opening
  performed : opening.performAll (.subscribe :: later) = some now

namespace Stay

variable {policy : FailurePolicy} (v : Stay policy)

def registration : Registration := v.opening.service.subscribe.1

def received : List Call := v.now.received v.registration

/-- the updates that were handed in before the observer came, and those since then -/
def earlier : List Update := v.before.flatMap Job.updates

def updates : List Update := v.later.flatMap Job.updates

/-- the service when the observer has just come in -/
def opened : Activity := v.opening.withService v.opening.service.subscribe.2

theorem isFree_opening : v.opening.IsFree := ((isFree_start policy).run_movesOf v.reached).2

theorem isFree_now : v.now.IsFree := (v.isFree_opening.run_movesOf v.performed).2

/-- the same observer among the moves -/
theorem run_before : (start policy).run ((start policy).movesOf v.before) = some v.opening :=
  ((isFree_start policy).run_movesOf v.reached).1

theorem run_later : v.opening.run (.subscribe :: v.opened.movesOf v.later) = some v.now :=
  (v.isFree_opening.run_movesOf v.performed).1

theorem performed_later : v.opened.performAll v.later = some v.now := v.performed

theorem ingested_before : ingested ((start policy).movesOf v.before) = v.earlier :=
  ingested_movesOf v.reached

theorem ingested_later : ingested (v.opened.movesOf v.later) = v.updates :=
  ingested_movesOf v.performed_later

end Stay

end Activity

end OverlayWatch
