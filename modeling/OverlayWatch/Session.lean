import OverlayWatch.Delivery

/-!
# Sessions: a notifier and its listeners

A session puts listeners behind the registrations of a notifier and runs its drain tasks.  Listeners
go by name; one listener may stand behind several registrations, and remembers all calls it has had.

* `Notifier`          something that delivers callbacks and takes requests from its listeners;
* `Audience`          who is listening, and what each has heard;
* `Session.join`      a listener comes in;
* `Session.turnOf`    one turn of the drain task of a registration: one callback, start to end;
* `Session.run`       the tasks in the order in which the executor was handed them.

A callback is one call or several; the first failing call ends it.
-/

namespace OverlayWatch

class Notifier (μ : Type) (κ γ ρ : outParam Type) where
  delivery : μ → Delivery κ
  withDelivery : μ → Delivery κ → μ
  /-- the calls that a callback consists of -/
  calls : κ → List γ
  /-- what the notifier does at a listener's request -/
  perform : μ → ρ → μ

/-! ## the audience -/

structure Audience (γ ρ : Type) where
  behaviours : Std.ExtTreeMap String (Behaviour γ ρ)
  seats : Std.ExtTreeMap Registration String
  heard : Std.ExtTreeMap String (List γ)

namespace Audience

variable {γ ρ : Type}

def empty : Audience γ ρ := ⟨∅, ∅, ∅⟩

def contains (a : Audience γ ρ) (name : String) : Bool := a.behaviours.contains name

/-- a listener keeps the behaviour it came with -/
def welcome (a : Audience γ ρ) (name : String) (behaviour : Behaviour γ ρ) : Audience γ ρ :=
  { a with behaviours := a.behaviours.insertIfNew name behaviour }

def seat (a : Audience γ ρ) (r : Registration) (name : String) : Audience γ ρ :=
  { a with seats := a.seats.insert r name }

def heardBy (a : Audience γ ρ) (name : String) : List γ := a.heard.getD name []

def hear (a : Audience γ ρ) (name : String) (call : γ) : Reaction ρ × Audience γ ρ :=
  let calls := a.heardBy name ++ [call]
  let reaction := match a.behaviours[name]? with
    | some behaviour => behaviour calls
    | none => .quiet
  (reaction, { a with heard := a.heard.insert name calls })

end Audience

/-! ## sessions -/

structure Session (μ γ ρ : Type) where
  host : μ
  audience : Audience γ ρ

namespace Session

variable {μ κ γ ρ : Type}

def start (host : μ) : Session μ γ ρ := ⟨host, .empty⟩

/-- does something at the notifier -/
def act (s : Session μ γ ρ) (f : μ → μ) : Session μ γ ρ := { s with host := f s.host }

/-- a listener comes in: it is put behind the registration that it is given -/
def join (s : Session μ γ ρ) (name : String) (behaviour : Behaviour γ ρ)
    (register : μ → Registration × μ) : Registration × Session μ γ ρ :=
  let (r, host) := register s.host
  (r, ⟨host, (s.audience.welcome name behaviour).seat r name⟩)

variable [Notifier μ κ γ ρ]

def delivery (s : Session μ γ ρ) : Delivery κ := Notifier.delivery s.host

def withDelivery (s : Session μ γ ρ) (d : Delivery κ) : Session μ γ ρ :=
  { s with host := Notifier.withDelivery s.host d }

def onDelivery (s : Session μ γ ρ) (f : Delivery κ → Delivery κ) : Session μ γ ρ :=
  s.withDelivery (f s.delivery)

def onExecutor (s : Session μ γ ρ) (f : Executor → Executor) : Session μ γ ρ :=
  s.onDelivery fun d => { d with executor := f d.executor }

/-- the events since the journal was last taken -/
def takeJournal (s : Session μ γ ρ) : List Event × Session μ γ ρ :=
  (s.delivery.journal, s.onDelivery fun d => { d with journal := [] })

/-- the calls of one callback, up to the first that fails -/
def makeCalls (s : Session μ γ ρ) (name : String) : List γ → Option Failure × Session μ γ ρ
  | [] => (none, s)
  | call :: rest =>
    let (reaction, audience) := s.audience.hear name call
    let after : Session μ γ ρ := ⟨reaction.requests.foldl Notifier.perform s.host, audience⟩
    match reaction.failure with
    | some failure => (some failure, after)
    | none => after.makeCalls name rest

def turnOf (s : Session μ γ ρ) (r : Registration) : Session μ γ ρ :=
  match s.delivery.poll r with
  | (none, d) => s.withDelivery d
  | (some c, d) =>
    let name := s.audience.seats.getD r ""
    let (failure, after) := (s.withDelivery d).makeCalls name (Notifier.calls μ c)
    after.onDelivery fun d => d.settle r failure

/-- a turn of the task that has waited longest -/
def turn (s : Session μ γ ρ) : Session μ γ ρ :=
  match s.delivery.executor.tasks with
  | [] => s
  | r :: _ => s.turnOf r

/-- turns until no task is left, but not more than `limit` -/
def run : Nat → Session μ γ ρ → Session μ γ ρ
  | 0, s => s
  | limit + 1, s => if s.delivery.executor.tasks.isEmpty then s else run limit s.turn

/-- enough for listeners that ask for nothing: every turn works the backlog off by one -/
def drain (s : Session μ γ ρ) : Session μ γ ρ := s.run s.delivery.backlog

end Session

/-! ## a delivery by itself -/

/-- what a listener may ask of a plain delivery -/
inductive DeliveryRequest (κ : Type) where
  | remove (r : Registration)
  | enqueue (c : κ)

instance {κ : Type} : Notifier (Delivery κ) κ κ (DeliveryRequest κ) where
  delivery d := d
  withDelivery _ d := d
  calls c := [c]
  perform d
    | .remove r => (d.remove r).2
    | .enqueue c => d.enqueue c

end OverlayWatch
