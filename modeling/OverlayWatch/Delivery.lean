import OverlayWatch.Delivery.Executor
import OverlayWatch.Listener
import OverlayWatch.Log.Event

/-!
# Ordered delivery of callbacks

Every callback handed in is queued for each listener registered at that time.  Each registration has
a slot with a queue of its own, and at most one task that drains it: a task is handed to the executor
when a callback arrives at a slot that has none, and it goes on until the queue is empty.  So the
calls of one listener never overlap and keep their order, whatever the executor does with the tasks.

* `Delivery.register`   a new slot, with a first callback or none;
* `Delivery.enqueue`    a callback for everyone registered;
* `Delivery.remove`     cancels a registration: what is still queued for it is dropped;
* `Delivery.look`       a drain task looks whether its registration is cancelled, and ends if it is;
* `Delivery.pop`        it takes the next callback out of the queue, and ends if there is none;
* `Delivery.poll`       the two in a row: the task asks for its next callback;
* `Delivery.fail`       a callback that has been run has failed;
* `Delivery.settle`     the same, and the listener is cancelled for it at once if the policy says so.

A slot stays after its registration is cancelled, because a task that drains it may still be out.
`poll` and `settle` are what happens when nobody else is at work: a task has its queue locked from
`look` to `pop`, but a removal does not wait for that, and nothing is locked between a failure and the
cancelling that follows it.
-/

namespace OverlayWatch

inductive FailurePolicy where
  /-- a listener that fails gets nothing more -/
  | cancel
  /-- a failure is logged and nothing else -/
  | proceed
deriving DecidableEq, Repr

structure Slot (κ : Type) where
  pending : List κ
  /-- a drain task of this slot is with the executor -/
  draining : Bool
  cancelled : Bool
deriving DecidableEq, Repr

def Slot.fresh {κ : Type} : Slot κ := ⟨[], false, false⟩

structure Delivery (κ : Type) where
  policy : FailurePolicy
  /-- how many registrations have been given out -/
  issued : Nat
  slots : Std.ExtTreeMap Registration (Slot κ)
  executor : Executor
  journal : List Event

namespace Delivery

variable {κ : Type}

def empty (policy : FailurePolicy) : Delivery κ := ⟨policy, 0, ∅, .accepting, []⟩

def note (d : Delivery κ) (event : Event) : Delivery κ := { d with journal := d.journal ++ [event] }

def noteAll (d : Delivery κ) (events : List Event) : Delivery κ :=
  { d with journal := d.journal ++ events }

def setSlot (d : Delivery κ) (r : Registration) (slot : Slot κ) : Delivery κ :=
  { d with slots := d.slots.insert r slot }

theorem getElem?_slots_setSlot_self (d : Delivery κ) (r : Registration) (slot : Slot κ) :
    (d.setSlot r slot).slots[r]? = some slot := by
  simp [setSlot]

theorem getElem?_slots_setSlot_of_ne {d : Delivery κ} {r other : Registration} {slot : Slot κ}
    (h : r ≠ other) : (d.setSlot r slot).slots[other]? = d.slots[other]? := by
  simp [setSlot, Std.ExtTreeMap.getElem?_insert, h]

/-! ## queries -/

def isRegistered (d : Delivery κ) (r : Registration) : Bool :=
  d.slots[r]?.any fun slot => !slot.cancelled

/-- the registrations that are not cancelled, in order -/
def registered (d : Delivery κ) : List Registration :=
  (d.slots.toList.filter fun entry => !entry.2.cancelled).map Prod.fst

theorem mem_registered {d : Delivery κ} {r : Registration} :
    r ∈ d.registered ↔ d.isRegistered r = true := by
  simp only [registered, isRegistered, List.mem_map, List.mem_filter, Option.any_eq_true]
  constructor
  · rintro ⟨e, ⟨h, hc⟩, rfl⟩
    exact ⟨e.2, Std.ExtTreeMap.mem_toList_iff_getElem?_eq_some.1 h, hc⟩
  · rintro ⟨slot, h, hc⟩
    exact ⟨(r, slot), ⟨Std.ExtTreeMap.mem_toList_iff_getElem?_eq_some.2 h, hc⟩, rfl⟩

def listenerCount (d : Delivery κ) : Nat := d.registered.length

/-- the callbacks still queued and the tasks still out: a bound on the turns to come when nothing
is added -/
def backlog (d : Delivery κ) : Nat :=
  d.slots.foldl (fun n _ slot => n + slot.pending.length) d.executor.tasks.length

/-! ## queueing -/

/-- when the executor refuses the task, nobody would ever drain the queue, and it is dropped -/
def push (d : Delivery κ) (c : κ) (r : Registration) : Delivery κ :=
  match d.slots[r]? with
  | none => d
  | some slot =>
    let pending := slot.pending ++ [c]
    if slot.draining then d.setSlot r { slot with pending }
    else if d.executor.accepts r then
      { d.setSlot r { slot with pending, draining := true } with executor := d.executor.submit r }
    else
      (d.setSlot r { slot with pending := [] }).note
        (.notScheduled r pending.length Executor.refusal.message)

def register (d : Delivery κ) (initial : Option κ) : Registration × Delivery κ :=
  let r : Registration := ⟨d.issued + 1⟩
  let opened := { d.setSlot r .fresh with issued := d.issued + 1 }
  let queued := match initial with
    | none => opened
    | some c => opened.push c r
  (r, queued.note (.registered r))

def enqueue (d : Delivery κ) (c : κ) : Delivery κ := d.registered.foldl (push · c) d

/-! ## cancelling -/

def cancel (d : Delivery κ) (r : Registration) : Delivery κ :=
  match d.slots[r]? with
  | none => d
  | some slot => d.setSlot r { slot with cancelled := true }

/-- says whether there was anything to remove -/
def remove (d : Delivery κ) (r : Registration) : Bool × Delivery κ :=
  if d.isRegistered r then (true, (d.cancel r).note (.unregistered r)) else (false, d)

/-! ## draining -/

/-- the drain task of the slot ends -/
def endTask (d : Delivery κ) (r : Registration) (slot : Slot κ) : Delivery κ :=
  { d.setSlot r { slot with pending := [], draining := false } with executor := d.executor.finish r }

/-- says whether the task goes on -/
def look (d : Delivery κ) (r : Registration) : Bool × Delivery κ :=
  match d.slots[r]? with
  | none => (false, d)
  | some slot => if slot.cancelled then (false, d.endTask r slot) else (true, d)

def pop (d : Delivery κ) (r : Registration) : Option κ × Delivery κ :=
  match d.slots[r]? with
  | none => (none, d)
  | some slot =>
    match slot.pending with
    | [] => (none, d.endTask r slot)
    | c :: rest => (some c, d.setSlot r { slot with pending := rest })

def poll (d : Delivery κ) (r : Registration) : Option κ × Delivery κ :=
  let (goesOn, looked) := d.look r
  if goesOn then looked.pop r else (none, looked)

def fail (d : Delivery κ) (r : Registration) (failure : Failure) : Delivery κ :=
  d.note (.callbackFailed r failure.message (d.policy = .cancel))

def settle (d : Delivery κ) (r : Registration) : Option Failure → Delivery κ
  | none => d
  | some failure =>
    let failed := d.fail r failure
    if d.policy = .cancel then failed.cancel r else failed

end Delivery

end OverlayWatch
