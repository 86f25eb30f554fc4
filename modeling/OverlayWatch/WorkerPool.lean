import OverlayWatch.Fault
import OverlayWatch.Log.Event

/-!
# Worker pools

A pool takes in tasks until it is stopped.  It runs on a runtime of its own, which it gives up when
it stops, or on one that it has borrowed.

* `PoolSettings`       threads, patience at the end, thread names;
* `PoolSettings.canNameThreads`   whether threads can have the name;
* `WorkerPool.startOn`   a running pool with its own runtime, if the settings allow one and it can be built;
* `WorkerPool.start`   the same where runtimes can always be built;
* `WorkerPool.stop`    no more tasks; stopping again changes nothing.
-/

namespace OverlayWatch

structure PoolSettings where
  maxThreads : Nat
  shutdownMs : Nat
  threadName : String
deriving DecidableEq, Repr

namespace PoolSettings

def default : PoolSettings := ⟨64, 5000, "nodeprops-notify"⟩

def check (settings : PoolSettings) : Except PoolFault Unit :=
  if settings.maxThreads = 0 then
    .error (.invalidSettings "max_callback_threads must be at least 1")
  else .ok ()

theorem check_eq_ok_iff (settings : PoolSettings) :
    settings.check = .ok () ↔ 1 ≤ settings.maxThreads := by
  unfold check
  split <;> simp <;> omega

/-- no thread can have a name with a NUL in it -/
def canNameThreads (settings : PoolSettings) : Bool := !settings.threadName.contains '\x00'

end PoolSettings

structure WorkerPool where
  ownsRuntime : Bool
  running : Bool
deriving DecidableEq, Repr

namespace WorkerPool

/-- nothing is built before the settings have been checked; `build` may tell why it cannot -/
def startOn (build : PoolSettings → Except String Unit) (settings : PoolSettings) :
    Except PoolFault WorkerPool := do
  settings.check
  ((build settings).mapError .runtime).map fun _ => ⟨true, true⟩

def start (settings : PoolSettings) : Except PoolFault WorkerPool := startOn (fun _ => .ok ()) settings

theorem startOn_of_check {settings : PoolSettings} (h : settings.check = .ok ())
    (build : PoolSettings → Except String Unit) :
    startOn build settings = ((build settings).mapError .runtime).map fun _ => ⟨true, true⟩ := by
  rw [startOn, h]
  rfl

def borrowed : WorkerPool := ⟨false, true⟩

def stop (pool : WorkerPool) : List Event × WorkerPool :=
  (if pool.running then [.poolStopped] else [], ⟨false, false⟩)

theorem stop_stop (pool : WorkerPool) : pool.stop.2.stop = ([], pool.stop.2) := rfl

/-- runs a task, if the pool still takes any -/
def execute {α : Type} (pool : WorkerPool) (task : Unit → α) : Except PoolFault α :=
  if pool.running then .ok (task ()) else .error .stopped

def debugText (pool : WorkerPool) : String :=
  "WorkerPool \x7b owns_runtime: " ++ toString pool.ownsRuntime ++
    ", running: " ++ toString pool.running ++ " \x7d"

end WorkerPool

end OverlayWatch
