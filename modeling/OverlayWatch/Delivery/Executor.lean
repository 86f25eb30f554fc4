import OverlayWatch.Fault
import OverlayWatch.Registration

/-!
# Executors

An executor is handed drain tasks, one for a registration at a time, and takes each in or refuses
it.  The tasks it has taken in and not finished are kept in the order in which they came; nothing
says in which order or when they run.

* `accepts`   whether a task of a registration would be taken in now;
* `submit`    takes a task in;
* `finish`    a task has ended.
-/

namespace OverlayWatch

structure Executor where
  accepts : Registration → Bool
  tasks : List Registration

namespace Executor

/-- takes in every task -/
def accepting : Executor := ⟨fun _ => true, []⟩

def submit (e : Executor) (r : Registration) : Executor := { e with tasks := e.tasks ++ [r] }

def finish (e : Executor) (r : Registration) : Executor := { e with tasks := e.tasks.erase r }

/-- from now on no task is taken in; those that were stay -/
def close (e : Executor) : Executor := { e with accepts := fun _ => false }

def reopen (e : Executor) : Executor := { e with accepts := fun _ => true }

/-- the tasks are thrown away without being run -/
def dropTasks (e : Executor) : Executor := { e with tasks := [] }

theorem tasks_submit (e : Executor) (r : Registration) : (e.submit r).tasks = e.tasks ++ [r] := rfl
theorem tasks_finish (e : Executor) (r : Registration) : (e.finish r).tasks = e.tasks.erase r := rfl
theorem tasks_close (e : Executor) : e.close.tasks = e.tasks := rfl

/-- what a refusal says -/
def refusal : PoolFault := .stopped

end Executor

end OverlayWatch
