import OverlayWatch.Service
import OverlayWatch.Trace

/-!
# Replaying a trace

The steps of a trace are handed to a service in their order.  A topology step is turned into the
change that leads from the service's reachable set to the recorded one.

* `Step.update`          the update that a step stands for;
* `Service.replayStep`   one step;
* `Trace.replay`         all steps, up to the first that is refused; the number of steps if none is.
-/

namespace OverlayWatch

def Service.note (s : Service) (event : Event) : Service :=
  { s with delivery := s.delivery.note event }

/-- the update that a step stands for when these nodes are reachable -/
def Step.update (reachable : NodeSet) : Step → Update
  | .properties batch => .batch batch
  | .topology next => .topology (.between reachable next)

def Update.replaying (index : Nat) : Update → Event
  | .batch events => .replayingBatch index events.length
  | .topology change => .replayingTopology index change.added.size change.removed.size

def Service.replayStep (s : Service) (index : Nat) (step : Step) : Except TopologyFault Unit × Service :=
  let u := step.update s.reachableNodes
  (s.note (u.replaying index)).ingest u

/-- the steps from the one at `index` on -/
def Service.replayFrom (s : Service) (index : Nat) : List Step → Except TopologyFault Nat × Service
  | [] => (.ok index, s)
  | step :: rest =>
    match s.replayStep index step with
    | (.ok (), s) => s.replayFrom (index + 1) rest
    | (.error fault, s) => (.error fault, s)

def Trace.replay (t : Trace) (s : Service) : Except TopologyFault Nat × Service :=
  s.replayFrom 0 t.steps

theorem Trace.replay_nil (s : Service) : Trace.replay ⟨[]⟩ s = (.ok 0, s) := rfl

end OverlayWatch
