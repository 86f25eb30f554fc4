import OverlayWatch.Log.Event
import OverlayWatch.State

/-!
# Updates

What the feeds hand in is a sequence of updates: batches of properties and topology changes.

* `State.update`     takes one in, or refuses it;
* `State.advance`    the state afterwards, which for a refused one is the state before;
* `State.after`      the state after a sequence of updates, from the empty state on;
* `Update.report`    what is logged of an update.
-/

namespace OverlayWatch

inductive Update where
  | batch (events : List Property)
  | topology (change : TopologyChange)
deriving DecidableEq

/-- what is logged is how many properties came and went, if any did -/
def Update.report (u : Update) (d : Delta) : List Event :=
  d.change.toList.map fun c =>
    match u with
    | .batch _ => .batchReported c.added.size c.updated.size c.removed.size
    | .topology _ => .topologyReported c.removed.size c.added.size

namespace State

/-- only a topology change can be refused -/
def update (s : State) : Update → Except TopologyFault (Delta × State)
  | .batch events => .ok (s.applyBatch events)
  | .topology change => s.applyTopology change

def advance (s : State) (u : Update) : State :=
  match s.update u with
  | .ok (_, after) => after
  | .error _ => s

def after (updates : List Update) : State := updates.foldl advance empty

theorem after_nil : after [] = empty := rfl
theorem after_append (a b : List Update) : after (a ++ b) = b.foldl advance (after a) :=
  List.foldl_append

end State

end OverlayWatch
