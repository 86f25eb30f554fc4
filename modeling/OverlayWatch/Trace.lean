import OverlayWatch.Property
import OverlayWatch.Topology

/-!
# Traces

A trace is a recording of what the feeds handed in: batches of properties, and the reachable set
after each topology change.  What came and went with a change is not recorded; it follows from the
set that is reachable when the trace is replayed.
-/

namespace OverlayWatch

inductive Step where
  | properties (batch : List Property)
  | topology (reachable : NodeSet)
deriving DecidableEq

structure Trace where
  steps : List Step
deriving DecidableEq

end OverlayWatch
