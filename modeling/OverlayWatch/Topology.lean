import OverlayWatch.Node

/-!
# Topology changes

The topology feed reports which nodes are reachable now, and which came and went since its last
report.  The report must fit the set that was reachable before.

* `TopologyChange.between`   the change from one set to another;
* `TopologyChange.checkWith` whether a change fits the previous set, with the first rule it breaks;
* `TopologyChange.check`     the same, where sets are gone through in the order of the ids;
* `TopologyFault`            the broken rule, with the node or the numbers that show it.
-/

namespace OverlayWatch

structure TopologyChange where
  reachable : NodeSet
  added : NodeSet
  removed : NodeSet
deriving DecidableEq

inductive TopologyFault where
  | addedAndRemoved (node : NodeId)
  | alreadyReachable (node : NodeId)
  | notReachable (node : NodeId)
  | wrongImage (reported implied : Nat)
deriving DecidableEq, Repr

def TopologyFault.detail : TopologyFault → String
  | .addedAndRemoved node => "node " ++ node.name ++ " is both added and removed"
  | .alreadyReachable node => "node " ++ node.name ++ " is added but was already reachable"
  | .notReachable node => "node " ++ node.name ++ " is removed but was not reachable"
  | .wrongImage reported implied =>
    "new reachable set has " ++ toString reported ++ " nodes, deltas imply " ++ toString implied

def TopologyFault.stateFault (fault : TopologyFault) : StateFault :=
  .rejected (.malformedTopology fault.detail)

namespace TopologyChange

def between (previous next : NodeSet) : TopologyChange := ⟨next, next \ previous, previous \ next⟩

theorem mem_added_between {previous next : NodeSet} {node : NodeId} :
    node ∈ (between previous next).added ↔ node ∈ next ∧ node ∉ previous := by
  simp [between]

theorem mem_removed_between {previous next : NodeSet} {node : NodeId} :
    node ∈ (between previous next).removed ↔ node ∈ previous ∧ node ∉ next := by
  simp [between]

def isEmpty (c : TopologyChange) : Bool := c.added.isEmpty && c.removed.isEmpty

/-- the reachable set that the reported deltas lead to -/
def implied (previous : NodeSet) (c : TopologyChange) : NodeSet := (previous \ c.removed) ∪ c.added

theorem mem_implied {previous : NodeSet} {c : TopologyChange} {node : NodeId} :
    node ∈ c.implied previous ↔ (node ∈ previous ∧ node ∉ c.removed) ∨ node ∈ c.added := by
  simp [implied]

/-- of the nodes that break a rule the one that is come across first is named -/
def checkWith (pick : NodeSet.Pick) (previous : NodeSet) (c : TopologyChange) :
    Except TopologyFault Unit :=
  match pick.first? (c.added ∩ c.removed), pick.first? (c.added ∩ previous),
    pick.first? (c.removed \ previous) with
  | some node, _, _ => .error (.addedAndRemoved node)
  | none, some node, _ => .error (.alreadyReachable node)
  | none, none, some node => .error (.notReachable node)
  | none, none, none =>
    if c.reachable = c.implied previous then .ok ()
    else .error (.wrongImage c.reachable.size (c.implied previous).size)

def check (previous : NodeSet) (c : TopologyChange) : Except TopologyFault Unit :=
  c.checkWith .least previous

end TopologyChange

end OverlayWatch
