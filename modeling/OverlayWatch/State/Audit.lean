import OverlayWatch.State

/-!
# Auditing the derived parts

The visible properties and the maps shown follow from the store and the reachable nodes.  The audit
works them out anew and compares; it names the first thing that differs.

* `Discrepancy`   what differs;
* `State.audit`   the first discrepancy, if there is one.
-/

namespace OverlayWatch

namespace State

inductive Discrepancy where
  | visibleDiffers (held implied : Nat)
  | shownUnreachable (node : NodeId)
  | staleMap (node : NodeId)
  | missingMap (node : NodeId)
deriving DecidableEq, Repr

def Discrepancy.detail : Discrepancy → String
  | .visibleDiffers held implied =>
    "reachable property set has " ++ toString held ++ " entries, store implies " ++ toString implied
  | .shownUnreachable node => "unreachable node " ++ node.name ++ " has a reachable value map"
  | .staleMap node => "reachable value map of " ++ node.name ++ " is stale"
  | .missingMap node => "reachable node " ++ node.name ++ " has no value map"

def Discrepancy.stateFault (d : Discrepancy) : StateFault := .invariantViolated d.detail

def auditVisible (s : State) : Option Discrepancy :=
  let implied := s.store.propertiesOf s.reachable
  if implied = s.visible then none else some (.visibleDiffers s.visible.size implied.size)

def auditShown (s : State) (entry : NodeId × ValueMap) : Option Discrepancy :=
  if entry.1 ∉ s.reachable then some (.shownUnreachable entry.1)
  else if entry.2 ≠ s.store.valueMap entry.1 then some (.staleMap entry.1)
  else none

def auditNode (s : State) (node : NodeId) : Option Discrepancy :=
  if ¬ (s.store.properties node).isEmpty ∧ node ∉ s.views.reachable then some (.missingMap node)
  else none

/-- the first discrepancy found, if any -/
def audit (s : State) : Option Discrepancy :=
  s.auditVisible <|> s.views.reachable.toList.findSome? s.auditShown <|>
    s.reachable.toList.findSome? s.auditNode

end State

end OverlayWatch
