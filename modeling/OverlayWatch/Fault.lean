import OverlayWatch.Text.Quoted

/-!
# Why something is refused

Faults come in layers: what a feed may hand in, what the state finds wrong, what the notification
pool refuses, and all of them again as seen from the service.  Each layer puts its own words in
front of the cause.

* `InputFault`, `StateFault`, `PoolFault`, `ServiceFault`   the layers;
* `message`                                                 the text of a fault, causes included;
* `ServiceFault.chain`                                      the texts from the outermost layer in.
-/

namespace OverlayWatch

inductive InputFault where
  | invalidNodeId (text : String)
  | malformedTopology (detail : String)
deriving DecidableEq, Repr

inductive StateFault where
  | rejected (cause : InputFault)
  | invariantViolated (detail : String)
deriving DecidableEq, Repr

inductive PoolFault where
  | stopped
  | invalidSettings (detail : String)
  | runtime (reason : String)
deriving DecidableEq, Repr

inductive ServiceFault where
  | state (cause : StateFault)
  | notification (cause : PoolFault)
  | invalidConfig (detail : String)
deriving DecidableEq, Repr

/-! ## texts -/

/-- a refused id is quoted as it was given, blanks included -/
def InputFault.message : InputFault → String
  | .invalidNodeId text => "Invalid node ID: " ++ Text.quote text
  | .malformedTopology detail => "Malformed topology delta: " ++ detail

def StateFault.message : StateFault → String
  | .rejected cause => "Rejected update: " ++ cause.message
  | .invariantViolated detail => "State invariant violated: " ++ detail

def PoolFault.message : PoolFault → String
  | .stopped => "Worker pool is stopped"
  | .invalidSettings detail => "Invalid worker pool configuration: " ++ detail
  | .runtime reason => "Failed to build worker runtime: " ++ reason

def ServiceFault.message : ServiceFault → String
  | .state cause => "State error: " ++ cause.message
  | .notification cause => "Notification error: " ++ cause.message
  | .invalidConfig detail => "Invalid configuration: " ++ detail

/-! ## causes -/

def StateFault.chain : StateFault → List String
  | .rejected cause => [(StateFault.rejected cause).message, cause.message]
  | .invariantViolated detail => [(StateFault.invariantViolated detail).message]

def PoolFault.chain : PoolFault → List String
  | .runtime reason => [(PoolFault.runtime reason).message, reason]
  | fault => [fault.message]

def ServiceFault.chain : ServiceFault → List String
  | .state cause => (ServiceFault.state cause).message :: cause.chain
  | .notification cause => (ServiceFault.notification cause).message :: cause.chain
  | .invalidConfig detail => [(ServiceFault.invalidConfig detail).message]

theorem ServiceFault.head?_chain (fault : ServiceFault) : fault.chain.head? = some fault.message := by
  cases fault <;> rfl

end OverlayWatch
