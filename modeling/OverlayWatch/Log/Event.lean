import OverlayWatch.Registration

/-!
# Events worth a log line

* `LogLevel`    from `trace` to `error`;
* `LogRecord`   level, message and named fields: what a log line shows;
* `Event`       what can happen, each kind with its numbers and texts;
* `Event.record`   how an event is logged.
-/

namespace OverlayWatch

inductive LogLevel where
  | trace | debug | info | warn | error
deriving DecidableEq, Repr

def LogLevel.name : LogLevel → String
  | .trace => "TRACE"
  | .debug => "DEBUG"
  | .info => "INFO"
  | .warn => "WARN"
  | .error => "ERROR"

inductive FieldValue where
  | count (n : Nat)
  | text (s : String)
deriving DecidableEq, Repr

structure LogRecord where
  level : LogLevel
  message : String
  fields : List (String × FieldValue)
deriving DecidableEq, Repr

inductive Event where
  /-- a batch of properties changed what observers see -/
  | batchReported (added updated removed : Nat)
  /-- a topology change changed what observers see -/
  | topologyReported (disconnected reconnected : Nat)
  | topologyRejected (error : String)
  | registered (registration : Registration)
  | unregistered (registration : Registration)
  | callbackFailed (registration : Registration) (error : String) (cancelling : Bool)
  | notScheduled (registration : Registration) (dropped : Nat) (error : String)
  | replayingBatch (step events : Nat)
  | replayingTopology (step added removed : Nat)
  | poolStopped
  | propertiesSeen (added updated removed : String)
  | valueMapSeen (node values : String)
  | nodeLost (node : String)
  /-- calls to an observer that did not come in time -/
  | undelivered (received expected : Nat)
deriving DecidableEq, Repr

open FieldValue in
def Event.record : Event → LogRecord
  | .batchReported added updated removed =>
    ⟨.debug, "Reporting node property state change",
      [("added", count added), ("updated", count updated), ("removed", count removed)]⟩
  | .topologyReported disconnected reconnected =>
    ⟨.debug, "Reporting node property state change after topology change",
      [("disconnected", count disconnected), ("reconnected", count reconnected)]⟩
  | .topologyRejected error => ⟨.warn, "Rejected topology change", [("error", text error)]⟩
  | .registered r => ⟨.debug, "Listener registered", [("registration", text r.display)]⟩
  | .unregistered r => ⟨.debug, "Listener unregistered", [("registration", text r.display)]⟩
  | .callbackFailed r error true =>
    ⟨.warn, "Listener callback failed; cancelling registration",
      [("registration", text r.display), ("error", text error)]⟩
  | .callbackFailed r error false =>
    ⟨.warn, "Listener callback failed", [("registration", text r.display), ("error", text error)]⟩
  | .notScheduled r dropped error =>
    ⟨.error, "Could not schedule listener callbacks",
      [("registration", text r.display), ("dropped", count dropped), ("error", text error)]⟩
  | .replayingBatch step events =>
    ⟨.debug, "Replaying property batch", [("step", count step), ("events", count events)]⟩
  | .replayingTopology step added removed =>
    ⟨.debug, "Replaying topology change",
      [("step", count step), ("added", count added), ("removed", count removed)]⟩
  | .poolStopped => ⟨.info, "Notification worker pool stopped", []⟩
  | .propertiesSeen added updated removed =>
    ⟨.info, "Reachable node properties changed",
      [("added", text added), ("updated", text updated), ("removed", text removed)]⟩
  | .valueMapSeen node values =>
    ⟨.info, "Node value map changed", [("node", text node), ("values", text values)]⟩
  | .nodeLost node => ⟨.info, "Node no longer reachable", [("node", text node)]⟩
  | .undelivered received expected =>
    ⟨.warn, "Not all notifications were delivered in time",
      [("received", count received), ("expected", count expected)]⟩

end OverlayWatch
