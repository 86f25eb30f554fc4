import OverlayWatch.Session
import OverlayWatch.State.Audit
import OverlayWatch.State.Update

/-!
# The service

The service feeds announcements and topology changes to the state and tells observers what changed.
An update's notifications are queued before the next update is taken in, so all observers see the
updates in one order, and a new observer starts from a snapshot that the later notifications continue.

* `Service.subscribe`       a new observer; the snapshot is its first callback;
* `Service.unsubscribe`     it gets nothing more;
* `Service.accept`          an update is taken in or refused; nothing is sent out yet;
* `Service.publish`         the notifications of an update are sent out;
* `Service.ingest`          an update from one of the feeds, from start to end;
* `Stats`                   what was taken in and what was sent out.

A snapshot is one callback of two calls; the changes and the maps of a later update are a callback
each.
-/

namespace OverlayWatch

/-- what an observer is told by one call -/
inductive Call where
  | properties (change : PropertyChange)
  | valueMaps (maps : MapDelta)
deriving DecidableEq

inductive Notification where
  | snapshot (change : PropertyChange) (maps : MapDelta)
  | properties (change : PropertyChange)
  | valueMaps (maps : MapDelta)
deriving DecidableEq

def Notification.calls : Notification → List Call
  | .snapshot change maps => [.properties change, .valueMaps maps]
  | .properties change => [.properties change]
  | .valueMaps maps => [.valueMaps maps]

/-- what is sent out for an update: nothing, the maps, or the changes and then the maps -/
def Delta.notifications (d : Delta) : List Notification :=
  d.change.toList.map .properties ++ (if d.maps.isEmpty then [] else [.valueMaps d.maps])

/-! ## counters -/

structure Stats where
  rawBatches : Nat
  topologyChanges : Nat
  rejectedTopologyChanges : Nat
  propertyNotifications : Nat
  valueMapNotifications : Nat
deriving DecidableEq, Repr

namespace Stats

def zero : Stats := ⟨0, 0, 0, 0, 0⟩

def addTaken (s : Stats) : Update → Stats
  | .batch _ => { s with rawBatches := s.rawBatches + 1 }
  | .topology _ => { s with topologyChanges := s.topologyChanges + 1 }

def addRejected (s : Stats) : Stats :=
  { s with rejectedTopologyChanges := s.rejectedTopologyChanges + 1 }

def addSent (s : Stats) : Notification → Stats
  | .snapshot _ _ => s
  | .properties _ => { s with propertyNotifications := s.propertyNotifications + 1 }
  | .valueMaps _ => { s with valueMapNotifications := s.valueMapNotifications + 1 }

/-- name and value of each counter -/
def entries (s : Stats) : List (String × Nat) :=
  [("raw_batches", s.rawBatches), ("topology_changes", s.topologyChanges),
    ("rejected_topology_changes", s.rejectedTopologyChanges),
    ("property_notifications", s.propertyNotifications),
    ("value_map_notifications", s.valueMapNotifications)]

/-- the calls that a sole observer, there from the start, is to be made: the two of its snapshot and
one for every notification -/
def expectedCalls (s : Stats) : Nat := s.propertyNotifications + s.valueMapNotifications + 2

end Stats

/-! ## the service -/

structure Service where
  state : State
  stats : Stats
  delivery : Delivery Notification

namespace Service

def start (policy : FailurePolicy) : Service := ⟨.empty, .zero, .empty policy⟩

def subscribe (s : Service) : Registration × Service :=
  let (change, maps) := s.state.snapshot
  let (r, delivery) := s.delivery.register (some (.snapshot change maps))
  (r, { s with delivery })

def unsubscribe (s : Service) (r : Registration) : Bool × Service :=
  let (removed, delivery) := s.delivery.remove r
  (removed, { s with delivery })

def countSent (s : Service) (n : Notification) : Service := { s with stats := s.stats.addSent n }

/-- counts a notification and queues it for every observer -/
def send (s : Service) (n : Notification) : Service :=
  { s.countSent n with delivery := s.delivery.enqueue n }

def publish (s : Service) (d : Delta) : Service := d.notifications.foldl send s

/-- an update that is refused is counted and logged, and nothing else happens -/
def accept (s : Service) (u : Update) : Except TopologyFault Delta × Service :=
  match s.state.update u with
  | .error fault =>
    (.error fault,
      { s with
        stats := s.stats.addRejected
        delivery := s.delivery.note (.topologyRejected fault.stateFault.message) })
  | .ok (delta, state) =>
    (.ok delta,
      { state, stats := s.stats.addTaken u, delivery := s.delivery.noteAll (u.report delta) })

def ingest (s : Service) (u : Update) : Except TopologyFault Unit × Service :=
  match s.accept u with
  | (.error fault, s) => (.error fault, s)
  | (.ok delta, s) => (.ok (), s.publish delta)

/-! ## queries -/

def listenerCount (s : Service) : Nat := s.delivery.listenerCount

def reachableNodes (s : Service) : NodeSet := s.state.reachable

def reachableProperties (s : Service) : PropertySet := s.state.visible

/-- the derived parts of the state, recomputed and compared -/
def verify (s : Service) : Except ServiceFault Unit :=
  match s.state.audit with
  | none => .ok ()
  | some d => .error (.state d.stateFault)

def debugText (s : Service) : String :=
  let counters := s.stats.entries.map fun e => e.1 ++ ": " ++ toString e.2
  "NodePropertiesStateService \x7b stats: ServiceStats \x7b " ++ String.intercalate ", " counters ++
    " \x7d, listeners: " ++ toString s.listenerCount ++ " \x7d"

end Service

/-! ## observers that answer back -/

/-- what an observer may ask of the service -/
inductive ServiceRequest where
  | unsubscribe (r : Registration)
  | ingest (batch : List Property)

instance : Notifier Service Notification Call ServiceRequest where
  delivery := Service.delivery
  withDelivery s delivery := { s with delivery }
  calls := Notification.calls
  perform s
    | .unsubscribe r => (s.unsubscribe r).2
    | .ingest batch => (s.ingest (.batch batch)).2

end OverlayWatch
