import OverlayWatch.CommandLine
import OverlayWatch.Config.File
import OverlayWatch.Log.Filter
import OverlayWatch.Log.Text
import OverlayWatch.Observer
import OverlayWatch.Replay
import OverlayWatch.Trace.Encoding

/-!
# The replay command

Replays the trace named on the command line through a new service with a logging observer, waits
until everything has been delivered or the time is up, and sums up what happened.

* `ReplayCommand.World`     the files and the variables that the command can see;
* `ReplayCommand.Pace`      how far the drain tasks get while the command waits;
* `ReplayCommand.isDelivered`   what the wait for the observer's calls waits for;
* `ReplayCommand.wait`      looks again and again whether it has come;
* `ReplayCommand.stop`      the pool takes no more tasks, and those that are out have some time left;
* `ReplayCommand.waited`, `replayed`   the service and the observer's calls after the wait, and in the
                             end;
* `ReplayCommand.run`       exit code, summary and log of a command line.

The configuration is read first, then the log filter, then the trace, and last come the threads;
whichever fails first ends the command.
-/

namespace OverlayWatch

structure Summary where
  stepsApplied : Nat
  stats : Stats
  reachableNodes : Nat
  reachableProperties : Nat
deriving DecidableEq, Repr

namespace Summary

open Json in
/-- entries in the order of their names -/
def toJson (s : Summary) : Value :=
  let stats := s.stats.entries.mergeSort fun a b => (compare a.1 b.1).isLE
  .object [("reachable_nodes", .ofNat s.reachableNodes),
    ("reachable_properties", .ofNat s.reachableProperties),
    ("stats", .object (stats.map fun e => (e.1, .ofNat e.2))),
    ("steps_applied", .ofNat s.stepsApplied)]

end Summary

namespace ReplayCommand

/-- how many turns the drain tasks have in each pause of the wait, of which so many are left; with none
left, how many they have while the pool stops -/
abbrev Pace := Nat → Session Service Call ServiceRequest → Nat

/-- they do all that there is to do -/
def Pace.quick : Pace := fun _ session => session.delivery.backlog

structure World where
  file : String → Document
  env : Environment
  /-- the log filter asked for by variable -/
  requestedFilter : Option String
  pace : Pace := .quick

structure Report where
  exitCode : Nat
  summary : Option Summary
  records : List LogRecord
  jsonLogs : Bool

def Report.failed (code : Nat) : Report := ⟨code, none, [], false⟩

/-- the exit code of a command that breaks down: a torn log filter, threads without a name -/
def breakdown : Nat := 101

/-! ## the replay -/

/-- the sole observer -/
def observer : String := "observer"

/-- the calls that the observer has received -/
def received (session : Session Service Call ServiceRequest) : List Call :=
  session.audience.heardBy observer

/-- whether the wait for deliveries is over -/
def isDelivered (stats : Stats) (received : List Call) : Bool :=
  stats.expectedCalls ≤ received.length

/-- what is logged when the wait ends too early -/
def lossReport (stats : Stats) (received : List Call) : List Event :=
  if isDelivered stats received then [] else [.undelivered received.length stats.expectedCalls]

def pauseMs : Nat := 10

/-- the pauses that begin before the time is up, if none is longer than it should be -/
def pauses (waitMs : Nat) : Nat := (waitMs + (pauseMs - 1)) / pauseMs

/-- the number is that of the pauses left -/
def wait (pace : Pace) (stats : Stats) :
    Nat → Session Service Call ServiceRequest → Session Service Call ServiceRequest
  | 0, session => session
  | left + 1, session =>
    if isDelivered stats (received session) then session
    else wait pace stats left (session.run (pace (left + 1) session))

theorem wait_of_isDelivered {stats : Stats} {session : Session Service Call ServiceRequest}
    (h : isDelivered stats (received session) = true) (pace : Pace) (left : Nat) :
    wait pace stats left session = session := by
  cases left with
  | zero => rfl
  | succ left => rw [wait, if_pos h]

def stop (pace : Pace) (session : Session Service Call ServiceRequest) :
    Session Service Call ServiceRequest :=
  (session.onExecutor Executor.close).run (pace 0 session)

/-- how many steps were applied, unless one was refused, and the session when the wait is over -/
def waited (pace : Pace) (waitMs : Nat) (trace : Trace) :
    Except TopologyFault Nat × Session Service Call ServiceRequest :=
  let session : Session Service Call ServiceRequest :=
    ((Session.start (Service.start .cancel)).join observer .quiet Service.subscribe).2
  let (applied, service) := trace.replay session.host
  (applied, wait pace service.stats (pauses waitMs) (session.act fun _ => service))

/-- the same when the pool has stopped -/
def replayed (pace : Pace) (waitMs : Nat) (trace : Trace) :
    Except TopologyFault Nat × Session Service Call ServiceRequest :=
  let (applied, session) := waited pace waitMs trace
  (applied, stop pace session)

/-! ## the command -/

/-- the levels that repeated wishes for more stand for -/
def verboseLevel? : Nat → Option String
  | 0 => none
  | 1 => some "debug"
  | _ => some "trace"

def filter (world : World) (invocation : Invocation) (config : Config) :
    Except Directive.Fault Filter :=
  Filter.choose world.requestedFilter ((verboseLevel? invocation.verbosity).getD config.logging.level)

def summarize (applied : Nat) (service : Service) : Summary where
  stepsApplied := applied
  stats := service.stats
  reachableNodes := service.reachableNodes.size
  reachableProperties := service.reachableProperties.size

def runTrace (pace : Pace) (waitMs : Nat) (config : Config) (filter : Filter) (trace : Trace) :
    Report :=
  let (applied, session) := replayed pace waitMs trace
  let received := received session
  let seen := received.flatMap Call.events
  let shown (events : List Event) := (events.map Event.record).filter (filter.allows logTarget)
  match applied with
  | .ok applied =>
    ⟨0, some (summarize applied session.host),
      shown (seen ++ lossReport session.host.stats received), config.logging.jsonFormat⟩
  | .error _ => ⟨1, none, shown seen, config.logging.jsonFormat⟩

def runInvocation (world : World) (invocation : Invocation) : Report :=
  match Config.load (invocation.config.map world.file) world.env with
  | .error _ => .failed 1
  | .ok config =>
    match filter world invocation config with
    | .error _ => .failed breakdown
    | .ok filter =>
      match (world.file invocation.trace).read with
      | .error _ => .failed 1
      | .ok text =>
        match Trace.ofText text with
        | .error _ => .failed 1
        | .ok trace =>
          if config.pool.canNameThreads then
            runTrace world.pace invocation.waitMs config filter trace
          else .failed breakdown

def run (world : World) (args : List String) : Report :=
  match Invocation.parse args with
  | .error refusal => .failed refusal.exitCode
  | .ok invocation => runInvocation world invocation

end ReplayCommand

end OverlayWatch
