import OverlayWatch.Proofs.Service.Counters
import OverlayWatch.Replay

/-!
# What a replay leads to

A topology step is turned into the difference between the set that is reachable at its turn and the
recorded one, and of all changes to a set only the difference fits.  So no step is ever refused, and
what the service is after a replay follows from the state before it and from the recorded steps.

* `State.updatesOf`           the updates that recorded steps stand for, from a state on;
* `Trace.events`, `Trace.lastReachable?`   all recorded events, and the last recorded set;
* `State.intake_counted_updatesOf`   each step is counted as taken in;
* `Service.replayStep_spec`   what a step does to the service;
* `Service.replayFrom_spec`   and so what all steps do.
-/

namespace OverlayWatch

/-! ## recorded steps -/

def Step.events : Step → List Property
  | .properties batch => batch
  | .topology _ => []

def Step.reachable? : Step → Option NodeSet
  | .properties _ => none
  | .topology next => some next

def Step.isBatch : Step → Bool
  | .properties _ => true
  | .topology _ => false

def Step.isTopology (step : Step) : Bool := !step.isBatch

namespace Trace

def events (t : Trace) : List Property := t.steps.flatMap Step.events

def batches (t : Trace) : Nat := t.steps.countP Step.isBatch

def topologies (t : Trace) : Nat := t.steps.countP Step.isTopology

/-- the set that is reachable in the end, if the trace has a say in it -/
def lastReachable? (t : Trace) : Option NodeSet := (t.steps.filterMap Step.reachable?).getLast?

end Trace

namespace State

/-! ## the state -/

/-- each step is seen from the state that the steps before it have led to -/
def updatesOf (s : State) : List Step → List Update
  | [] => []
  | step :: rest =>
    let u := step.update s.reachable
    u :: (s.advance u).updatesOf rest

variable (s : State)

theorem updatesOf_cons (step : Step) (rest : List Step) : s.updatesOf (step :: rest) =
    step.update s.reachable :: (s.advance (step.update s.reachable)).updatesOf rest := rfl

/-- no step is refused -/
theorem update_ofStep (step : Step) :
    ∃ d, s.update (step.update s.reachable) = .ok (d, s.advance (step.update s.reachable)) := by
  cases step with
  | properties batch => exact ⟨(s.applyBatch batch).1, rfl⟩
  | topology next =>
    have hc : (TopologyChange.between s.reachable next).check s.reachable = .ok () :=
      TopologyChange.check_eq_ok_iff.2 (TopologyChange.fits_between s.reachable next)
    exact ⟨(s.moveTo (.between s.reachable next)).1, by
      rw [Step.update, advance_topology_ok hc, update, applyTopology_ok hc]⟩

theorem reachable_advance_ofStep (step : Step) :
    (s.advance (step.update s.reachable)).reachable = step.reachable?.getD s.reachable := by
  cases step with
  | properties batch => rfl
  | topology next =>
    have hc : (TopologyChange.between s.reachable next).check s.reachable = .ok () :=
      TopologyChange.check_eq_ok_iff.2 (TopologyChange.fits_between s.reachable next)
    rw [Step.update, advance_topology_ok hc, reachable_moveTo]
    rfl

theorem history_updatesOf (steps : List Step) :
    history (s.updatesOf steps) = steps.flatMap Step.events := by
  induction steps generalizing s with
  | nil => rfl
  | cons step rest ih =>
    rw [updatesOf_cons, history_cons, ih, List.flatMap_cons]
    cases step <;> rfl

theorem reachable_foldl_updatesOf (steps : List Step) :
    ((s.updatesOf steps).foldl advance s).reachable
      = ((steps.filterMap Step.reachable?).getLast?).getD s.reachable := by
  induction steps generalizing s with
  | nil => rfl
  | cons step rest ih =>
    rw [updatesOf_cons, List.foldl_cons, ih, reachable_advance_ofStep]
    cases step with
    | properties batch => rfl
    | topology next =>
      rw [List.filterMap_cons_some (by rfl), List.getLast?_cons]
      cases (rest.filterMap Step.reachable?).getLast? <;> rfl

end State

/-! ## the counters -/

namespace Stats

/-- what has been taken in and what has been refused: batches, topology changes, refusals -/
def intake (s : Stats) : Nat × Nat × Nat :=
  (s.rawBatches, s.topologyChanges, s.rejectedTopologyChanges)

theorem intake_foldl_addSent (s : Stats) (sent : List Notification) :
    (sent.foldl addSent s).intake = s.intake := by
  induction sent generalizing s with
  | nil => rfl
  | cons n sent ih =>
    rw [List.foldl_cons, ih]
    cases n <;> rfl

/-- a step is taken in as what it is -/
theorem intake_count_ofStep (s : Stats) (nodes : NodeSet) (step : Step) (d : Delta) :
    (s.count (step.update nodes) (.ok d)).intake =
      (s.rawBatches + (if step.isBatch then 1 else 0),
        s.topologyChanges + (if step.isTopology then 1 else 0), s.rejectedTopologyChanges) := by
  rw [count, intake_foldl_addSent]
  cases step <;> rfl

end Stats

theorem State.intake_counted_updatesOf (s : State) (stats : Stats) (steps : List Step) :
    (s.counted stats (s.updatesOf steps)).intake =
      (stats.rawBatches + steps.countP Step.isBatch,
        stats.topologyChanges + steps.countP Step.isTopology, stats.rejectedTopologyChanges) := by
  induction steps generalizing s stats with
  | nil => rfl
  | cons step rest ih =>
    obtain ⟨d, hu⟩ := s.update_ofStep step
    have hm : (s.update (step.update s.reachable)).map Prod.fst = .ok d := by rw [hu]; rfl
    have hi := stats.intake_count_ofStep s.reachable step d
    simp only [Stats.intake, Prod.mk.injEq] at hi
    obtain ⟨hb, ht, hr⟩ := hi
    rw [updatesOf_cons, counted, ih, hm, hb, ht, hr, List.countP_cons, List.countP_cons]
    simp only [Nat.add_assoc, Nat.add_comm (rest.countP _)]

/-! ## the service -/

namespace Service

/-- no step is refused, and the state and the counters are those of its update -/
theorem replayStep_spec (s : Service) (index : Nat) (step : Step) :
    let u := step.update s.reachableNodes
    (s.replayStep index step).1 = .ok () ∧
    (s.replayStep index step).2.state = s.state.advance u ∧
    (s.replayStep index step).2.stats = s.stats.count u ((s.state.update u).map Prod.fst) := by
  intro u
  obtain ⟨d, hu⟩ := s.state.update_ofStep step
  have hi : s.replayStep index step = _ := ingest_ok (s := s.note (u.replaying index)) hu
  refine ⟨by rw [hi], by rw [hi, state_publish]; rfl, ?_⟩
  exact stats_ingest (s := s.note (u.replaying index)) (u := u)

theorem replayFrom_spec (s : Service) (index : Nat) (steps : List Step) :
    let updates := s.state.updatesOf steps
    (s.replayFrom index steps).1 = .ok (index + steps.length) ∧
    (s.replayFrom index steps).2.state = updates.foldl State.advance s.state ∧
    (s.replayFrom index steps).2.stats = s.state.counted s.stats updates := by
  induction steps generalizing s index with
  | nil => exact ⟨rfl, rfl, rfl⟩
  | cons step rest ih =>
    obtain ⟨hr, hs, hc⟩ := s.replayStep_spec index step
    rcases h : s.replayStep index step with ⟨result, next⟩
    rw [h] at hr hs hc
    obtain rfl : result = .ok () := hr
    obtain ⟨hr, hn, hk⟩ := ih next (index + 1)
    rw [replayFrom, h]
    rw [hs, hc] at hk
    rw [hs] at hn
    exact ⟨by rw [hr, List.length_cons]; congr 1; omega, hn, hk⟩

end Service

end OverlayWatch
