import OverlayWatch.Proofs.Topology
import OverlayWatch.Service

/-!
# What the service makes of an update

An update is refused or taken in, and the notifications of one that is taken in are counted and queued.
Sending them out leaves the state alone, so all that the service is afterwards follows from what the
state makes of the update.

* `Service.ingest_error`, `Service.ingest_ok`   what an update leads to;
* `Stats.count`             what is counted of it;
* `Service.stats_ingest`    the counters after an update;
* `Service.ingest_topology_atomic`   a topology change is refused unless it is the difference to the
                            set that it names, and a refused one leaves no trace but a count.
-/

namespace OverlayWatch

namespace Stats

/-- counts an update with what has come of it -/
def count (s : Stats) (u : Update) : Except TopologyFault Delta → Stats
  | .error _ => s.addRejected
  | .ok d => d.notifications.foldl addSent (s.addTaken u)

theorem topologyChanges_foldl_addSent (s : Stats) (sent : List Notification) :
    (sent.foldl addSent s).topologyChanges = s.topologyChanges := by
  induction sent generalizing s with
  | nil => rfl
  | cons n sent ih =>
    rw [List.foldl_cons, ih]
    cases n <;> rfl

end Stats

namespace Service

/-! ## sending out -/

theorem state_publish (s : Service) (d : Delta) : (s.publish d).state = s.state := by
  unfold publish
  induction d.notifications generalizing s with
  | nil => rfl
  | cons n sent ih =>
    rw [List.foldl_cons, ih]
    rfl

theorem stats_publish (s : Service) (d : Delta) :
    (s.publish d).stats = d.notifications.foldl Stats.addSent s.stats := by
  unfold publish
  induction d.notifications generalizing s with
  | nil => rfl
  | cons n sent ih =>
    rw [List.foldl_cons, ih, List.foldl_cons]
    rfl

theorem delivery_publish (s : Service) (d : Delta) :
    (s.publish d).delivery = d.notifications.foldl Delivery.enqueue s.delivery := by
  unfold publish
  induction d.notifications generalizing s with
  | nil => rfl
  | cons n sent ih =>
    rw [List.foldl_cons, ih, List.foldl_cons]
    rfl

/-! ## taking in -/

section
variable {s : Service} {u : Update}

theorem accept_result (s : Service) (u : Update) :
    (s.accept u).1 = (s.state.update u).map Prod.fst := by
  unfold accept
  cases s.state.update u <;> rfl

theorem ingest_error {fault : TopologyFault} (h : s.state.update u = .error fault) :
    s.ingest u = (.error fault,
      { s with
        stats := s.stats.addRejected
        delivery := s.delivery.note (.topologyRejected fault.stateFault.message) }) := by
  simp [ingest, accept, h]

theorem ingest_ok {d : Delta} {next : State} (h : s.state.update u = .ok (d, next)) :
    s.ingest u = (.ok (), Service.publish
      { state := next
        stats := s.stats.addTaken u
        delivery := s.delivery.noteAll (u.report d) } d) := by
  simp [ingest, accept, h]

theorem stats_ingest : (s.ingest u).2.stats = s.stats.count u ((s.state.update u).map Prod.fst) := by
  cases h : s.state.update u with
  | error fault =>
    rw [ingest_error h]
    rfl
  | ok result =>
    obtain ⟨d, next⟩ := result
    rw [ingest_ok h, stats_publish]
    rfl

end

/-- **A topology change is taken in whole or not at all**: it is refused exactly if it is not the
difference between the reachable nodes and the set that it names.  A refused change leaves the state,
every registration with what is queued for it, and the tasks of the executor as they were, and counts
as refused; otherwise the named set is what is reachable, and the change counts as taken in. -/
theorem ingest_topology_atomic (s : Service) (c : TopologyChange) :
    let result := (s.ingest (.topology c)).1
    let t := (s.ingest (.topology c)).2
    ((∃ fault, result = .error fault) ↔ c ≠ .between s.reachableNodes c.reachable) ∧
    (∀ fault, result = .error fault →
      t.state = s.state ∧
      t.delivery.slots = s.delivery.slots ∧ t.delivery.issued = s.delivery.issued ∧
      t.delivery.executor = s.delivery.executor ∧ t.delivery.policy = s.delivery.policy ∧
      t.stats = { s.stats with
        rejectedTopologyChanges := s.stats.rejectedTopologyChanges + 1 }) ∧
    (result = .ok () →
      t.reachableNodes = c.reachable ∧ t.stats.topologyChanges = s.stats.topologyChanges + 1) := by
  intro result t
  have hfits : c.check s.state.reachable = .ok () ↔ c = .between s.reachableNodes c.reachable :=
    TopologyChange.check_eq_ok_iff.trans TopologyChange.fits_iff_eq_between
  cases hc : c.check s.state.reachable with
  | error fault =>
    have hu : s.state.update (.topology c) = .error fault := State.applyTopology_error hc
    have he := ingest_error hu
    have hresult : result = .error fault := congrArg Prod.fst he
    have ht : t = { s with
        stats := s.stats.addRejected
        delivery := s.delivery.note (.topologyRejected fault.stateFault.message) } :=
      congrArg Prod.snd he
    refine ⟨iff_of_true ⟨fault, hresult⟩ fun hb => ?_, fun _ _ => ?_, fun hok => ?_⟩
    · rw [hfits.2 hb] at hc
      cases hc
    · rw [ht]
      exact ⟨rfl, rfl, rfl, rfl, rfl, rfl⟩
    · rw [hresult] at hok
      cases hok
  | ok =>
    have hu : s.state.update (.topology c) = .ok (s.state.moveTo c) := State.applyTopology_ok hc
    have hi := ingest_ok hu
    have hresult : result = .ok () := congrArg Prod.fst hi
    refine ⟨iff_of_false ?_ fun hne => hne (hfits.1 hc), fun fault he => ?_, fun _ => ⟨?_, ?_⟩⟩
    · rintro ⟨fault, he⟩
      rw [hresult] at he
      cases he
    · rw [hresult] at he
      cases he
    · show (s.ingest (.topology c)).2.state.reachable = c.reachable
      rw [hi, state_publish]
    · show (s.ingest (.topology c)).2.stats.topologyChanges = _
      rw [hi, stats_publish, Stats.topologyChanges_foldl_addSent]
      rfl

end Service

end OverlayWatch
