import OverlayWatch.Proofs.Service.Counters
import OverlayWatch.Proofs.State.Noninterference

/-!
# What observers and callers cannot see

Two runs of a service do the same operations when the same updates are handed in and observers come in
between the same ones, apart from events of nodes that are never reachable.  Nothing that the service
tells anyone then differs, however the drain tasks run in the one and in the other.

* `Move.operation?`      an update that is handed in, without the events of other nodes, or an observer
                         that comes in;
* `operations`           those of a run;
* `State.Agree.counted`  what is counted of updates that are alike;
* `asked`                what is asked of the service, in the same way;
* `Service.Alike`        two services that give the same answers;
* `Activity.unreachable_unseen`   so events of nodes that are never reachable show nowhere.
-/

namespace OverlayWatch

theorem Stats.count_restrict {nodes : NodeSet} {u v : Update}
    (h : v.restrict nodes = u.restrict nodes) (s : Stats) (result : Except TopologyFault Delta) :
    s.count v result = s.count u result := by
  rcases Update.restrict_cases h with ⟨events, others, rfl, rfl, -⟩ | ⟨c, rfl, rfl⟩
  · cases result <;> rfl
  · rfl

theorem State.Agree.counted {nodes : NodeSet} {s t : State} {l k : List Update}
    (h : State.Agree nodes s t) (hs : s.Coherent) (ht : t.Coherent)
    (hl : k.map (Update.restrict nodes) = l.map (Update.restrict nodes))
    (hn : ∀ node ∈ s.everReachable l, node ∈ nodes) (stats : Stats) :
    t.counted stats k = s.counted stats l := by
  induction l generalizing s t k stats with
  | nil =>
    obtain rfl := List.map_eq_nil_iff.1 hl
    rfl
  | cons u l ih =>
    obtain ⟨v, k, rfl, hu, hk⟩ := List.map_eq_cons_iff.1 hl
    obtain ⟨hnow, hnext, hlater⟩ := State.of_everReachable_cons hn
    rw [State.counted, State.counted, h.update hs ht hnow hnext hu, Stats.count_restrict hu]
    exact ih (h.advance hu) (hs.advance u) (ht.advance v) hk hlater _

namespace Activity

/-! ## operations -/

inductive Operation where
  | subscribe
  | ingest (u : Update)
deriving DecidableEq

def Operation.update? : Operation → Option Update
  | .subscribe => none
  | .ingest u => some u

def Move.operation? (nodes : NodeSet) : Move → Option Operation
  | .subscribe => some .subscribe
  | .ingest u => some (.ingest (u.restrict nodes))
  | _ => none

def operations (nodes : NodeSet) (moves : List Move) : List Operation :=
  moves.filterMap (Move.operation? nodes)

/-- the nodes that are reachable at some moment of a run from the start -/
def reached (moves : List Move) : NodeSet := State.empty.everReachable (ingested moves)

section
variable {nodes : NodeSet} {l k p q : List Move}

theorem mem_reached_append {node : NodeId} : node ∈ reached (l ++ k) ↔
    node ∈ reached l ∨ node ∈ (State.after (ingested l)).everReachable (ingested k) := by
  rw [reached, ingested_append, State.mem_everReachable_append]
  rfl

theorem operations_append : operations nodes (l ++ k) = operations nodes l ++ operations nodes k :=
  List.filterMap_append

theorem operations_prefix (h : p <+: l) : operations nodes p <+: operations nodes l := by
  obtain ⟨rest, rfl⟩ := h
  exact ⟨operations nodes rest, operations_append.symm⟩

/-- the updates of a run can be read off its operations -/
theorem restrict_ingested (nodes : NodeSet) (moves : List Move) :
    (ingested moves).map (Update.restrict nodes) =
      (operations nodes moves).filterMap Operation.update? := by
  induction moves with
  | nil => rfl
  | cons m rest ih =>
    rw [ingested_cons, List.map_append, ih]
    cases m <;> rfl

theorem restrict_ingested_eq (h : operations nodes q = operations nodes p) :
    (ingested q).map (Update.restrict nodes) = (ingested p).map (Update.restrict nodes) := by
  rw [restrict_ingested, restrict_ingested, h]

/-- two parts of runs with the same operations have the same operations if they have as many -/
theorem operations_eq (h : operations nodes k = operations nodes l) (hp : p <+: l) (hq : q <+: k)
    (hlen : (operations nodes q).length = (operations nodes p).length) :
    operations nodes q = operations nodes p := by
  have hpl : operations nodes p <+: operations nodes l := operations_prefix hp
  have hql : operations nodes q <+: operations nodes l := h ▸ operations_prefix hq
  exact (List.prefix_of_prefix_length_le hql hpl hlen.le).eq_of_length hlen

theorem operations_rest {m n : List Move}
    (h : operations nodes (q ++ n) = operations nodes (p ++ m))
    (hops : operations nodes q = operations nodes p) : operations nodes n = operations nodes m := by
  rw [operations_append, operations_append, hops] at h
  exact List.append_cancel_left h

end

/-! ## two runs -/

variable {nodes : NodeSet} {policy : FailurePolicy} {p q : List Move} {a b : Activity}

theorem agree_run (hops : operations nodes q = operations nodes p)
    (ha : (start policy).run p = some a) (hb : (start policy).run q = some b) :
    State.Agree nodes a.state b.state := by
  rw [state_run ha, state_run hb]
  exact (State.Agree.refl nodes State.empty).foldl_advance (restrict_ingested_eq hops)

/-! ## jobs -/

def Job.operation? (nodes : NodeSet) : Job → Option Operation
  | .ask .subscribe => some .subscribe
  | .ask (.ingest u) => some (.ingest (u.restrict nodes))
  | _ => none

def asked (nodes : NodeSet) (jobs : List Job) : List Operation :=
  jobs.filterMap (Job.operation? nodes)

/-- the updates can be read off what is asked -/
theorem restrict_updates (nodes : NodeSet) (jobs : List Job) :
    (jobs.flatMap Job.updates).map (Update.restrict nodes) =
      (asked nodes jobs).filterMap Operation.update? := by
  induction jobs with
  | nil => rfl
  | cons j rest ih =>
    rw [List.flatMap_cons, List.map_append, ih]
    match j with
    | .ask .subscribe => rfl
    | .ask (.unsubscribe r) => rfl
    | .ask (.ingest u) => rfl
    | .deliver o => rfl

theorem restrict_updates_eq {l k : List Job} (h : asked nodes k = asked nodes l) :
    (k.flatMap Job.updates).map (Update.restrict nodes) =
      (l.flatMap Job.updates).map (Update.restrict nodes) := by
  rw [restrict_updates, restrict_updates, h]

end Activity

/-- nothing that they say of themselves tells the two apart, nor does the snapshot of a new observer -/
structure Service.Alike (s t : Service) : Prop where
  snapshot : t.state.snapshot = s.state.snapshot
  stats : t.stats = s.stats
  properties : t.reachableProperties = s.reachableProperties
  nodes : t.reachableNodes = s.reachableNodes
  valueMap : ∀ node, t.state.reachableValueMap? node = s.state.reachableValueMap? node
  valueMaps : t.state.reachableValueMaps = s.state.reachableValueMaps

theorem State.Agree.alike {nodes : NodeSet} {s t : Service} (h : State.Agree nodes s.state t.state)
    (hs : s.state.Coherent) (ht : t.state.Coherent) (hn : ∀ node ∈ s.state.reachable, node ∈ nodes)
    (hstats : t.stats = s.stats) : s.Alike t where
  snapshot := h.snapshot hs ht hn
  stats := hstats
  properties := h.visible hs ht hn
  nodes := h.reachable
  valueMap node := by
    rw [State.reachableValueMap?, State.reachableValueMap?, h.shown hs ht hn]
  valueMaps := h.shown hs ht hn

/-- updates to come, and the observers of the one and the other -/
theorem State.Agree.stream {nodes : NodeSet} {s t : State} (h : State.Agree nodes s t)
    (hs : s.Coherent) (ht : t.Coherent) {l k : List Update}
    (hl : k.map (Update.restrict nodes) = l.map (Update.restrict nodes))
    (hn : ∀ node ∈ s.everReachable l, node ∈ nodes) (hnow : ∀ node ∈ s.reachable, node ∈ nodes) :
    t.stream k = s.stream l := by
  rw [State.stream, State.stream, State.greeting, State.greeting, h.snapshot hs ht hnow,
    h.deltas hs ht hl hn]

namespace Activity

variable {nodes : NodeSet} {policy : FailurePolicy} {p q : List Move} {a b : Activity}

/-- two services of which the same is asked, but for events of other nodes, when equally much of it has
been done -/
theorem alike_asked {first rest others remaining : List Job} {c d : Activity}
    (hc : (start policy).performAll first = some c) (hd : (start policy).performAll others = some d)
    (h : asked nodes (others ++ remaining) = asked nodes (first ++ rest))
    (hlen : (asked nodes others).length = (asked nodes first).length)
    (hn : ∀ node ∈ State.empty.everReachable ((first ++ rest).flatMap Job.updates), node ∈ nodes) :
    c.service.Alike d.service ∧
    (∀ u v, rest.head? = some (.ingest u) → remaining.head? = some (.ingest v) →
      (d.service.accept v).1 = (c.service.accept u).1) ∧
    d.state.stream (remaining.flatMap Job.updates) = c.state.stream (rest.flatMap Job.updates) := by
  unfold asked at h
  rw [List.filterMap_append, List.filterMap_append] at h
  obtain ⟨hpast, hnext⟩ := List.append_inj h hlen
  have hbefore := restrict_updates_eq hpast
  have hagree : State.Agree nodes c.state d.state := by
    rw [state_performAll hc, state_performAll hd]
    exact (State.Agree.refl nodes State.empty).foldl_advance hbefore
  have hs : c.state.Coherent := state_performAll hc ▸ State.coherent_after _
  have ht : d.state.Coherent := state_performAll hd ▸ State.coherent_after _
  simp only [List.flatMap_append, State.mem_everReachable_append] at hn
  have hlater : ∀ node ∈ c.state.everReachable (rest.flatMap Job.updates), node ∈ nodes := by
    rw [state_performAll hc]
    exact fun node hnode => hn node (.inr hnode)
  have hnow : ∀ node ∈ c.state.reachable, node ∈ nodes := fun node hnode =>
    hlater node (State.mem_everReachable_of_reachable hnode _)
  have hstats : d.stats = c.stats := by
    rw [stats_performAll hc, stats_performAll hd]
    exact (State.Agree.refl _ _).counted State.coherent_empty State.coherent_empty hbefore
      (fun node hnode => hn node (.inl hnode)) .zero
  refine ⟨hagree.alike hs ht hnow hstats, fun u v hu hv => ?_,
    hagree.stream hs ht (restrict_updates_eq hnext) hlater hnow⟩
  obtain ⟨rest, rfl⟩ := List.head?_eq_some_iff.1 hu
  obtain ⟨remaining, rfl⟩ := List.head?_eq_some_iff.1 hv
  have huv : v.restrict nodes = u.restrict nodes := Operation.ingest.inj (List.cons.inj hnext).1
  obtain ⟨-, hnext, -⟩ := State.of_everReachable_cons hlater
  rw [Service.accept_result, Service.accept_result]
  exact hagree.update hs ht hnow hnext huv

/-- **Events of nodes that are never reachable show nowhere**: two runs do the same operations but for
such events.  Then at any two moments at which equally many operations have been done, the next update
is answered alike, a new observer starts from the same snapshot and has the same calls to come, the
counters agree once the last update has been sent out, and so does every answer about what is
reachable.  So it is of two services that are asked for one thing after the other. -/
theorem unreachable_unseen (policy : FailurePolicy) (l k p q : List Move) (a b : Activity)
    (h : operations (reached l) k = operations (reached l) l) (hp : p <+: l) (hq : q <+: k)
    (hlen : (operations (reached l) q).length = (operations (reached l) p).length)
    (ha : (start policy).run p = some a) (hb : (start policy).run q = some b) :
    (∀ u v, p ++ [.ingest u] <+: l → q ++ [.ingest v] <+: k →
      (b.service.accept v).1 = (a.service.accept u).1) ∧
    b.state.snapshot = a.state.snapshot ∧
    (∀ m n, p ++ m = l → q ++ n = k →
      b.state.stream (ingested n) = a.state.stream (ingested m)) ∧
    (a.isSettled = true → b.isSettled = true → b.stats = a.stats) ∧
    b.service.reachableProperties = a.service.reachableProperties ∧
    b.service.reachableNodes = a.service.reachableNodes ∧
    (∀ node, b.state.reachableValueMap? node = a.state.reachableValueMap? node) ∧
    b.state.reachableValueMaps = a.state.reachableValueMaps ∧
    ∀ (first rest others remaining : List Job) (c d : Activity),
      (start policy).performAll first = some c → (start policy).performAll others = some d →
      let shown := State.empty.everReachable ((first ++ rest).flatMap Job.updates)
      asked shown (others ++ remaining) = asked shown (first ++ rest) →
      (asked shown others).length = (asked shown first).length →
      c.service.Alike d.service ∧
      (∀ u v, rest.head? = some (.ingest u) → remaining.head? = some (.ingest v) →
        (d.service.accept v).1 = (c.service.accept u).1) ∧
      d.state.stream (remaining.flatMap Job.updates) =
        c.state.stream (rest.flatMap Job.updates) := by
  have hops : operations (reached l) q = operations (reached l) p := operations_eq h hp hq hlen
  have hagree : State.Agree (reached l) a.state b.state := agree_run hops ha hb
  have hs : a.state.Coherent := state_run ha ▸ State.coherent_after (ingested p)
  have ht : b.state.Coherent := state_run hb ▸ State.coherent_after (ingested q)
  have hpast : ∀ node ∈ reached p, node ∈ reached l := by
    obtain ⟨rest, rfl⟩ := hp
    exact fun node hn => mem_reached_append.2 (.inl hn)
  -- what is reachable from here on, as long as the run is a part of the first one
  have hlater : ∀ m, p ++ m <+: l → ∀ node ∈ a.state.everReachable (ingested m), node ∈ reached l := by
    rintro m ⟨rest, rfl⟩ node hn
    rw [state_run ha] at hn
    exact mem_reached_append.2 (.inl (mem_reached_append.2 (.inr hn)))
  have hnow : ∀ node ∈ a.state.reachable, node ∈ reached l :=
    hlater [] (by rwa [List.append_nil])
  have hsnapshot : b.state.snapshot = a.state.snapshot := hagree.snapshot hs ht hnow
  have hshown : b.state.views.reachable = a.state.views.reachable := hagree.shown hs ht hnow
  refine ⟨fun u v hu hv => ?_, hsnapshot, fun m n hm hn => ?_, fun hda hdb => ?_,
    hagree.visible hs ht hnow, hagree.reachable, fun node => ?_, hshown,
    fun _ _ _ _ _ _ hc hd h hlen => alike_asked hc hd h hlen fun _ hn => hn⟩
  · obtain ⟨-, hnext, -⟩ := State.of_everReachable_cons (hlater [.ingest u] hu)
    have hlen : (operations (reached l) (q ++ [.ingest v])).length =
        (operations (reached l) (p ++ [.ingest u])).length := by
      rw [operations_append, operations_append, List.length_append, List.length_append, hlen]
      rfl
    have hboth : [Operation.ingest (v.restrict (reached l))] = [.ingest (u.restrict (reached l))] :=
      operations_rest (operations_eq h hu hv hlen) hops
    have huv : v.restrict (reached l) = u.restrict (reached l) :=
      Operation.ingest.inj (List.singleton_inj.1 hboth)
    rw [Service.accept_result, Service.accept_result]
    exact hagree.update hs ht hnow hnext huv
  · have hall : operations (reached l) (q ++ n) = operations (reached l) (p ++ m) := by rw [hm, hn, h]
    have hup := restrict_ingested_eq (operations_rest hall hops)
    exact hagree.stream hs ht hup (hlater m (hm ▸ List.prefix_rfl)) hnow
  · have hup := restrict_ingested_eq hops
    rw [stats_run ha hda, stats_run hb hdb]
    exact (State.Agree.refl _ _).counted State.coherent_empty State.coherent_empty hup hpast .zero
  · rw [State.reachableValueMap?, State.reachableValueMap?, hshown]

/-- an observer comes in when a node is reachable, and a value of the node is announced -/
def bare : List Move :=
  [.ingest (.topology (.between ∅ {⟨"n"⟩})), .send, .subscribe,
    .ingest (.batch [.live ⟨"n"⟩ "k" "v"]), .send, .post ⟨1⟩, .send, .post ⟨1⟩]

/-- the same with events of another node, and with a drain task that is quicker -/
def noisy : List Move :=
  [.ingest (.topology (.between ∅ {⟨"n"⟩})), .send, .subscribe,
    .look ⟨1⟩, .take ⟨1⟩, .call ⟨1⟩,
    .ingest (.batch [.live ⟨"m"⟩ "k" "w", .live ⟨"n"⟩ "k" "v", .tombstone ⟨"m"⟩ "j"]),
    .call ⟨1⟩, .send, .post ⟨1⟩, .finish ⟨1⟩, .send, .post ⟨1⟩, .look ⟨1⟩, .take ⟨1⟩]

def bareRun : Activity := ((start .proceed).run bare).get (by decide +kernel)

def noisyRun : Activity := ((start .proceed).run noisy).get (by decide +kernel)

theorem unreachable_unseen_noisy :
    noisyRun.state.store ≠ bareRun.state.store ∧ noisyRun.stats = bareRun.stats ∧
    bareRun.stats.propertyNotifications = 1 ∧
    noisyRun.service.reachableProperties = bareRun.service.reachableProperties ∧
    bareRun.service.reachableProperties = {.live ⟨"n"⟩ "k" "v"} := by
  obtain ⟨-, -, -, hstats, hvisible, -⟩ := unreachable_unseen .proceed bare noisy bare noisy
    bareRun noisyRun (by decide +kernel) List.prefix_rfl List.prefix_rfl (by decide +kernel)
    (Option.some_get _).symm (Option.some_get _).symm
  exact ⟨by decide +kernel, hstats (by decide +kernel) (by decide +kernel), by decide +kernel,
    hvisible, by decide +kernel⟩

end Activity

end OverlayWatch
