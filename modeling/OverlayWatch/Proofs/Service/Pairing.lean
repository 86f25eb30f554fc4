import OverlayWatch.Proofs.Service.Counters
import OverlayWatch.Proofs.State.Pairing

/-!
# Notifications in pairs

An update sends out its change and then its maps, or its maps alone, or nothing: never a change without
maps.  Nothing else goes out in between, since no update is taken in and no observer comes in before all
of an update has been sent out.  So the notifications of a run are those of its updates, one after the
other, and the counters keep an order that can be read off a single update.

* `Delta.notifications_cases`   what goes out for one update;
* `Service.queuedBy`            what an update queues for everyone registered;
* `Activity.sent`               what goes out in a run, in its order;
* `Activity.sent_append_outbox` this and what is still to go out are the notifications of the updates;
* `Stats.Balanced`              the order of the counters, and what they add up to;
* `State.balanced_counted`      every update keeps it;
* `Activity.notifications_paired`   all of this, for every update and every run.
-/

namespace OverlayWatch

/-! ## one update -/

theorem Delta.notifications_cases {d : Delta} (h : d.change ≠ .none → d.maps ≠ ∅) :
    (d.maps = ∅ ∧ d.notifications = []) ∨
    (d.maps ≠ ∅ ∧ (d.notifications = [.valueMaps d.maps] ∨
      ∃ c, d.change = some c ∧ d.notifications = [.properties c, .valueMaps d.maps])) := by
  unfold notifications
  by_cases hm : d.maps = ∅
  · have hc : d.change = .none := by
      by_contra hc
      exact h hc hm
    have he : d.maps.isEmpty = true := Std.ExtTreeMap.isEmpty_iff.2 hm
    exact .inl ⟨hm, by simp [hc, he]⟩
  · have he : d.maps.isEmpty = false := Std.ExtTreeMap.isEmpty_eq_false_iff.2 hm
    cases hc : d.change with
    | none => exact .inr ⟨hm, .inl (by simp [he])⟩
    | some c => exact .inr ⟨hm, .inr ⟨c, rfl, by simp [he]⟩⟩

/-- the callbacks that an update queues for everyone registered, in their order -/
def Service.queuedBy (s : Service) (u : Update) : List Notification :=
  match (s.accept u).1 with
  | .ok d => d.notifications
  | .error _ => []

theorem Service.delivery_ingest (s : Service) (u : Update) : (s.ingest u).2.delivery =
    (s.queuedBy u).foldl Delivery.enqueue (s.accept u).2.delivery := by
  rw [ingest, queuedBy]
  rcases s.accept u with ⟨_ | d, t⟩
  · rfl
  · exact delivery_publish t d

theorem Service.queuedBy_cases {s : Service} (hs : s.state.Coherent) (u : Update) :
    s.queuedBy u = [] ∨ (∃ maps, s.queuedBy u = [.valueMaps maps]) ∨
      ∃ c maps, s.queuedBy u = [.properties c, .valueMaps maps] := by
  rw [queuedBy, accept_result]
  cases hu : s.state.update u with
  | error fault => exact .inl rfl
  | ok result =>
    obtain ⟨d, next⟩ := result
    obtain ⟨-, hn⟩ | ⟨-, hn | ⟨c, -, hn⟩⟩ := Delta.notifications_cases (hs.maps_of_change hu)
    · exact .inl hn
    · exact .inr (.inl ⟨d.maps, hn⟩)
    · exact .inr (.inr ⟨c, d.maps, hn⟩)

/-! ## what goes out in a run -/

namespace Activity

/-- what a move sends out -/
def goesOut (a : Activity) : Move → List Notification
  | .send => a.outbox.take 1
  | _ => []

def sent : Activity → List Move → List Notification
  | _, [] => []
  | a, m :: rest => a.goesOut m ++ (a.step m).elim [] fun b => b.sent rest

variable {a b : Activity} {m : Move}

theorem goesOut_append_outbox (h : a.step m = some b) : a.goesOut m ++ b.outbox =
    a.outbox ++ (a.state.deltas m.updates).flatMap Delta.notifications := by
  obtain ⟨u, rfl⟩ | rfl | ⟨hm, -, hb, t, ht, -⟩ := step_cases h
  · show b.outbox = a.outbox ++ (a.state.deltas [u]).flatMap Delta.notifications
    obtain ⟨ho, -, ⟨d, hu, hb⟩ | ⟨fault, hu, -, hb⟩⟩ := of_ingest h
    · rw [State.deltas_cons_ok hu, ho, hb]
      exact (List.append_nil _).symm
    · rw [State.deltas_cons_error hu, ho, hb]
      rfl
  · obtain ⟨n, rest, ho, hb, -, -⟩ := of_send h
    show a.outbox.take 1 ++ b.outbox = a.outbox ++ []
    rw [hb, ho]
    exact (List.append_nil _).symm
  · have hn : a.goesOut m = [] := by
      cases m with
      | send =>
        obtain ⟨n, rest, ho, hr, -, -⟩ := of_send h
        exact absurd (ho.symm.trans (hb.symm.trans hr)) (List.cons_ne_self n rest)
      | _ => rfl
    rw [hn, hm, hb]
    exact (List.append_nil _).symm

theorem sent_append_outbox {moves : List Move} (h : a.run moves = some b) :
    a.sent moves ++ b.outbox =
      a.outbox ++ (a.state.deltas (ingested moves)).flatMap Delta.notifications := by
  induction moves generalizing a with
  | nil =>
    obtain rfl := Option.some.inj h
    exact (List.append_nil _).symm
  | cons m rest ih =>
    obtain ⟨c, hc, hr⟩ := run_cons h
    have hs : a.sent (m :: rest) = a.goesOut m ++ c.sent rest := by rw [sent, hc]; rfl
    rw [hs, List.append_assoc, ih hr, ← List.append_assoc, goesOut_append_outbox hc, ingested_cons,
      State.deltas_append, List.flatMap_append, List.append_assoc, state_step hc]

end Activity

/-! ## the counters -/

/-- after so many updates that were handed in -/
structure Stats.Balanced (s : Stats) (updates : Nat) : Prop where
  properties_le : s.propertyNotifications ≤ s.valueMapNotifications
  maps_le : s.valueMapNotifications ≤ s.rawBatches + s.topologyChanges
  total : s.rawBatches + s.topologyChanges + s.rejectedTopologyChanges = updates

theorem Stats.balanced_zero : Stats.zero.Balanced 0 := ⟨Nat.le_refl 0, Nat.le_refl 0, rfl⟩

theorem Stats.taken_addTaken (s : Stats) (u : Update) :
    (s.addTaken u).rawBatches + (s.addTaken u).topologyChanges
      = s.rawBatches + s.topologyChanges + 1 := by
  cases u with
  | batch events => exact Nat.add_right_comm ..
  | topology c => rfl

theorem Stats.kept_addTaken (s : Stats) (u : Update) :
    (s.addTaken u).rejectedTopologyChanges = s.rejectedTopologyChanges ∧
    (s.addTaken u).propertyNotifications = s.propertyNotifications ∧
    (s.addTaken u).valueMapNotifications = s.valueMapNotifications := by
  cases u with
  | batch events => exact ⟨rfl, rfl, rfl⟩
  | topology c => exact ⟨rfl, rfl, rfl⟩

namespace Stats.Balanced

variable {s : Stats} {n : Nat} (h : s.Balanced n)
include h

theorem addRejected : s.addRejected.Balanced (n + 1) := by
  obtain ⟨hp, hm, ht⟩ := h
  refine ⟨hp, hm, ?_⟩
  show s.rawBatches + s.topologyChanges + (s.rejectedTopologyChanges + 1) = n + 1
  omega

theorem count_ok (u : Update) {d : Delta} (hd : d.change ≠ none → d.maps ≠ ∅) :
    (s.count u (.ok d)).Balanced (n + 1) := by
  obtain ⟨hp, hm, ht⟩ := h
  have htaken := s.taken_addTaken u
  have hkept := s.kept_addTaken u
  show (d.notifications.foldl addSent (s.addTaken u)).Balanced (n + 1)
  obtain ⟨-, hn⟩ | ⟨-, hn | ⟨c, -, hn⟩⟩ := Delta.notifications_cases hd
  · rw [hn]
    refine ⟨?_, ?_, ?_⟩ <;> simp only [List.foldl_nil] <;> omega
  · rw [hn]
    refine ⟨?_, ?_, ?_⟩ <;> simp only [List.foldl_cons, List.foldl_nil, addSent] <;> omega
  · rw [hn]
    refine ⟨?_, ?_, ?_⟩ <;> simp only [List.foldl_cons, List.foldl_nil, addSent] <;> omega

end Stats.Balanced

theorem State.balanced_counted {s : State} (hs : s.Coherent) {stats : Stats} {n : Nat}
    (h : stats.Balanced n) (updates : List Update) :
    (s.counted stats updates).Balanced (n + updates.length) := by
  induction updates generalizing s stats n with
  | nil => exact h
  | cons u rest ih =>
    have hlen : n + (u :: rest).length = n + 1 + rest.length := by
      rw [List.length_cons]
      omega
    rw [hlen, counted]
    refine ih (hs.advance u) ?_
    cases hu : s.update u with
    | error fault => exact h.addRejected
    | ok result =>
      obtain ⟨d, next⟩ := result
      exact h.count_ok u (hs.maps_of_change hu)

/-! ## every run -/

namespace Activity

theorem balanced_due {policy : FailurePolicy} {moves : List Move} {b : Activity}
    (h : (start policy).run moves = some b) : b.due.Balanced (ingested moves).length := by
  have hb := State.balanced_counted State.coherent_empty Stats.balanced_zero (ingested moves)
  rw [Nat.zero_add] at hb
  rw [due_run h]
  exact hb

/-- **Changes and maps go out in pairs**: in every state a batch has a change exactly if it has maps,
which are those of the reachable nodes with an event that finds something to change; a topology change
that is accepted has maps exactly if a node comes or goes, and no change without maps.  So what goes
out in a run is, update by update, nothing, the maps, or the change and then the maps; and once the
last update has been sent out, the counters of what was sent are in the order of those of what was
taken in, which account for every update that a feed has handed in.  So it is of a service that is
asked for one thing after the other: the next update queues nothing, maps, or a change and maps. -/
theorem notifications_paired :
    (∀ (updates : List Update) (batch : List Property),
      let s := State.after updates
      let d := (s.applyBatch batch).1
      (d.change ≠ none ↔ d.maps ≠ ∅) ∧
      ∀ node, node ∈ d.maps ↔ node ∈ s.reachable ∧ ∃ earlier p later,
        batch = earlier ++ p :: later ∧ p.node = node ∧
          (s.store.applyAll earlier).outcome p ≠ .unchanged) ∧
    (∀ (updates : List Update) (c : TopologyChange) (d : Delta) (t : State),
      (State.after updates).applyTopology c = .ok (d, t) →
      (d.maps ≠ ∅ ↔ c.isEmpty = false) ∧ (d.change ≠ none → d.maps ≠ ∅)) ∧
    (∀ (policy : FailurePolicy) (moves : List Move) (b : Activity),
      (start policy).run moves = some b →
      (let deltas := State.empty.deltas (ingested moves)
      (start policy).sent moves ++ b.outbox = deltas.flatMap Delta.notifications ∧
      ∀ d ∈ deltas, (d.maps = ∅ ∧ d.notifications = []) ∨
        (d.maps ≠ ∅ ∧ (d.notifications = [.valueMaps d.maps] ∨
          ∃ c, d.change = some c ∧ d.notifications = [.properties c, .valueMaps d.maps]))) ∧
      (b.outbox = [] →
        b.stats.propertyNotifications ≤ b.stats.valueMapNotifications ∧
        b.stats.valueMapNotifications ≤ b.stats.rawBatches + b.stats.topologyChanges ∧
        b.stats.rawBatches + b.stats.topologyChanges + b.stats.rejectedTopologyChanges
          = (ingested moves).length)) ∧
    ∀ (policy : FailurePolicy) (jobs : List Job) (b : Activity),
      (start policy).performAll jobs = some b →
      (∀ u, (b.service.ingest u).2.delivery =
          (b.service.queuedBy u).foldl Delivery.enqueue (b.service.accept u).2.delivery ∧
        (b.service.queuedBy u = [] ∨ (∃ maps, b.service.queuedBy u = [.valueMaps maps]) ∨
          ∃ c maps, b.service.queuedBy u = [.properties c, .valueMaps maps])) ∧
      b.service.stats.propertyNotifications ≤ b.service.stats.valueMapNotifications ∧
      b.service.stats.valueMapNotifications ≤
        b.service.stats.rawBatches + b.service.stats.topologyChanges ∧
      b.service.stats.rawBatches + b.service.stats.topologyChanges +
        b.service.stats.rejectedTopologyChanges = (jobs.flatMap Job.updates).length := by
  refine ⟨fun updates batch => ?_, fun updates c d t h => ?_, fun policy moves b h => ⟨⟨?_, ?_⟩, ?_⟩,
    fun policy jobs b h => ?_⟩
  · exact ⟨(State.coherent_after updates).change_iff_maps batch, State.mem_maps_applyBatch _ batch⟩
  · obtain ⟨-, hd⟩ := State.applyTopology_eq_ok_iff.1 h
    have hm : d = ((State.after updates).moveTo c).1 := (congrArg Prod.fst hd).symm
    rw [hm]
    exact ⟨State.maps_moveTo_iff _ c, State.maps_of_change_moveTo⟩
  · exact sent_append_outbox h
  · intro d hd
    exact Delta.notifications_cases (State.coherent_empty.maps_of_change_deltas hd)
  · intro hb
    have hstats : b.due = b.stats := by rw [due, hb, List.foldl_nil]
    obtain ⟨hp, hm, ht⟩ := balanced_due h
    rw [hstats] at hp hm ht
    exact ⟨hp, hm, ht⟩
  · have hs : b.state.Coherent := state_performAll h ▸ State.coherent_after _
    have hb := State.balanced_counted State.coherent_empty Stats.balanced_zero
      (jobs.flatMap Job.updates)
    rw [Nat.zero_add, ← stats_performAll h] at hb
    exact ⟨fun u => ⟨b.service.delivery_ingest u, Service.queuedBy_cases hs u⟩,
      hb.properties_le, hb.maps_le, hb.total⟩

/-- a node comes, has a property announced, has nothing to withdraw, and stays; a change that says it
comes again is refused -/
def commotion : List Move :=
  [.ingest (.topology (.between ∅ {⟨"n"⟩})), .send,
    .ingest (.batch [.live ⟨"n"⟩ "k" "v"]), .send, .send,
    .ingest (.batch [.tombstone ⟨"n"⟩ "l"]),
    .ingest (.topology (.between {⟨"n"⟩} {⟨"n"⟩})),
    .ingest (.topology (.between ∅ {⟨"n"⟩}))]

def subsided : Activity := ((start .cancel).run commotion).get (by decide +kernel)

theorem notifications_paired_commotion :
    subsided.stats = ⟨2, 2, 1, 1, 2⟩ ∧ subsided.outbox = [] ∧
    ((start .cancel).sent commotion).length = 3 ∧
    (start .cancel).sent commotion
      = (State.empty.deltas (ingested commotion)).flatMap Delta.notifications ∧
    subsided.stats.propertyNotifications ≤ subsided.stats.valueMapNotifications ∧
    ((State.after []).moveTo (.between ∅ {⟨"n"⟩})).1.maps ≠ ∅ := by
  have hfits : (TopologyChange.between ∅ {⟨"n"⟩}).Fits (State.after []).reachable :=
    TopologyChange.fits_between _ _
  have hmaps := (notifications_paired.2.1 [] (.between ∅ {⟨"n"⟩}) _ _
    (State.applyTopology_eq_ok_iff.2 ⟨hfits, rfl⟩)).1
  have ho : subsided.outbox = [] := by decide +kernel
  obtain ⟨⟨hsent, -⟩, hstats⟩ :=
    notifications_paired.2.2.1 .cancel commotion subsided (Option.some_get _).symm
  rw [ho, List.append_nil] at hsent
  exact ⟨by decide +kernel, ho, by decide +kernel, hsent, (hstats ho).1, hmaps.2 (by decide +kernel)⟩

end Activity

end OverlayWatch
