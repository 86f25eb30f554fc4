import Mathlib.Tactic.Tauto
import OverlayWatch.Topology

/-!
# Topology changes that fit

* `TopologyChange.Fits`            the four rules that a change keeps against the previous set;
* `TopologyChange.checkWith_eq_ok_iff`   the check passes exactly the changes that fit;
* `TopologyChange.fits_iff_eq_between`   of all changes to a set, only the difference to it fits;
* `TopologyFault.Holds`            a fault says something true: its rule is broken, and by its node;
* `TopologyFault.place`            the place of its rule in the order of the four;
* `Pick.naming`                    an order in which a given node comes first;
* `TopologyChange.check_truthful`  a refused change is told the first rule that it breaks.
-/

namespace OverlayWatch

namespace TopologyChange

structure Fits (previous : NodeSet) (c : TopologyChange) : Prop where
  disjoint {node} : node ∈ c.added → node ∉ c.removed
  added_new {node} : node ∈ c.added → node ∉ previous
  removed_reachable {node} : node ∈ c.removed → node ∈ previous
  reachable_eq : c.reachable = c.implied previous

theorem Fits.mem_reachable {previous : NodeSet} {c : TopologyChange} (h : c.Fits previous)
    (node : NodeId) :
    node ∈ c.reachable ↔ (node ∈ previous ∧ node ∉ c.removed) ∨ node ∈ c.added := by
  rw [h.reachable_eq, mem_implied]

theorem checkWith_eq_ok_iff {pick : NodeSet.Pick} {previous : NodeSet} {c : TopologyChange} :
    c.checkWith pick previous = .ok () ↔ c.Fits previous := by
  unfold checkWith
  constructor
  · intro h
    split at h
    · cases h
    · cases h
    · cases h
    · rename_i h1 h2 h3
      split at h
      · rename_i h4
        simp only [pick.first?_eq_none_iff, Std.ExtTreeSet.mem_inter_iff,
          Std.ExtTreeSet.mem_diff_iff, not_and] at h1 h2 h3
        exact ⟨fun ha => h1 _ ha, fun ha => h2 _ ha, fun hr => by simpa using h3 _ hr, h4⟩
      · cases h
  · intro h
    have h1 : pick.first? (c.added ∩ c.removed) = none :=
      pick.first?_eq_none_iff.2 fun node hn =>
        h.disjoint (Std.ExtTreeSet.mem_inter_iff.1 hn).1 (Std.ExtTreeSet.mem_inter_iff.1 hn).2
    have h2 : pick.first? (c.added ∩ previous) = none :=
      pick.first?_eq_none_iff.2 fun node hn =>
        h.added_new (Std.ExtTreeSet.mem_inter_iff.1 hn).1 (Std.ExtTreeSet.mem_inter_iff.1 hn).2
    have h3 : pick.first? (c.removed \ previous) = none :=
      pick.first?_eq_none_iff.2 fun node hn =>
        (Std.ExtTreeSet.mem_diff_iff.1 hn).2 (h.removed_reachable (Std.ExtTreeSet.mem_diff_iff.1 hn).1)
    rw [h1, h2, h3]
    exact if_pos h.reachable_eq

theorem check_eq_ok_iff {previous : NodeSet} {c : TopologyChange} :
    c.check previous = .ok () ↔ c.Fits previous := checkWith_eq_ok_iff

theorem fits_between (previous next : NodeSet) : (between previous next).Fits previous where
  disjoint ha hr := (mem_removed_between.1 hr).2 (mem_added_between.1 ha).1
  added_new ha := (mem_added_between.1 ha).2
  removed_reachable hr := (mem_removed_between.1 hr).1
  reachable_eq := by
    apply Std.ExtTreeSet.ext_mem
    intro node
    rw [mem_implied, mem_removed_between, mem_added_between]
    show node ∈ next ↔ _
    tauto

theorem eq_between_iff {previous : NodeSet} {c : TopologyChange} : c = between previous c.reachable ↔
    c.added = c.reachable \ previous ∧ c.removed = previous \ c.reachable := by
  refine ⟨fun h => ⟨congrArg added h, congrArg removed h⟩, fun h => ?_⟩
  obtain ⟨hadded, hremoved⟩ := h
  calc c = ⟨c.reachable, c.added, c.removed⟩ := rfl
    _ = between previous c.reachable := by rw [hadded, hremoved, between]

theorem fits_iff_eq_between {previous : NodeSet} {c : TopologyChange} :
    c.Fits previous ↔ c = between previous c.reachable := by
  constructor
  · intro h
    have hadded : c.added = c.reachable \ previous := by
      apply Std.ExtTreeSet.ext_mem
      intro node
      rw [Std.ExtTreeSet.mem_diff_iff, h.mem_reachable]
      have hn : node ∈ c.added → node ∉ previous := h.added_new
      tauto
    have hremoved : c.removed = previous \ c.reachable := by
      apply Std.ExtTreeSet.ext_mem
      intro node
      rw [Std.ExtTreeSet.mem_diff_iff, h.mem_reachable]
      have hp : node ∈ c.removed → node ∈ previous := h.removed_reachable
      have hd : node ∈ c.added → node ∉ c.removed := h.disjoint
      tauto
    exact eq_between_iff.2 ⟨hadded, hremoved⟩
  · intro h
    rw [h]
    exact fits_between previous c.reachable

end TopologyChange

/-! ## what a refused change is told -/

namespace TopologyFault

/-- the node that is named breaks the rule; the numbers are the sizes of two sets that differ -/
def Holds (previous : NodeSet) (c : TopologyChange) : TopologyFault → Prop
  | .addedAndRemoved node => node ∈ c.added ∧ node ∈ c.removed
  | .alreadyReachable node => node ∈ c.added ∧ node ∈ previous
  | .notReachable node => node ∈ c.removed ∧ node ∉ previous
  | .wrongImage reported implied =>
    c.reachable ≠ (previous \ c.removed) ∪ c.added ∧ reported = c.reachable.size ∧
      implied = ((previous \ c.removed) ∪ c.added).size

/-- added and removed are disjoint, what is added is new, what is removed was reachable, and the
reachable set is what the two lead to -/
def place : TopologyFault → Nat
  | .addedAndRemoved _ => 0
  | .alreadyReachable _ => 1
  | .notReachable _ => 2
  | .wrongImage _ _ => 3

end TopologyFault

/-- a node that is come across before any other -/
def NodeSet.Pick.naming (node : NodeId) : NodeSet.Pick where
  first? s := if node ∈ s then some node else Pick.least.first? s
  first?_eq_none_iff := by
    intro s
    by_cases h : node ∈ s
    · rw [if_pos h]
      exact iff_of_false (by simp) fun hn => hn node h
    · rw [if_neg h]
      exact Pick.least.first?_eq_none_iff
  mem_of_first? := by
    intro s other h
    split at h
    · rename_i hn
      obtain rfl := Option.some.inj h
      exact hn
    · exact Pick.least.mem_of_first? h

theorem NodeSet.Pick.first?_naming {s : NodeSet} {node : NodeId} (h : node ∈ s) :
    (NodeSet.Pick.naming node).first? s = some node :=
  if_pos h

namespace TopologyChange

variable {previous : NodeSet} {c : TopologyChange} {pick : NodeSet.Pick} {fault : TopologyFault}

/-- no node breaks a rule if none is come across -/
theorem first?_eq_none_iff_disjoint : pick.first? (c.added ∩ c.removed) = none ↔
    ∀ node, ¬ (TopologyFault.addedAndRemoved node).Holds previous c := by
  simp only [pick.first?_eq_none_iff, Std.ExtTreeSet.mem_inter_iff, TopologyFault.Holds]

theorem first?_eq_none_iff_added_new : pick.first? (c.added ∩ previous) = none ↔
    ∀ node, ¬ (TopologyFault.alreadyReachable node).Holds previous c := by
  simp only [pick.first?_eq_none_iff, Std.ExtTreeSet.mem_inter_iff, TopologyFault.Holds]

theorem first?_eq_none_iff_removed_reachable : pick.first? (c.removed \ previous) = none ↔
    ∀ node, ¬ (TopologyFault.notReachable node).Holds previous c := by
  simp only [pick.first?_eq_none_iff, Std.ExtTreeSet.mem_diff_iff, TopologyFault.Holds]

/-- no rule before the one that is told is broken -/
theorem holds_of_check (h : c.checkWith pick previous = .error fault) : fault.Holds previous c ∧
    ∀ other : TopologyFault, other.place < fault.place → ¬ other.Holds previous c := by
  unfold checkWith at h
  split at h
  · rename_i node _ _ h1
    cases h
    exact ⟨Std.ExtTreeSet.mem_inter_iff.1 (pick.mem_of_first? h1), fun other ho => by cases ho⟩
  · rename_i node _ h1 h2
    cases h
    refine ⟨Std.ExtTreeSet.mem_inter_iff.1 (pick.mem_of_first? h2), fun other ho => ?_⟩
    cases other with
    | addedAndRemoved other => exact first?_eq_none_iff_disjoint.1 h1 other
    | _ => simp [TopologyFault.place] at ho
  · rename_i node h1 h2 h3
    cases h
    refine ⟨Std.ExtTreeSet.mem_diff_iff.1 (pick.mem_of_first? h3), fun other ho => ?_⟩
    cases other with
    | addedAndRemoved other => exact first?_eq_none_iff_disjoint.1 h1 other
    | alreadyReachable other => exact first?_eq_none_iff_added_new.1 h2 other
    | _ => simp [TopologyFault.place] at ho
  · rename_i h1 h2 h3
    split at h
    · cases h
    · rename_i hne
      cases h
      refine ⟨⟨hne, rfl, rfl⟩, fun other ho => ?_⟩
      cases other with
      | addedAndRemoved other => exact first?_eq_none_iff_disjoint.1 h1 other
      | alreadyReachable other => exact first?_eq_none_iff_added_new.1 h2 other
      | notReachable other => exact first?_eq_none_iff_removed_reachable.1 h3 other
      | wrongImage reported implied => exact absurd ho (Nat.lt_irrefl _)

/-- whatever breaks the first broken rule is told if it is come across first -/
theorem exists_pick (h : fault.Holds previous c)
    (hn : ∀ other : TopologyFault, other.place < fault.place → ¬ other.Holds previous c) :
    ∃ pick : NodeSet.Pick, c.checkWith pick previous = .error fault := by
  have disjoint : ∀ pick : NodeSet.Pick, 0 < fault.place →
      pick.first? (c.added ∩ c.removed) = none := fun pick hp =>
    first?_eq_none_iff_disjoint.2 fun node => hn (.addedAndRemoved node) hp
  have added_new : ∀ pick : NodeSet.Pick, 1 < fault.place →
      pick.first? (c.added ∩ previous) = none := fun pick hp =>
    first?_eq_none_iff_added_new.2 fun node => hn (.alreadyReachable node) hp
  have removed_reachable : ∀ pick : NodeSet.Pick, 2 < fault.place →
      pick.first? (c.removed \ previous) = none := fun pick hp =>
    first?_eq_none_iff_removed_reachable.2 fun node => hn (.notReachable node) hp
  cases fault with
  | addedAndRemoved node =>
    refine ⟨.naming node, ?_⟩
    rw [checkWith, NodeSet.Pick.first?_naming (Std.ExtTreeSet.mem_inter_iff.2 h)]
  | alreadyReachable node =>
    refine ⟨.naming node, ?_⟩
    rw [checkWith, disjoint _ Nat.zero_lt_one,
      NodeSet.Pick.first?_naming (Std.ExtTreeSet.mem_inter_iff.2 h)]
  | notReachable node =>
    refine ⟨.naming node, ?_⟩
    rw [checkWith, disjoint _ Nat.zero_lt_two, added_new _ Nat.one_lt_two,
      NodeSet.Pick.first?_naming (Std.ExtTreeSet.mem_diff_iff.2 h)]
  | wrongImage reported implied =>
    obtain ⟨hne, rfl, rfl⟩ := h
    refine ⟨.least, ?_⟩
    have hplace : ∀ n, n < 3 → n < (TopologyFault.wrongImage c.reachable.size
      (c.implied previous).size).place := fun _ hl => hl
    rw [checkWith, disjoint _ (hplace 0 (by decide)), added_new _ (hplace 1 (by decide)),
      removed_reachable _ (hplace 2 (by decide))]
    exact if_neg hne

/-- **Exactly the differences pass, and a refusal is true**: a change is accepted if it adds what its
reachable set has and the previous one has not, and removes what it is the other way round, in whatever
order sets are gone through.  Any other change is malformed.  It is told the first rule that it breaks,
with a node that breaks it, or with the sizes of its reachable set and of the one that it leads to; and
each of the nodes that break this rule is the one that is named in some order. -/
theorem check_truthful (previous : NodeSet) (c : TopologyChange) :
    let difference := c.added = c.reachable \ previous ∧ c.removed = previous \ c.reachable
    (∀ pick : NodeSet.Pick, c.checkWith pick previous = .ok () ↔ difference) ∧
    (difference ↔ c = between previous c.reachable) ∧
    (¬ difference → ∀ pick : NodeSet.Pick, ∃ fault, c.checkWith pick previous = .error fault ∧
      fault.stateFault = .rejected (.malformedTopology fault.detail) ∧
      fault.Holds previous c ∧
      ∀ other : TopologyFault, other.place < fault.place → ¬ other.Holds previous c) ∧
    ∀ fault : TopologyFault, fault.Holds previous c →
      (∀ other : TopologyFault, other.place < fault.place → ¬ other.Holds previous c) →
      ∃ pick : NodeSet.Pick, c.checkWith pick previous = .error fault := by
  intro difference
  have hok : ∀ pick : NodeSet.Pick, c.checkWith pick previous = .ok () ↔ difference := fun _ =>
    checkWith_eq_ok_iff.trans (fits_iff_eq_between.trans eq_between_iff)
  refine ⟨hok, eq_between_iff.symm, fun hd pick => ?_, fun fault => exists_pick⟩
  cases hc : c.checkWith pick previous with
  | error fault =>
    obtain ⟨holds, first⟩ := holds_of_check hc
    exact ⟨fault, rfl, rfl, holds, first⟩
  | ok => exact absurd ((hok pick).1 hc) hd

/-- two rules are broken, and the first of them by one node only -/
example : (⟨{⟨"b"⟩}, {⟨"a"⟩}, {⟨"a"⟩, ⟨"b"⟩}⟩ : TopologyChange).check ∅
    = .error (.addedAndRemoved ⟨"a"⟩) := by cbv

end TopologyChange

end OverlayWatch
