import Std.Data.ExtTreeSet
import Std.Data.ExtTreeMap
import OverlayWatch.Fault
import OverlayWatch.Text.Blank

/-!
# Node ids

A node of the overlay is known by a name.  Two ids are equal when their names are, and they are
ordered as their names are, by code points.

* `NodeId.parse`   reads an id from text: outer blanks do not count, and something must be left;
* `NodeSet`        a finite set of ids; sets with the same members are equal;
* `NodeSet.Pick`   an order in which sets are gone through, by what comes first of each;
* `Pick.least`     the order of the ids.
-/

namespace OverlayWatch

structure NodeId where
  name : String
deriving DecidableEq, Repr

instance : Ord NodeId := ⟨compareOn NodeId.name⟩

instance : Std.TransOrd NodeId := inferInstanceAs (Std.TransCmp (compareOn NodeId.name))

instance : Std.LawfulEqOrd NodeId where
  eq_of_compare h := by
    have h := Std.LawfulEqOrd.eq_of_compare (α := String) h
    exact congrArg NodeId.mk h

abbrev NodeSet := Std.ExtTreeSet NodeId

namespace NodeSet

/-- which member of a set is come across first, if it has one -/
structure Pick where
  first? : NodeSet → Option NodeId
  first?_eq_none_iff {s : NodeSet} : first? s = none ↔ ∀ node, node ∉ s
  mem_of_first? {s : NodeSet} {node : NodeId} : first? s = some node → node ∈ s

def Pick.least : Pick where
  first? s := s.toList.head?
  first?_eq_none_iff := by
    intro s
    rw [List.head?_eq_none_iff, Std.ExtTreeSet.toList_eq_nil_iff,
      Std.ExtTreeSet.eq_empty_iff_forall_not_mem]
  mem_of_first? h := Std.ExtTreeSet.mem_toList.1 (List.mem_of_head? h)

end NodeSet

/-! ## reading an id -/

def NodeId.parse (text : String) : Except InputFault NodeId :=
  match Text.trim text.toList with
  | [] => .error (.invalidNodeId text)
  | name => .ok ⟨String.ofList name⟩

end OverlayWatch
