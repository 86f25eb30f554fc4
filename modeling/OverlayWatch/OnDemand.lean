import Std.Data.ExtTreeMap
import OverlayWatch.Text.Quoted

/-!
# Maps that make their entries on demand

Looking an entry up for change makes it first when it is missing; looking it up to read never does.

* `OnDemandMap.touch`    the entry of a key, made if missing;
* `OnDemandMap.modify`   the same, then changed;
* `get?`, `contains`, `keys`, `toList`, `size`   only read.
-/

namespace OverlayWatch

structure OnDemandMap (α β : Type) [Ord α] where
  entries : Std.ExtTreeMap α β
  make : α → β

namespace OnDemandMap

variable {α β : Type} [Ord α] [Std.TransOrd α]

def empty (make : α → β) : OnDemandMap α β := ⟨∅, make⟩

def get? (m : OnDemandMap α β) (key : α) : Option β := m.entries[key]?

def contains (m : OnDemandMap α β) (key : α) : Bool := m.entries.contains key

def keys (m : OnDemandMap α β) : List α := m.entries.keys

def toList (m : OnDemandMap α β) : List (α × β) := m.entries.toList

def size (m : OnDemandMap α β) : Nat := m.entries.size

def isEmpty (m : OnDemandMap α β) : Bool := m.entries.isEmpty

def modify (m : OnDemandMap α β) (key : α) (f : β → β) : β × OnDemandMap α β :=
  let value := f (m.entries.getD key (m.make key))
  (value, { m with entries := m.entries.insert key value })

def touch (m : OnDemandMap α β) (key : α) : β × OnDemandMap α β := m.modify key id

theorem get?_modify_self [Std.LawfulEqOrd α] (m : OnDemandMap α β) (key : α) (f : β → β) :
    (m.modify key f).2.get? key = some (m.modify key f).1 := by
  simp [modify, get?]

/-- texts quoted, numbers in brackets -/
def debugText (m : OnDemandMap String (List Int)) : String :=
  Text.braced (m.toList.map fun e => (Text.quote e.1, Text.bracketed (e.2.map toString)))

end OnDemandMap

end OverlayWatch
