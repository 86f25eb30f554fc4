import OverlayWatch.Service
import OverlayWatch.Text.Quoted

/-!
# The logging observer

An observer that does nothing but log each call: the properties that came, changed and went as lists
of their texts, and every node's new map, or that it is gone.

* `Call.events`   what it logs of a call;
* `logTarget`     the target under which it logs.
-/

namespace OverlayWatch

def logTarget : String := "nodeprops_replay"

def PropertySet.listText (s : PropertySet) : String :=
  Text.bracketed ((PropertySet.displays s).map Text.quote)

def ValueMap.mapText (m : ValueMap) : String :=
  Text.braced (m.toList.map fun e => (Text.quote e.1, Text.quote e.2))

def Call.events : Call → List Event
  | .properties c =>
    [.propertiesSeen (PropertySet.listText c.added) (PropertySet.listText c.updated)
      (PropertySet.listText c.removed)]
  | .valueMaps maps => maps.toList.map fun e =>
    match e.2 with
    | some values => .valueMapSeen e.1.name (ValueMap.mapText values)
    | none => .nodeLost e.1.name

end OverlayWatch
