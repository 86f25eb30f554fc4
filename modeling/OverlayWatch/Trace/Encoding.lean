import OverlayWatch.Json.Codec
import OverlayWatch.Trace

/-!
# The JSON form of traces and their parts

* `NodeId.codec`           a string, outer blanks not counting;
* `Property.codec`         `node_id`, `key` and, unless it is a tombstone, `value`;
* `TopologyChange.codec`   `new_reachable`, `added` and `removed`;
* `Step.codec`             tagged by `type`: `properties` or `topology`;
* `Trace.codec`            `steps`;
* `toJson`                 the value of each of them that its codec reads back.

The shapes are given the codec of the node ids in them; all other codecs are the same whatever it is.
-/

namespace OverlayWatch

open Json

/-- what is missing is the field of that name -/
def Json.Mismatch.demand {α : Type} (name : String) : Option α → Except Mismatch α
  | some a => .ok a
  | none => .error (.missingField name)

/-- a record of one field, which must be there -/
def Json.RecordShape.single {α β : Type} (title name : String) (c : Codec β) (make : β → α) :
    RecordShape (Option β) α where
  title := title
  blank := none
  fields := [⟨name, false, Option.isSome, c.map fun b _ => some b⟩]
  finish b? := (Mismatch.demand name b?).map make

/-! ## node ids -/

def NodeId.codec : Codec NodeId :=
  Codec.string.refine fun text => (NodeId.parse text).mapError .invalidContent

def NodeId.toJson (node : NodeId) : Value := .string node.name

def NodeSet.codecOf (ids : Codec NodeId) : Codec NodeSet := ids.list.map fun nodes => .ofList nodes

def NodeSet.toJson (nodes : NodeSet) : Value := .array (nodes.toList.map NodeId.toJson)

/-! ## properties -/

namespace Property

structure Draft where
  node : Option NodeId
  key : Option String
  value : Option (Option String)

def Draft.finish (d : Draft) : Except Mismatch Property := do
  let node ← Mismatch.demand "node_id" d.node
  let key ← Mismatch.demand "key" d.key
  return ⟨node, key, d.value.join⟩

def shape (ids : Codec NodeId) : RecordShape Draft Property where
  title := "struct NodeProperty"
  blank := ⟨none, none, none⟩
  fields := [
    ⟨"node_id", false, fun d => d.node.isSome,
      ids.map fun node d => { d with node := some node }⟩,
    ⟨"key", false, fun d => d.key.isSome, Codec.string.map fun key d => { d with key := some key }⟩,
    ⟨"value", true, fun d => d.value.isSome,
      Codec.string.nullable.map fun value d => { d with value := some value }⟩]
  finish := Draft.finish

def codecOf (ids : Codec NodeId) : Codec Property := (shape ids).codec

def codec : Codec Property := codecOf NodeId.codec

def toJson (p : Property) : Value :=
  .object [("node_id", p.node.toJson), ("key", .string p.key),
    ("value", p.value.elim .null .string)]

end Property

/-! ## topology changes -/

namespace TopologyChange

structure Draft where
  reachable : Option NodeSet
  added : Option NodeSet
  removed : Option NodeSet

def Draft.finish (d : Draft) : Except Mismatch TopologyChange := do
  let reachable ← Mismatch.demand "new_reachable" d.reachable
  let added ← Mismatch.demand "added" d.added
  let removed ← Mismatch.demand "removed" d.removed
  return ⟨reachable, added, removed⟩

def shape (ids : Codec NodeId) : RecordShape Draft TopologyChange where
  title := "struct TopologyChange"
  blank := ⟨none, none, none⟩
  fields := [
    ⟨"new_reachable", false, fun d => d.reachable.isSome,
      (NodeSet.codecOf ids).map fun nodes d => { d with reachable := some nodes }⟩,
    ⟨"added", false, fun d => d.added.isSome,
      (NodeSet.codecOf ids).map fun nodes d => { d with added := some nodes }⟩,
    ⟨"removed", false, fun d => d.removed.isSome,
      (NodeSet.codecOf ids).map fun nodes d => { d with removed := some nodes }⟩]
  finish := Draft.finish

def codecOf (ids : Codec NodeId) : Codec TopologyChange := (shape ids).codec

def codec : Codec TopologyChange := codecOf NodeId.codec

def toJson (c : TopologyChange) : Value :=
  .object [("new_reachable", NodeSet.toJson c.reachable), ("added", NodeSet.toJson c.added),
    ("removed", NodeSet.toJson c.removed)]

end TopologyChange

/-! ## steps and traces -/

namespace Step

def propertiesShape (ids : Codec NodeId) : RecordShape (Option (List Property)) Step :=
  .single "struct variant TraceStep::Properties" "properties" (Property.codecOf ids).list .properties

def topologyShape (ids : Codec NodeId) : RecordShape (Option NodeSet) Step :=
  .single "struct variant TraceStep::Topology" "reachable" (NodeSet.codecOf ids) .topology

def shape (ids : Codec NodeId) : TaggedShape Step where
  title := "internally tagged enum TraceStep"
  tagName := "type"
  variants := [("properties", (propertiesShape ids).ofValue),
    ("topology", (topologyShape ids).ofValue)]

def codecOf (ids : Codec NodeId) : Codec Step := (shape ids).codec

def codec : Codec Step := codecOf NodeId.codec

def toJson : Step → Value
  | .properties batch =>
    .object [("type", .string "properties"), ("properties", .array (batch.map Property.toJson))]
  | .topology reachable =>
    .object [("type", .string "topology"), ("reachable", NodeSet.toJson reachable)]

end Step

namespace Trace

def shape (ids : Codec NodeId) : RecordShape (Option (List Step)) Trace :=
  .single "struct Trace" "steps" (Step.codecOf ids).list .mk

def codecOf (ids : Codec NodeId) : Codec Trace := (shape ids).codec

def codec : Codec Trace := codecOf NodeId.codec

def toJson (t : Trace) : Value := .object [("steps", .array (t.steps.map Step.toJson))]

def ofText (text : String) : Except Error Trace := codec.decode text

end Trace

end OverlayWatch
