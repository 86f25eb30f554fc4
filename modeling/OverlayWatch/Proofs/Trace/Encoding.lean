import OverlayWatch.Proofs.Json.Agreement
import OverlayWatch.Proofs.Json.Counterparts
import OverlayWatch.Proofs.Node
import OverlayWatch.Trace.Encoding

/-!
# Traces and their parts through JSON and back

What is written is read back as it was, in whatever order the members of its sets are written, as long as
its ids are such as are read.  And whatever text is read, what comes out of it has only such ids: the
blanks are gone from their ends, and a text with a blank id in it does not get through.

* `Form`               a type with ids in it: how it is read and written, and its ids;
* `Form.verbatim`      the same decoder with the ids taken as they stand in the text;
* `Form.Faithful`      the round trip, and what decoding makes of the ids;
* `Property.form` and the like   properties, topology changes, steps and traces;
* `agrees_codec`, `ofValue_written`, `mirrors_verbatim`   what each of them brings along;
* `Form.Faithful.of`   and that is enough;
* `Trace.json_faithful`   all four are faithful.
-/

namespace OverlayWatch

open Json

/-! ## forms -/

namespace NodeId

/-- takes an id as it stands in the text -/
def verbatim : Codec NodeId := Codec.string.map NodeId.mk

def Reads (node raw : NodeId) : Prop := parse raw.name = .ok node

/-- whatever is on the left stands on the right, and whatever is on the right is read -/
def ReadsAll (nodes raws : List NodeId) : Prop :=
  (∀ node ∈ nodes, ∃ raw ∈ raws, Reads node raw) ∧ ∀ raw ∈ raws, ∃ node ∈ nodes, Reads node raw

end NodeId

structure Form (α : Type) where
  /-- the decoder, given how ids are read -/
  codecOf : Codec NodeId → Codec α
  toJson : α → Value
  /-- the values that it can be written as: the members of a set come in any order -/
  Writes : α → Value → Prop
  ids : α → List NodeId

namespace Form

variable {α : Type} (form : Form α)

def codec : Codec α := form.codecOf NodeId.codec

def verbatim : Codec α := form.codecOf NodeId.verbatim

/-- all its ids are such as are read -/
def IsCanonical (a : α) : Prop := ∀ node ∈ form.ids a, node.IsCanonical

structure Faithful : Prop where
  writes_toJson (a : α) : form.Writes a (form.toJson a)
  /-- the text of what is written reads as what it was written for -/
  decode_written {a : α} {v : Value} : form.IsCanonical a → form.Writes a v →
    form.codec.decode v.text = .ok a
  /-- what comes out of a text are the ids that stand in it, each read by itself -/
  reads_verbatim {text : String} {a : α} : form.codec.decode text = .ok a →
    ∃ raw, form.verbatim.decode text = .ok raw ∧ NodeId.ReadsAll (form.ids a) (form.ids raw)
  /-- so whatever the text, no other ids come out of it -/
  isCanonical_of_decode {text : String} {a : α} : form.codec.decode text = .ok a → form.IsCanonical a
  /-- and what has been read can be written and read again -/
  decode_rewritten {text : String} {a : α} {v : Value} : form.codec.decode text = .ok a →
    form.Writes a v → form.codec.decode v.text = .ok a
  /-- a blank id anywhere in the text, and nothing is read -/
  rejects_blank {text : String} {raw : α} {node : NodeId} : form.verbatim.decode text = .ok raw →
    node ∈ form.ids raw → node.IsBlank → ∃ e, form.codec.decode text = .error e

end Form

/-! ### the four forms -/

/-- an array of the members in some order -/
def NodeSet.Writes (nodes : NodeSet) (v : Value) : Prop :=
  ∃ l : List NodeId, l.Perm nodes.toList ∧ v = .array (l.map NodeId.toJson)

def Property.form : Form Property where
  codecOf := Property.codecOf
  toJson := Property.toJson
  Writes p v := v = p.toJson
  ids p := [p.node]

def TopologyChange.form : Form TopologyChange where
  codecOf := TopologyChange.codecOf
  toJson := TopologyChange.toJson
  Writes c v := ∃ reachable added removed, NodeSet.Writes c.reachable reachable ∧
    NodeSet.Writes c.added added ∧ NodeSet.Writes c.removed removed ∧
    v = .object [("new_reachable", reachable), ("added", added), ("removed", removed)]
  ids c := c.reachable.toList ++ c.added.toList ++ c.removed.toList

namespace Step

def Writes : Step → Value → Prop
  | .properties batch, v => v = (properties batch).toJson
  | .topology nodes, v => ∃ reachable, NodeSet.Writes nodes reachable ∧
    v = .object [("type", .string "topology"), ("reachable", reachable)]

def ids : Step → List NodeId
  | .properties batch => batch.flatMap Property.form.ids
  | .topology nodes => nodes.toList

def form : Form Step where
  codecOf := Step.codecOf
  toJson := Step.toJson
  Writes := Writes
  ids := ids

end Step

def Trace.form : Form Trace where
  codecOf := Trace.codecOf
  toJson := Trace.toJson
  Writes t v := ∃ steps, List.Forall₂ Step.Writes t.steps steps ∧
    v = .object [("steps", .array steps)]
  ids t := t.steps.flatMap Step.ids

/-! ## ids as they stand and as they are read -/

namespace NodeId

theorem ReadsAll.append {l m l' m' : List NodeId} (h : ReadsAll l m) (h' : ReadsAll l' m') :
    ReadsAll (l ++ l') (m ++ m') := by
  constructor
  · intro node hn
    rcases List.mem_append.1 hn with hn | hn
    · obtain ⟨raw, hr, hread⟩ := h.1 node hn
      exact ⟨raw, List.mem_append_left _ hr, hread⟩
    · obtain ⟨raw, hr, hread⟩ := h'.1 node hn
      exact ⟨raw, List.mem_append_right _ hr, hread⟩
  · intro raw hr
    rcases List.mem_append.1 hr with hr | hr
    · obtain ⟨node, hn, hread⟩ := h.2 raw hr
      exact ⟨node, List.mem_append_left _ hn, hread⟩
    · obtain ⟨node, hn, hread⟩ := h'.2 raw hr
      exact ⟨node, List.mem_append_right _ hn, hread⟩

theorem readsAll_flatMap {α : Type} {ids : α → List NodeId} {l m : List α}
    (h : List.Forall₂ (fun a b => ReadsAll (ids a) (ids b)) l m) :
    ReadsAll (l.flatMap ids) (m.flatMap ids) := by
  induction h with
  | nil => exact ⟨nofun, nofun⟩
  | cons hab _ ih =>
    rw [List.flatMap_cons, List.flatMap_cons]
    exact hab.append ih

theorem readsAll_singleton {node raw : NodeId} (h : Reads node raw) : ReadsAll [node] [raw] :=
  ⟨by simpa using h, by simpa using h⟩

theorem mirrors_verbatim : NodeId.codec.Mirrors Reads NodeId.verbatim :=
  .of_refine _ fun text node h => by
    cases hp : NodeId.parse text with
    | error fault =>
      rw [hp] at h
      cases h
    | ok found =>
      rw [hp] at h
      obtain rfl := Except.ok.inj h
      exact hp

end NodeId

theorem NodeSet.mirrors_verbatim :
    (NodeSet.codecOf NodeId.codec).Mirrors (fun a b => NodeId.ReadsAll a.toList b.toList)
      (NodeSet.codecOf NodeId.verbatim) := by
  refine NodeId.mirrors_verbatim.list.map fun l m h => ?_
  have hall := NodeId.readsAll_flatMap (h.imp fun _ _ => NodeId.readsAll_singleton)
  rw [List.flatMap_singleton', List.flatMap_singleton'] at hall
  have hm : ∀ (l : List NodeId) (node : NodeId),
      node ∈ (Std.ExtTreeSet.ofList l).toList ↔ node ∈ l := by
    intro l node
    rw [Std.ExtTreeSet.mem_toList, Std.ExtTreeSet.mem_ofList, List.contains_iff_mem]
  simpa only [NodeId.ReadsAll, hm] using hall

/-! ## fields -/

namespace Json

variable {α β γ δ : Type}

theorem Codec.ofValue_map {c : Codec α} {v : Value} {a : α} (h : c.ofValue v = .ok a) (f : α → β) :
    (c.map f).ofValue v = .ok (f a) :=
  congrArg (Except.map f) h

namespace RecordShape

theorem takeField_eq {σ : Type} {shape : RecordShape σ α} {name : String} {f : Field σ} {acc : σ}
    {v : Value} {fill : σ → σ} (hf : (shape.fields.find? fun f => f.name == name) = some f)
    (hn : f.isFilled acc = false) (h : f.codec.ofValue v = .ok fill) :
    shape.takeField acc (name, v) = .ok (fill acc) := by
  rw [takeField, hf]
  show (if f.isFilled acc = true then _ else _) = _
  rw [hn, if_neg Bool.false_ne_true, h]
  rfl

variable {title name : String} {c : Codec β} {make : β → α}

theorem agrees_single (h : c.Agrees) : (single title name c make).codec.Agrees :=
  agrees fun f hf => by
    obtain rfl := List.mem_singleton.1 hf
    exact Codec.agrees_map h _

theorem ofValue_single {b : β} {v : Value} (h : c.ofValue v = .ok b) :
    (single title name c make).ofValue (.object [(name, v)]) = .ok (make b) := by
  have hf : ((single title name c make).fields.find? fun f => f.name == name) =
      some ⟨name, false, Option.isSome, c.map fun b _ => some b⟩ := by
    simp [single]
  have htake : (single title name c make).takeField none (name, v) = .ok (some b) :=
    takeField_eq hf rfl (Codec.ofValue_map h _)
  exact bind_eq_ok_iff.2 ⟨some b, bind_eq_ok_iff.2 ⟨_, htake, rfl⟩, rfl⟩

theorem mirrors_single {R : β → δ → Prop} {S : α → γ → Prop} {c' : Codec δ} {make' : δ → γ}
    (h : c.Mirrors R c') (hm : ∀ b d, R b d → S (make b) (make' d)) :
    (single title name c make).codec.Mirrors S (single title name c' make').codec := by
  refine Mirrors.codec (S := Option.Rel R) ⟨.cons ?_ .nil, .none, ?_⟩
  · exact Field.mirrors_of_map h (fun _ _ => rel_isSome) fun b d hbd _ _ _ => .some hbd
  · intro b? d? hbd
    cases hbd with
    | none => exact .error _
    | some hbd => exact .ok (hm _ _ hbd)

end RecordShape

end Json

/-! ## ids -/

theorem NodeId.agrees_codec : NodeId.codec.Agrees :=
  Codec.agrees_refine Codec.agrees_string _

theorem NodeId.ofValue_toJson {node : NodeId} (h : node.IsCanonical) :
    NodeId.codec.ofValue node.toJson = .ok node := by
  show (NodeId.parse node.name).mapError _ = _
  rw [NodeId.parse_name h]
  rfl

namespace NodeSet

theorem agrees_codec : (codecOf NodeId.codec).Agrees :=
  Codec.agrees_map (Codec.agrees_list NodeId.agrees_codec) _

variable {nodes : NodeSet} {v : Value}

theorem writes_toJson (nodes : NodeSet) : nodes.Writes nodes.toJson :=
  ⟨nodes.toList, .refl _, rfl⟩

/-- the order of the members makes no difference -/
theorem ofValue_written (h : ∀ node ∈ nodes.toList, node.IsCanonical) (hw : nodes.Writes v) :
    (codecOf NodeId.codec).ofValue v = .ok nodes := by
  obtain ⟨l, hl, rfl⟩ := hw
  have hm : (l.map NodeId.toJson).mapM NodeId.codec.ofValue = .ok l := by
    rw [mapM_eq_ok_iff, List.forall₂_map_left_iff, List.forall₂_same]
    exact fun node hn => NodeId.ofValue_toJson (h node (hl.mem_iff.1 hn))
  show ((l.map NodeId.toJson).mapM NodeId.codec.ofValue).map _ = _
  rw [hm]
  show Except.ok (Std.ExtTreeSet.ofList l) = _
  congr 1
  apply Std.ExtTreeSet.ext_mem
  intro node
  rw [Std.ExtTreeSet.mem_ofList, List.contains_iff_mem, hl.mem_iff, Std.ExtTreeSet.mem_toList]

theorem fits_written (hw : nodes.Writes v) (depth : Nat) : v.Fits (depth + 2) := by
  obtain ⟨l, -, rfl⟩ := hw
  refine ⟨Nat.succ_ne_zero _, fun v hv => ?_⟩
  obtain ⟨node, -, rfl⟩ := List.mem_map.1 hv
  trivial

end NodeSet

/-! ## properties -/

namespace Property

theorem agrees_codec : codec.Agrees :=
  RecordShape.agrees fun f hf => by
    simp only [shape, List.mem_cons, List.not_mem_nil, or_false] at hf
    rcases hf with rfl | rfl | rfl
    · exact Codec.agrees_map NodeId.agrees_codec _
    · exact Codec.agrees_map Codec.agrees_string _
    · exact Codec.agrees_map (Codec.agrees_nullable Codec.agrees_string) _

theorem ofValue_toJson {p : Property} (h : p.node.IsCanonical) : codec.ofValue p.toJson = .ok p := by
  have hnode : (shape NodeId.codec).takeField ⟨none, none, none⟩ ("node_id", p.node.toJson) =
      .ok ⟨some p.node, none, none⟩ :=
    (RecordShape.takeField_eq rfl rfl (Codec.ofValue_map (NodeId.ofValue_toJson h) _)).trans rfl
  have hkey : (shape NodeId.codec).takeField ⟨some p.node, none, none⟩ ("key", .string p.key) =
      .ok ⟨some p.node, some p.key, none⟩ := rfl
  have hvalue : (shape NodeId.codec).takeField ⟨some p.node, some p.key, none⟩
      ("value", p.value.elim .null .string) = .ok ⟨some p.node, some p.key, some p.value⟩ := by
    cases p.value <;> rfl
  exact bind_eq_ok_iff.2 ⟨⟨some p.node, some p.key, some p.value⟩, bind_eq_ok_iff.2 ⟨_, hnode,
    bind_eq_ok_iff.2 ⟨_, hkey, bind_eq_ok_iff.2 ⟨_, hvalue, rfl⟩⟩⟩, rfl⟩

theorem fits_toJson (p : Property) (depth : Nat) : p.toJson.Fits (depth + 2) := by
  obtain ⟨node, key, value⟩ := p
  refine ⟨Nat.succ_ne_zero _, fun f hf => ?_⟩
  simp only [List.mem_cons, List.not_mem_nil, or_false] at hf
  rcases hf with rfl | rfl | rfl
  · trivial
  · trivial
  · cases value <;> trivial

theorem mirrors_verbatim :
    (codecOf NodeId.codec).Mirrors (fun p q => NodeId.ReadsAll [p.node] [q.node])
      (codecOf NodeId.verbatim) := by
  refine RecordShape.Mirrors.codec (S := fun d d' => Option.Rel NodeId.Reads d.node d'.node ∧
    d.key = d'.key ∧ d.value = d'.value) ⟨?_, ?_, ?_⟩
  · refine .cons (Field.mirrors_of_map NodeId.mirrors_verbatim (fun d d' h => rel_isSome h.1) ?_)
      (.cons (Field.mirrors_of_map (.refl _) (fun d d' h => congrArg Option.isSome h.2.1) ?_)
        (.cons (Field.mirrors_of_map (.refl _) (fun d d' h => congrArg Option.isSome h.2.2) ?_) .nil))
    · exact fun node raw hn d d' h => ⟨.some hn, h.2⟩
    · exact fun key _ hk d d' h => ⟨h.1, congrArg some hk, h.2.2⟩
    · exact fun value _ hv d d' h => ⟨h.1, h.2.1, congrArg some hv⟩
  · exact ⟨.none, rfl, rfl⟩
  · rintro ⟨node?, key?, value?⟩ ⟨raw?, _, _⟩ ⟨hn, rfl, rfl⟩
    cases hn with
    | none => exact .error _
    | some hn =>
      cases key? with
      | none => exact .error _
      | some key => exact .ok (NodeId.readsAll_singleton hn)

end Property

/-! ## topology changes -/

namespace TopologyChange

theorem agrees_codec : codec.Agrees :=
  RecordShape.agrees fun f hf => by
    simp only [shape, List.mem_cons, List.not_mem_nil, or_false] at hf
    rcases hf with rfl | rfl | rfl <;> exact Codec.agrees_map NodeSet.agrees_codec _

variable {c : TopologyChange} {v : Value}

theorem ofValue_written (h : form.IsCanonical c) (hw : form.Writes c v) :
    codec.ofValue v = .ok c := by
  obtain ⟨reachable, added, removed, hr, ha, hd, rfl⟩ := hw
  have hr := NodeSet.ofValue_written
    (fun n hn => h n (List.mem_append_left _ (List.mem_append_left _ hn))) hr
  have ha := NodeSet.ofValue_written
    (fun n hn => h n (List.mem_append_left _ (List.mem_append_right _ hn))) ha
  have hd := NodeSet.ofValue_written (fun n hn => h n (List.mem_append_right _ hn)) hd
  have hreachable : (shape NodeId.codec).takeField ⟨none, none, none⟩ ("new_reachable", reachable) =
      .ok ⟨some c.reachable, none, none⟩ :=
    (RecordShape.takeField_eq rfl rfl (Codec.ofValue_map hr _)).trans rfl
  have hadded : (shape NodeId.codec).takeField ⟨some c.reachable, none, none⟩ ("added", added) =
      .ok ⟨some c.reachable, some c.added, none⟩ :=
    (RecordShape.takeField_eq rfl rfl (Codec.ofValue_map ha _)).trans rfl
  have hremoved : (shape NodeId.codec).takeField ⟨some c.reachable, some c.added, none⟩
      ("removed", removed) = .ok ⟨some c.reachable, some c.added, some c.removed⟩ :=
    (RecordShape.takeField_eq rfl rfl (Codec.ofValue_map hd _)).trans rfl
  exact bind_eq_ok_iff.2 ⟨⟨some c.reachable, some c.added, some c.removed⟩, bind_eq_ok_iff.2 ⟨_,
    hreachable, bind_eq_ok_iff.2 ⟨_, hadded, bind_eq_ok_iff.2 ⟨_, hremoved, rfl⟩⟩⟩, rfl⟩

theorem fits_written (hw : form.Writes c v) (depth : Nat) : v.Fits (depth + 3) := by
  obtain ⟨reachable, added, removed, hr, ha, hd, rfl⟩ := hw
  refine ⟨Nat.succ_ne_zero _, fun f hf => ?_⟩
  simp only [List.mem_cons, List.not_mem_nil, or_false] at hf
  rcases hf with rfl | rfl | rfl
  · exact NodeSet.fits_written hr depth
  · exact NodeSet.fits_written ha depth
  · exact NodeSet.fits_written hd depth

theorem mirrors_verbatim :
    (codecOf NodeId.codec).Mirrors (fun c d => NodeId.ReadsAll (form.ids c) (form.ids d))
      (codecOf NodeId.verbatim) := by
  let Sets := Option.Rel fun a b : NodeSet => NodeId.ReadsAll a.toList b.toList
  refine RecordShape.Mirrors.codec (S := fun d d' => Sets d.reachable d'.reachable ∧
    Sets d.added d'.added ∧ Sets d.removed d'.removed) ⟨?_, ?_, ?_⟩
  · have hs := NodeSet.mirrors_verbatim
    refine .cons (Field.mirrors_of_map hs (fun d d' h => rel_isSome h.1) ?_)
      (.cons (Field.mirrors_of_map hs (fun d d' h => rel_isSome h.2.1) ?_)
        (.cons (Field.mirrors_of_map hs (fun d d' h => rel_isSome h.2.2) ?_) .nil))
    · exact fun a b hab d d' h => ⟨.some hab, h.2⟩
    · exact fun a b hab d d' h => ⟨h.1, .some hab, h.2.2⟩
    · exact fun a b hab d d' h => ⟨h.1, h.2.1, .some hab⟩
  · exact ⟨.none, .none, .none⟩
  · rintro ⟨reachable?, added?, removed?⟩ ⟨reachable'?, added'?, removed'?⟩ ⟨hr, ha, hd⟩
    cases hr with
    | none => exact .error _
    | some hr =>
      cases ha with
      | none => exact .error _
      | some ha =>
        cases hd with
        | none => exact .error _
        | some hd => exact .ok ((hr.append ha).append hd)

end TopologyChange

/-! ## steps and traces -/

namespace Step

theorem agrees_codec : codec.Agrees := TaggedShape.agrees

variable {step : Step} {v : Value}

theorem writes_toJson (step : Step) : step.Writes step.toJson := by
  cases step with
  | properties batch => rfl
  | topology nodes => exact ⟨nodes.toJson, nodes.writes_toJson, rfl⟩

theorem ofValue_written (h : form.IsCanonical step) (hw : step.Writes v) :
    codec.ofValue v = .ok step := by
  cases step with
  | properties batch =>
    obtain rfl := hw
    have hbatch : (Property.codecOf NodeId.codec).list.ofValue (.array (batch.map Property.toJson)) =
        .ok batch := by
      show (batch.map Property.toJson).mapM Property.codec.ofValue = _
      rw [mapM_eq_ok_iff, List.forall₂_map_left_iff, List.forall₂_same]
      refine fun p hp => Property.ofValue_toJson (h p.node ?_)
      exact List.mem_flatMap.2 ⟨p, hp, List.mem_singleton_self _⟩
    exact RecordShape.ofValue_single hbatch
  | topology nodes =>
    obtain ⟨reachable, hr, rfl⟩ := hw
    exact RecordShape.ofValue_single (NodeSet.ofValue_written h hr)

theorem fits_written (hw : step.Writes v) (depth : Nat) : v.Fits (depth + 4) := by
  cases step with
  | properties batch =>
    obtain rfl := hw
    refine ⟨Nat.succ_ne_zero _, fun f hf => ?_⟩
    simp only [List.mem_cons, List.not_mem_nil, or_false] at hf
    rcases hf with rfl | rfl
    · trivial
    · refine ⟨Nat.succ_ne_zero _, fun v hv => ?_⟩
      obtain ⟨p, -, rfl⟩ := List.mem_map.1 hv
      exact p.fits_toJson depth
  | topology nodes =>
    obtain ⟨reachable, hr, rfl⟩ := hw
    refine ⟨Nat.succ_ne_zero _, fun f hf => ?_⟩
    simp only [List.mem_cons, List.not_mem_nil, or_false] at hf
    rcases hf with rfl | rfl
    · trivial
    · exact NodeSet.fits_written hr (depth + 1)

theorem mirrors_verbatim :
    (codecOf NodeId.codec).Mirrors (fun s t => NodeId.ReadsAll s.ids t.ids)
      (codecOf NodeId.verbatim) := by
  have hproperties : (propertiesShape NodeId.codec).codec.Mirrors
      (fun s t => NodeId.ReadsAll s.ids t.ids) (propertiesShape NodeId.verbatim).codec :=
    RecordShape.mirrors_single Property.mirrors_verbatim.list fun _ _ h => NodeId.readsAll_flatMap h
  have htopology : (topologyShape NodeId.codec).codec.Mirrors
      (fun s t => NodeId.ReadsAll s.ids t.ids) (topologyShape NodeId.verbatim).codec :=
    RecordShape.mirrors_single NodeSet.mirrors_verbatim fun _ _ h => h
  exact TaggedShape.Mirrors.codec ⟨rfl, .cons ⟨rfl, hproperties.ofValue⟩ (.cons ⟨rfl, htopology.ofValue⟩ .nil)⟩

end Step

namespace Trace

theorem agrees_codec : codec.Agrees :=
  RecordShape.agrees_single (Codec.agrees_list Step.agrees_codec)

variable {t : Trace} {v : Value}

theorem writes_toJson (t : Trace) : form.Writes t t.toJson := by
  refine ⟨t.steps.map Step.toJson, ?_, rfl⟩
  rw [List.forall₂_map_right_iff, List.forall₂_same]
  exact fun step _ => step.writes_toJson

theorem ofValue_written (h : form.IsCanonical t) (hw : form.Writes t v) : codec.ofValue v = .ok t := by
  obtain ⟨steps, hs, rfl⟩ := hw
  have hsteps : Step.codec.list.ofValue (.array steps) = .ok t.steps := by
    show steps.mapM Step.codec.ofValue = _
    rw [mapM_eq_ok_iff]
    have hc : ∀ step ∈ t.steps, Step.form.IsCanonical step := fun step hm node hn =>
      h node (List.mem_flatMap.2 ⟨step, hm, hn⟩)
    refine List.Forall₂.flip (List.Forall₂.imp ?_ ((List.forall₂_and_left _ _).2 ⟨hc, hs⟩))
    exact fun step v hw => Step.ofValue_written hw.1 hw.2
  exact RecordShape.ofValue_single hsteps

theorem fits_written (hw : form.Writes t v) (depth : Nat) : v.Fits (depth + 6) := by
  obtain ⟨steps, hs, rfl⟩ := hw
  refine ⟨Nat.succ_ne_zero _, fun f hf => ?_⟩
  obtain rfl := List.mem_singleton.1 hf
  have hf : List.Forall₂ (fun v step => v.Fits (depth + 4) ∧ step.Writes v) steps t.steps :=
    .flip (hs.imp fun _ _ hw => ⟨Step.fits_written hw depth, hw⟩)
  exact ⟨Nat.succ_ne_zero _, ((List.forall₂_and_left _ _).1 hf).1⟩

theorem mirrors_verbatim :
    (codecOf NodeId.codec).Mirrors (fun t u => NodeId.ReadsAll (form.ids t) (form.ids u))
      (codecOf NodeId.verbatim) :=
  RecordShape.mirrors_single Step.mirrors_verbatim.list fun _ _ h => NodeId.readsAll_flatMap h

end Trace

/-! ## there and back -/

theorem Form.Faithful.of {α : Type} {form : Form α} (hj : ∀ a, form.Writes a (form.toJson a))
    (hagrees : form.codec.Agrees)
    (hwritten : ∀ a v, form.IsCanonical a → form.Writes a v → form.codec.ofValue v = .ok a)
    (hfits : ∀ a v, form.Writes a v → v.Fits fullDepth)
    (hmirrors : form.codec.Mirrors (fun a b => NodeId.ReadsAll (form.ids a) (form.ids b))
      form.verbatim) : form.Faithful := by
  have hdecode : ∀ {a v}, form.IsCanonical a → form.Writes a v → form.codec.decode v.text = .ok a :=
    fun ha hw => hagrees.decode_text (hwritten _ _ ha hw) (hfits _ _ hw)
  have hverbatim := fun {text a} (ha : form.codec.decode text = .ok a) => hmirrors.decode text a ha
  have hcanonical : ∀ {text a}, form.codec.decode text = .ok a → form.IsCanonical a := by
    intro text a ha node hn
    obtain ⟨raw, -, hread, -⟩ := hverbatim ha
    obtain ⟨rawNode, -, hparse⟩ := hread node hn
    exact NodeId.isCanonical_of_parse hparse
  refine ⟨hj, hdecode, hverbatim, hcanonical, fun ha hw => hdecode (hcanonical ha) hw, ?_⟩
  intro text raw rawNode hraw hn hblank
  cases ha : form.codec.decode text with
  | error e => exact ⟨e, rfl⟩
  | ok a =>
    obtain ⟨raw', hraw', -, hread⟩ := hverbatim ha
    obtain rfl : raw' = raw := Except.ok.inj (hraw'.symm.trans hraw)
    obtain ⟨node, -, hparse⟩ := hread rawNode hn
    exact absurd hblank (NodeId.not_isBlank_of_parse hparse)

/-- **JSON gives back what it was given, and only ids that stand for themselves.**  A property, a
topology change, a step or a trace whose ids are not empty and have no blank at either end is read back
from its text as it was, in whatever order its sets have been written.  Whatever text is read as one of
them, its ids are such, so that writing it and reading it again changes nothing; and a text with a blank
id in it is not read at all. -/
theorem Trace.json_faithful :
    Property.form.Faithful ∧ TopologyChange.form.Faithful ∧ Step.form.Faithful ∧
      Trace.form.Faithful := by
  refine ⟨.of (fun _ => rfl) Property.agrees_codec ?_ ?_ Property.mirrors_verbatim,
    .of ?_ TopologyChange.agrees_codec ?_ ?_ TopologyChange.mirrors_verbatim,
    .of Step.writes_toJson Step.agrees_codec ?_ ?_ Step.mirrors_verbatim,
    .of Trace.writes_toJson Trace.agrees_codec ?_ ?_ Trace.mirrors_verbatim⟩
  · rintro p _ hp rfl
    exact Property.ofValue_toJson (hp p.node (List.mem_singleton_self _))
  · rintro p _ rfl
    exact p.fits_toJson 126
  · exact fun c => ⟨_, _, _, c.reachable.writes_toJson, c.added.writes_toJson,
      c.removed.writes_toJson, rfl⟩
  · exact fun c v => TopologyChange.ofValue_written
  · exact fun c v hw => TopologyChange.fits_written hw 125
  · exact fun step v => Step.ofValue_written
  · exact fun step v hw => Step.fits_written hw 124
  · exact fun t v => Trace.ofValue_written
  · exact fun t v hw => Trace.fits_written hw 122

namespace Trace

/-- blanks around the ids, fields in another order, one that nobody asked for, and none for a tombstone -/
def padded : String :=
  "\x7b\"steps\":[\x7b\"type\":\"topology\",\"reachable\":[\"b \",\" \\ta\"]\x7d, " ++
    "\x7b\"properties\":[\x7b\"key\":\"k\",\"at\":[7],\"node_id\":\" a\"\x7d],\"type\":\"properties\"\x7d]\x7d"

def unpadded : Trace := ⟨[.topology {⟨"a"⟩, ⟨"b"⟩}, .properties [.tombstone ⟨"a"⟩ "k"]]⟩

/-- the two nodes the other way round -/
def reordered : Value :=
  .object [("steps", .array
    [.object [("type", .string "topology"), ("reachable", .array [.string "b", .string "a"])],
      (Step.properties [.tombstone ⟨"a"⟩ "k"]).toJson])]

/-- a blank id among others -/
def blanked : String :=
  "\x7b\"steps\":[\x7b\"type\":\"topology\",\"reachable\":[\"a\",\" \",\"b\"]\x7d]\x7d"

theorem json_faithful_padded :
    ofText padded = .ok unpadded ∧ ofText reordered.text = .ok unpadded ∧
      ∃ e, ofText blanked = .error e := by
  have hp : ofText padded = .ok unpadded := by decide +kernel
  have hw : form.Writes unpadded reordered := by
    refine ⟨_, .cons ⟨_, ⟨[⟨"b"⟩, ⟨"a"⟩], ?_, rfl⟩, rfl⟩ (.cons rfl .nil), rfl⟩
    decide +kernel
  have hraw : form.verbatim.decode blanked = .ok ⟨[.topology {⟨"a"⟩, ⟨" "⟩, ⟨"b"⟩}]⟩ := by
    decide +kernel
  have hblank : (⟨" "⟩ : NodeId) ∈ form.ids ⟨[.topology {⟨"a"⟩, ⟨" "⟩, ⟨"b"⟩}]⟩ := by
    decide +kernel
  obtain ⟨-, -, -, h⟩ := json_faithful
  exact ⟨hp, h.decode_rewritten hp hw, h.rejects_blank hraw hblank (by decide +kernel)⟩

end Trace

end OverlayWatch
