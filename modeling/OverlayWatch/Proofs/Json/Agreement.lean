import OverlayWatch.Json.Codec
import OverlayWatch.Proofs.Json.Rendering

/-!
# Off the text and from a value

A codec reads twice: straight off a text, and from a value that has been read whole before.  On the text
of a value the two agree, whatever the shape: fields may come in any order, and those that nobody asked
for may stand between them.

* `Codec.Agrees`          what the value gives is read off its text;
* `Codec.agrees_list` and the like   every building block agrees when its parts do;
* `RecordShape.agrees`, `TaggedShape.agrees`   and so do records and tagged values;
* `Codec.Agrees.decode_text`   so a text decodes to what its value gives.
-/

namespace OverlayWatch.Json

variable {ε α β : Type}

theorem bind_eq_ok_iff {x : Except ε α} {f : α → Except ε β} {b : β} :
    (x >>= f) = .ok b ↔ ∃ a, x = .ok a ∧ f a = .ok b := by
  cases x with
  | error e => exact ⟨nofun, nofun⟩
  | ok a => exact ⟨fun h => ⟨a, rfl, h⟩, fun ⟨_, ha, h⟩ => Except.ok.inj ha ▸ h⟩

theorem map_eq_ok_iff {x : Except ε α} {f : α → β} {b : β} :
    x.map f = .ok b ↔ ∃ a, x = .ok a ∧ f a = b := by
  cases x with
  | error e => exact ⟨nofun, nofun⟩
  | ok a => exact ⟨fun h => ⟨a, rfl, Except.ok.inj h⟩, fun ⟨_, ha, h⟩ => by cases ha; exact congrArg _ h⟩

theorem mapM_eq_ok_iff {f : α → Except ε β} {l : List α} {m : List β} :
    l.mapM f = .ok m ↔ List.Forall₂ (fun a b => f a = .ok b) l m := by
  induction l generalizing m with
  | nil =>
    rw [List.mapM_nil, List.forall₂_nil_left_iff]
    exact ⟨fun h => (Except.ok.inj h).symm, fun h => congrArg _ h.symm⟩
  | cons a l ih =>
    rw [List.mapM_cons, bind_eq_ok_iff, List.forall₂_cons_left_iff]
    constructor
    · rintro ⟨b, hb, h⟩
      obtain ⟨rest, hr, h⟩ := bind_eq_ok_iff.1 h
      exact ⟨b, rest, hb, ih.1 hr, (Except.ok.inj h).symm⟩
    · rintro ⟨b, rest, hb, hr, rfl⟩
      exact ⟨b, hb, bind_eq_ok_iff.2 ⟨rest, ih.2 hr, rfl⟩⟩

namespace Codec

/-- what a value gives is what is read off its text -/
def Agrees (c : Codec α) : Prop :=
  ∀ ⦃v a⦄, c.ofValue v = .ok a → ∀ ⦃depth⦄, v.Fits depth →
    ∀ rest, c.read depth (v.render ++ rest) = .ok (a, rest)

variable {c : Codec α}

/-! ## building blocks -/

theorem agrees_map (h : c.Agrees) (f : α → β) : (c.map f).Agrees := by
  intro v b hb depth hd rest
  obtain ⟨a, ha, rfl⟩ := map_eq_ok_iff.1 hb
  exact congrArg (fun x => x.map fun found => (f found.1, found.2)) (h ha hd rest)

theorem agrees_refine (h : c.Agrees) (check : α → Except Mismatch β) : (c.refine check).Agrees := by
  intro v b hb depth hd rest
  obtain ⟨a, ha, hc⟩ := bind_eq_ok_iff.1 hb
  have hr := h ha hd rest
  simp only [refine, hr, bind, Except.bind, hc]
  rfl

theorem agrees_string : string.Agrees := by
  intro v a ha depth hd rest
  cases v with
  | string s =>
    obtain rfl := Except.ok.inj ha
    rw [Value.render_string_append]
    exact readString_render _ rest
  | _ => cases ha

theorem agrees_nullable (h : c.Agrees) : c.nullable.Agrees := by
  intro v o ho depth hd rest
  have hsome : ∀ a, c.ofValue v = .ok a → some a = o →
      (c.read depth (v.render ++ rest)).map (fun found => (some found.1, found.2)) = .ok (o, rest) := by
    rintro a ha rfl
    rw [h ha hd rest]
    rfl
  cases v with
  | null =>
    obtain rfl := Except.ok.inj ho
    rfl
  | number n => cases depth <;> exact hd.elim
  | bool b =>
    obtain ⟨a, ha, he⟩ := map_eq_ok_iff.1 ho
    cases b <;> exact hsome a ha he
  | string s =>
    obtain ⟨a, ha, he⟩ := map_eq_ok_iff.1 ho
    exact hsome a ha he
  | array items =>
    obtain ⟨a, ha, he⟩ := map_eq_ok_iff.1 ho
    exact hsome a ha he
  | object fields =>
    obtain ⟨a, ha, he⟩ := map_eq_ok_iff.1 ho
    exact hsome a ha he

theorem agrees_list (h : c.Agrees) : c.list.Agrees := by
  intro v l hl depth hd rest
  cases v with
  | array items =>
    obtain ⟨inner, he, hi⟩ := hd.enter_of_array
    have hr : List.Forall₂ (fun v a => ∀ rest, c.read inner (v.render ++ rest) = .ok (a, rest))
        items l := by
      refine List.Forall₂.imp (fun v a hv => ?_)
        ((List.forall₂_and_left _ _).2 ⟨hi, mapM_eq_ok_iff.1 hl⟩)
      exact h hv.2 hv.1
    rw [Value.render_array_append]
    show (enter depth >>= _) = _
    rw [he]
    show (readItems (c.read inner) _ true _ >>= _) = _
    rw [readItems_render hi hr]
    rfl
  | _ => cases hl

/-! ## whole texts -/

theorem Agrees.decode_text (h : c.Agrees) {v : Value} {a : α} (ha : c.ofValue v = .ok a)
    (hd : v.Fits fullDepth) : c.decode v.text = .ok a := by
  have hr := h ha hd []
  rw [List.append_nil] at hr
  rw [decode, Value.text, String.toList_ofList, hr]
  rfl

end Codec

/-! ## records -/

namespace RecordShape

variable {σ : Type} {shape : RecordShape σ α}

theorem readField_render (hf : ∀ f ∈ shape.fields, f.codec.Agrees) {entry : String × Value}
    {acc next : σ} (h : shape.takeField acc entry = .ok next) {depth : Nat}
    (hd : entry.2.Fits depth) (rest : List Char) :
    shape.readField depth entry.1 acc (':' :: (entry.2.render ++ rest)) = .ok (next, rest) := by
  unfold takeField at h
  unfold readField
  cases hfind : shape.fields.find? fun f => f.name == entry.1 with
  | none =>
    rw [hfind] at h
    obtain rfl := Except.ok.inj h
    show (skipValue (entry.2.render ++ rest) >>= _) = _
    rw [skipValue_render hd]
    rfl
  | some f =>
    simp only [hfind] at h ⊢
    split at h
    · cases h
    · rename_i hnew
      obtain ⟨fill, hfill, rfl⟩ := map_eq_ok_iff.1 h
      rw [if_neg hnew]
      show (f.codec.read depth (entry.2.render ++ rest) >>= _) = _
      rw [hf f (List.mem_of_find?_eq_some hfind) hfill hd]
      rfl

theorem readInOrder_listed {left : List (Field σ)} (hf : ∀ f ∈ left, f.codec.Agrees)
    {values : List Value} {depth : Nat} (hv : ∀ v ∈ values, v.Fits depth) {index : Nat} {acc last : σ}
    (h : shape.takeInOrder index left values acc = .ok (last, [])) (rest : List Char) :
    shape.readInOrder depth index left acc
        (listed (index = 0) (values.map Value.render) ++ ']' :: rest) = .ok (last, ']' :: rest) := by
  induction left generalizing values index acc with
  | nil =>
    obtain ⟨rfl, rfl⟩ := Prod.mk.inj (Except.ok.inj h)
    cases hi : decide (index = 0) <;> rfl
  | cons f left ih =>
    cases values with
    | nil =>
      have hs : shape.tooShort index (f :: left) = none ∧ acc = last := by
        rw [takeInOrder] at h
        split at h
        · cases h
        · rename_i hs
          exact ⟨hs, (Prod.mk.inj (Except.ok.inj h)).1⟩
      have hn : nextItem (index = 0) (listed (index = 0) [] ++ ']' :: rest) =
          .ok (false, ']' :: rest) := by
        cases hi : decide (index = 0) <;> rfl
      rw [readInOrder, List.map_nil, hn, ← hs.2]
      simp only [bind, Except.bind, hs.1]
      rfl
    | cons v values =>
      obtain ⟨fill, hfill, h⟩ := bind_eq_ok_iff.1 h
      have hrest := ih (fun f hm => hf f (List.mem_cons_of_mem _ hm))
        (fun v hm => hv v (List.mem_cons_of_mem _ hm)) h
      have hvd := hv v List.mem_cons_self
      rw [readInOrder, List.map_cons, nextItem_listed _ (hvd.opens .list)]
      show (f.codec.read depth (v.render ++ (listed false _ ++ ']' :: rest)) >>= _) = _
      rw [hf f List.mem_cons_self hfill hvd]
      exact hrest

theorem agrees (hf : ∀ f ∈ shape.fields, f.codec.Agrees) : shape.codec.Agrees := by
  intro v a ha depth hd rest
  cases v with
  | array values =>
    obtain ⟨⟨acc, surplus⟩, hacc, ha⟩ := bind_eq_ok_iff.1 ha
    obtain ⟨a', hfinish, ha⟩ := bind_eq_ok_iff.1 ha
    obtain ⟨rfl, rfl⟩ : surplus = [] ∧ a' = a := by
      split at ha
      · rename_i hs
        exact ⟨List.isEmpty_iff.1 hs, Except.ok.inj ha⟩
      · cases ha
    obtain ⟨inner, he, hi⟩ := hd.enter_of_array
    have hread : shape.readInOrder inner 0 shape.fields shape.blank
        (listed true (values.map Value.render) ++ ']' :: rest) = .ok (acc, ']' :: rest) :=
      readInOrder_listed hf hi hacc rest
    rw [Value.render_array_append]
    show (enter depth >>= _) = _
    rw [he]
    show (shape.readInOrder inner 0 shape.fields shape.blank _ >>= _) = _
    rw [hread]
    simp only [bind, Except.bind, hfinish]
    rfl
  | object entries =>
    obtain ⟨acc, hacc, hfinish⟩ := bind_eq_ok_iff.1 ha
    obtain ⟨inner, he, hi⟩ := hd.enter_of_object
    have hfield : ∀ e ∈ entries, ∀ acc next, shape.takeField acc e = .ok next → ∀ rest,
        shape.readField inner e.1 acc (':' :: (e.2.render ++ rest)) = .ok (next, rest) :=
      fun e he acc next h rest => readField_render hf h (hi e he) rest
    have hread := readFields_render hfield hacc rest
    rw [Value.render_object_append]
    show (enter depth >>= _) = _
    rw [he]
    show (readFields (shape.readField inner) _ true shape.blank _ >>= _) = _
    rw [hread]
    simp only [bind, Except.bind, hfinish]
    rfl
  | _ => cases ha

end RecordShape

/-! ## tagged values -/

namespace TaggedShape

variable {shape : TaggedShape α}

theorem agrees_tagCodec : shape.tagCodec.Agrees := by
  refine Codec.agrees_refine (fun v a ha depth hd rest => ?_) _
  cases v with
  | string s =>
    obtain rfl := Except.ok.inj ha
    rw [Value.render_string_append]
    exact readString_render _ rest
  | _ => cases ha

theorem readField_render {entry : String × Value} {acc next : Gathered α}
    (h : shape.takeField acc entry = .ok next) {depth : Nat} (hd : entry.2.Fits depth)
    (rest : List Char) :
    shape.readField depth entry.1 acc (':' :: (entry.2.render ++ rest)) = .ok (next, rest) := by
  unfold takeField at h
  unfold readField
  split at h
  · rename_i hname
    rw [if_pos hname]
    split at h
    · cases h
    · rename_i hnew
      obtain ⟨variant, hv, rfl⟩ := map_eq_ok_iff.1 h
      rw [if_neg hnew]
      show (shape.tagCodec.read depth (entry.2.render ++ rest) >>= _) = _
      rw [agrees_tagCodec hv hd]
      rfl
  · rename_i hname
    obtain rfl := Except.ok.inj h
    rw [if_neg hname]
    show (collectField (readValue depth) entry.1 acc.2 _ >>= _) = _
    rw [collectField_render (readValue_render hd)]
    rfl

/-- the rest is put together as it stands -/
theorem agrees : shape.codec.Agrees := by
  intro v a ha depth hd rest
  have hread : ∀ variant (others : Value), variant others = .ok a →
      shape.readGathered depth (v.render ++ rest) = .ok ((variant, others), rest) →
      shape.read depth (v.render ++ rest) = .ok (a, rest) := by
    intro variant others hv hg
    rw [read, hg]
    simp only [bind, Except.bind, hv]
    rfl
  cases v with
  | array items =>
    cases items with
    | nil => cases ha
    | cons tag items =>
      obtain ⟨variant, ht, hv⟩ := bind_eq_ok_iff.1 ha
      obtain ⟨inner, he, hi⟩ := hd.enter_of_array
      have htag := hi tag List.mem_cons_self
      have hitems := fun v hv => hi v (List.mem_cons_of_mem tag hv)
      have hr : List.Forall₂ (fun v w => ∀ rest, readValue inner (v.render ++ rest) = .ok (w, rest))
          items items := List.forall₂_same.2 fun v hv => readValue_render (hitems v hv)
      refine hread variant (.array items) hv ?_
      rw [Value.render_array_append, List.map_cons]
      show (enter depth >>= _) = _
      rw [he]
      show (nextItem true _ >>= _) = _
      rw [nextItem_listed true (htag.opens .list)]
      show (shape.tagCodec.read inner (tag.render ++ _) >>= _) = _
      rw [agrees_tagCodec ht htag]
      show (readItems (readValue inner) _ false _ >>= _) = _
      rw [readItems_render hitems hr]
      rfl
  | object entries =>
    obtain ⟨⟨variant?, fields⟩, hfold, hv⟩ := bind_eq_ok_iff.1 ha
    cases variant? with
    | none => cases hv
    | some variant =>
      obtain ⟨inner, he, hi⟩ := hd.enter_of_object
      have hfield : ∀ e ∈ entries, ∀ acc next, shape.takeField acc e = .ok next → ∀ rest,
          shape.readField inner e.1 acc (':' :: (e.2.render ++ rest)) = .ok (next, rest) :=
        fun e he acc next h rest => readField_render h (hi e he) rest
      have hfields := readFields_render hfield hfold rest
      refine hread variant (.object fields.reverse) hv ?_
      rw [Value.render_object_append]
      show (enter depth >>= _) = _
      rw [he]
      show (readFields (shape.readField inner) _ true (none, []) _ >>= _) = _
      rw [hfields]
      rfl
  | _ => cases ha

end TaggedShape

end OverlayWatch.Json
