import Mathlib.Data.List.Forall2
import Mathlib.Data.Option.Basic
import OverlayWatch.Json.Codec

/-!
# Two codecs side by side

Two codecs of the same make that differ in one part: what the one accepts, the other accepts up to the
same place, and what they make of it is related as the parts are.  So a check within a codec can be held
against the codec without the check.

* `Matched`                whatever comes out on the left has its counterpart on the right;
* `Codec.Mirrors`          so for two codecs, on every text and every value;
* `Codec.Mirrors.list` and the like   building blocks of mirrored parts;
* `RecordShape.mirrors`, `TaggedShape.mirrors`   records field by field, tagged values by their tags;
* `Codec.Mirrors.decode`   so for whole texts.
-/

namespace OverlayWatch.Json

variable {ε α β γ δ : Type}

/-! ## outcomes -/

/-- whatever comes out on the left has its counterpart on the right -/
def Matched (R : α → β → Prop) (x : Except ε α) (y : Except ε β) : Prop :=
  ∀ a, x = .ok a → ∃ b, y = .ok b ∧ R a b

namespace Matched

variable {R : α → β → Prop} {S : γ → δ → Prop} {x : Except ε α} {y : Except ε β}

theorem ok {a : α} {b : β} (h : R a b) : Matched R (.ok a : Except ε α) (.ok b) := by
  rintro _ ⟨⟩
  exact ⟨b, rfl, h⟩

theorem error (e : ε) : Matched R (.error e) y := nofun

theorem bind {f : α → Except ε γ} {g : β → Except ε δ} (h : Matched R x y)
    (hfg : ∀ a b, R a b → Matched S (f a) (g b)) : Matched S (x >>= f) (y >>= g) := by
  cases x with
  | error e => exact error e
  | ok a =>
    obtain ⟨b, rfl, hab⟩ := h a rfl
    exact hfg a b hab

/-- after a common step -/
theorem after (x : Except ε α) {f : α → Except ε γ} {g : α → Except ε δ}
    (hfg : ∀ a, Matched S (f a) (g a)) : Matched S (x >>= f) (x >>= g) := by
  cases x with
  | error e => exact error e
  | ok a => exact hfg a

theorem map {f : α → γ} {g : β → δ} (h : Matched R x y) (hfg : ∀ a b, R a b → S (f a) (g b)) :
    Matched S (x.map f) (y.map g) := by
  cases x with
  | error e => exact error e
  | ok a =>
    obtain ⟨b, rfl, hab⟩ := h a rfl
    exact ok (hfg a b hab)

/-- nothing comes out on the left, or both come to something -/
theorem cases (h : Matched R x y) : (∃ e, x = .error e) ∨ ∃ a b, x = .ok a ∧ y = .ok b ∧ R a b := by
  cases x with
  | error e => exact .inl ⟨e, rfl⟩
  | ok a =>
    obtain ⟨b, hb, hab⟩ := h a rfl
    exact .inr ⟨a, b, rfl, hb, hab⟩

theorem mapM {f : α → Except ε γ} {g : α → Except ε δ} (h : ∀ a, Matched S (f a) (g a))
    (l : List α) : Matched (List.Forall₂ S) (l.mapM f) (l.mapM g) := by
  induction l with
  | nil => exact ok .nil
  | cons a l ih =>
    rw [List.mapM_cons, List.mapM_cons]
    exact (h a).bind fun c d hcd => ih.bind fun cs ds hcds => ok (.cons hcd hcds)

theorem foldlM {f : α → γ → Except ε α} {g : β → γ → Except ε β}
    (h : ∀ a b c, R a b → Matched R (f a c) (g b c)) (l : List γ) {a : α} {b : β} (hab : R a b) :
    Matched R (l.foldlM f a) (l.foldlM g b) := by
  induction l generalizing a b with
  | nil => exact ok hab
  | cons c l ih =>
    rw [List.foldlM_cons, List.foldlM_cons]
    exact (h a b c hab).bind fun _ _ => ih

end Matched

/-- what is made of the text is related, and what is left over is the same -/
def WithRest (R : α → β → Prop) (p : α × List Char) (q : β × List Char) : Prop :=
  R p.1 q.1 ∧ p.2 = q.2

/-! ## items and fields -/

theorem rel_find? {R : α → β → Prop} {p : α → Bool} {q : β → Bool} {l : List α} {m : List β}
    (h : List.Forall₂ R l m) (hpq : ∀ a b, R a b → p a = q b) :
    Option.Rel R (l.find? p) (m.find? q) := by
  induction h with
  | nil => exact .none
  | @cons a b l m hab _ ih =>
    rw [List.find?_cons, List.find?_cons, hpq a b hab]
    cases q b with
    | true => exact .some hab
    | false => exact ih

theorem rel_isSome {R : α → β → Prop} {a? : Option α} {b? : Option β} (h : Option.Rel R a? b?) :
    a?.isSome = b?.isSome := by
  cases h <;> rfl

theorem matched_readItems {R : α → β → Prop} {item : Reader α} {item' : Reader β}
    (h : ∀ s, Matched (WithRest R) (item s) (item' s)) (limit : Nat) (first : Bool) (s : List Char) :
    Matched (WithRest (List.Forall₂ R)) (readItems item limit first s)
      (readItems item' limit first s) := by
  induction limit generalizing first s with
  | zero => exact .error _
  | succ limit ih =>
    refine .after _ fun ⟨more, s⟩ => ?_
    cases more with
    | false => exact .ok ⟨.nil, rfl⟩
    | true =>
      refine (h s).bind ?_
      rintro ⟨a, s⟩ ⟨b, _⟩ ⟨hab, rfl⟩
      refine (ih false s).bind ?_
      rintro ⟨as, s⟩ ⟨bs, _⟩ ⟨has, rfl⟩
      exact .ok ⟨.cons hab has, rfl⟩

theorem matched_readFields {R : α → β → Prop} {field : String → α → Reader α}
    {field' : String → β → Reader β}
    (h : ∀ name a b s, R a b → Matched (WithRest R) (field name a s) (field' name b s))
    (limit : Nat) (first : Bool) {a : α} {b : β} (hab : R a b) (s : List Char) :
    Matched (WithRest R) (readFields field limit first a s) (readFields field' limit first b s) := by
  induction limit generalizing first a b s with
  | zero => exact .error _
  | succ limit ih =>
    refine .after _ fun ⟨name?, s⟩ => ?_
    cases name? with
    | none => exact .ok ⟨hab, rfl⟩
    | some name =>
      refine (h name a b s hab).bind ?_
      rintro ⟨a, s⟩ ⟨b, _⟩ ⟨hab, rfl⟩
      exact ih false hab s

/-! ## building blocks -/

namespace Codec

/-- what the left codec accepts has its counterpart in what the right one makes of it -/
structure Mirrors (R : α → β → Prop) (c : Codec α) (c' : Codec β) : Prop where
  read (depth : Nat) (s : List Char) : Matched (WithRest R) (c.read depth s) (c'.read depth s)
  ofValue (v : Value) : Matched R (c.ofValue v) (c'.ofValue v)

namespace Mirrors

variable {R : α → β → Prop} {S : γ → δ → Prop} {c : Codec α} {c' : Codec β}

protected theorem refl (c : Codec α) : c.Mirrors Eq c where
  read _ _ := fun p hp => ⟨p, hp, rfl, rfl⟩
  ofValue _ := fun a ha => ⟨a, ha, rfl⟩

theorem map (h : c.Mirrors R c') {f : α → γ} {g : β → δ} (hfg : ∀ a b, R a b → S (f a) (g b)) :
    (c.map f).Mirrors S (c'.map g) where
  read depth s := (h.read depth s).map fun _ _ hp => ⟨hfg _ _ hp.1, hp.2⟩
  ofValue v := (h.ofValue v).map hfg

/-- a codec with a check, and without -/
theorem of_refine (c : Codec α) {check : α → Except Mismatch γ} {f : α → δ}
    (h : ∀ a b, check a = .ok b → S b (f a)) : (c.refine check).Mirrors S (c.map f) where
  read depth s := by
    show Matched _ (c.read depth s >>= _) ((c.read depth s).map _)
    cases c.read depth s with
    | error e => exact .error e
    | ok found =>
      obtain ⟨a, rest⟩ := found
      dsimp only [bind, Except.bind, Except.map]
      cases hc : check a with
      | error m => exact .error _
      | ok b => exact .ok ⟨h a b hc, rfl⟩
  ofValue v := by
    show Matched _ ((c.ofValue v).bind check) ((c.ofValue v).map f)
    cases c.ofValue v with
    | error m => exact .error m
    | ok a => exact fun b hb => ⟨f a, rfl, h a b hb⟩

theorem list (h : c.Mirrors R c') : c.list.Mirrors (List.Forall₂ R) c'.list where
  read depth s := by
    unfold Codec.list
    dsimp only
    split
    · refine .after _ fun inner => ?_
      refine (matched_readItems (h.read inner) _ true _).bind ?_
      rintro ⟨as, s⟩ ⟨bs, _⟩ ⟨hab, rfl⟩
      exact .after _ fun rest => .ok ⟨hab, rfl⟩
    · exact .error _
  ofValue v := by
    cases v with
    | array items => exact .mapM h.ofValue items
    | _ => exact .error _

theorem decode (h : c.Mirrors R c') (text : String) : Matched R (c.decode text) (c'.decode text) := by
  refine (h.read fullDepth text.toList).bind ?_
  rintro ⟨a, rest⟩ ⟨b, _⟩ ⟨hab, rfl⟩
  dsimp only
  cases skipBlanks rest with
  | nil => exact .ok hab
  | cons => exact .error _

end Mirrors

end Codec

/-! ## records -/

variable {σ τ : Type}

structure Field.Mirrors (S : σ → τ → Prop) (f : Field σ) (g : Field τ) : Prop where
  name : f.name = g.name
  optional : f.optional = g.optional
  isFilled (s : σ) (t : τ) : S s t → f.isFilled s = g.isFilled t
  codec : f.codec.Mirrors (fun fill fill' => ∀ s t, S s t → S (fill s) (fill' t)) g.codec

theorem Field.mirrors_of_map {S : σ → τ → Prop} {R : α → β → Prop} {c : Codec α} {c' : Codec β}
    {name : String} {optional : Bool} {isFilled : σ → Bool} {isFilled' : τ → Bool} {f : α → σ → σ}
    {g : β → τ → τ} (h : c.Mirrors R c') (hfilled : ∀ s t, S s t → isFilled s = isFilled' t)
    (hfg : ∀ a b, R a b → ∀ s t, S s t → S (f a s) (g b t)) :
    Field.Mirrors S ⟨name, optional, isFilled, c.map f⟩ ⟨name, optional, isFilled', c'.map g⟩ :=
  ⟨rfl, rfl, hfilled, h.map hfg⟩

structure RecordShape.Mirrors (S : σ → τ → Prop) (R : α → β → Prop) (shape : RecordShape σ α)
    (shape' : RecordShape τ β) : Prop where
  fields : List.Forall₂ (Field.Mirrors S) shape.fields shape'.fields
  blank : S shape.blank shape'.blank
  finish (s : σ) (t : τ) : S s t → Matched R (shape.finish s) (shape'.finish t)

namespace RecordShape

variable {S : σ → τ → Prop} {R : α → β → Prop} {shape : RecordShape σ α} {shape' : RecordShape τ β}

theorem tooShort_eq_none_iff {index : Nat} {left : List (Field σ)} :
    shape.tooShort index left = none ↔ ∀ f ∈ left, f.optional = true := by
  induction left generalizing index with
  | nil => simp [tooShort]
  | cons f left ih =>
    have hc : shape.tooShort index (f :: left) =
        if f.optional then shape.tooShort (index + 1) left
        else some (.invalidLength index shape.sizedTitle) := by
      rw [tooShort, List.zipIdx_cons, List.findSome?_cons]
      dsimp only
      cases f.optional <;> rfl
    rw [hc, List.forall_mem_cons, ← @ih (index + 1)]
    cases f.optional <;> simp

variable (shape') in
theorem tooShort_mirrors {left : List (Field σ)} {left' : List (Field τ)}
    (h : List.Forall₂ (Field.Mirrors S) left left') {index : Nat}
    (hs : shape.tooShort index left = none) : shape'.tooShort index left' = none := by
  rw [tooShort_eq_none_iff] at hs ⊢
  induction h with
  | nil => exact fun _ hf => nomatch hf
  | cons hfg _ ih =>
    rw [List.forall_mem_cons] at hs ⊢
    exact ⟨hfg.optional ▸ hs.1, ih hs.2⟩

namespace Mirrors

variable (h : shape.Mirrors S R shape')
include h

theorem readField (depth : Nat) (name : String) (acc : σ) (acc' : τ) (s : List Char)
    (ha : S acc acc') : Matched (WithRest S) (shape.readField depth name acc s)
      (shape'.readField depth name acc' s) := by
  have hf := rel_find? (p := fun f => f.name == name) (q := fun f => f.name == name) h.fields
    fun f g hfg => congrArg (· == name) hfg.name
  unfold RecordShape.readField
  generalize shape.fields.find? (fun f => f.name == name) = f?,
    shape'.fields.find? (fun f => f.name == name) = g? at hf ⊢
  cases hf with
  | none => exact .after _ fun s => .after _ fun s => .ok ⟨ha, rfl⟩
  | @some f g hfg =>
    dsimp only
    rw [hfg.isFilled acc acc' ha]
    split
    · exact .error _
    · refine .after _ fun s => (hfg.codec.read depth s).bind ?_
      rintro ⟨fill, s⟩ ⟨fill', _⟩ ⟨hfill, rfl⟩
      exact .ok ⟨hfill acc acc' ha, rfl⟩

omit h in
theorem readInOrder {left : List (Field σ)} {left' : List (Field τ)}
    (hl : List.Forall₂ (Field.Mirrors S) left left') (depth index : Nat) {acc : σ} {acc' : τ}
    (ha : S acc acc') (s : List Char) : Matched (WithRest S)
      (shape.readInOrder depth index left acc s) (shape'.readInOrder depth index left' acc' s) := by
  induction hl generalizing index acc acc' s with
  | nil => exact .ok ⟨ha, rfl⟩
  | @cons f g left left' hfg hl ih =>
    refine .after _ fun ⟨more, s⟩ => ?_
    cases more with
    | true =>
      refine (hfg.codec.read depth s).bind ?_
      rintro ⟨fill, s⟩ ⟨fill', _⟩ ⟨hfill, rfl⟩
      exact ih (index + 1) (hfill acc acc' ha) s
    | false =>
      dsimp only [Bool.false_eq_true, if_false]
      cases hs : shape.tooShort index (f :: left) with
      | some m => exact .error _
      | none =>
        rw [tooShort_mirrors shape' (.cons hfg hl) hs]
        exact .ok ⟨ha, rfl⟩

theorem readRecord (depth : Nat) (s : List Char) :
    Matched (WithRest R) (shape.readRecord depth s) (shape'.readRecord depth s) := by
  unfold RecordShape.readRecord
  split
  · refine .after _ fun inner => (Mirrors.readInOrder h.fields inner 0 h.blank _).bind ?_
    rintro ⟨acc, s⟩ ⟨acc', _⟩ ⟨ha, rfl⟩
    rcases (h.finish acc acc' ha).cases with ⟨m, hm⟩ | ⟨a, b, hfa, hfb, hab⟩
    · simp only [hm]
      exact .error _
    · simp only [hfa, hfb]
      exact .after _ fun rest => .ok ⟨hab, rfl⟩
  · refine .after _ fun inner =>
      (matched_readFields (h.readField inner) _ true h.blank _).bind ?_
    rintro ⟨acc, s⟩ ⟨acc', _⟩ ⟨ha, rfl⟩
    rcases (h.finish acc acc' ha).cases with ⟨m, hm⟩ | ⟨a, b, hfa, hfb, hab⟩
    · simp only [hm]
      exact .error _
    · simp only [hfa, hfb]
      exact .after _ fun rest => .ok ⟨hab, rfl⟩
  · exact .error _

theorem takeField (acc : σ) (acc' : τ) (entry : String × Value) (ha : S acc acc') :
    Matched S (shape.takeField acc entry) (shape'.takeField acc' entry) := by
  have hf := rel_find? (p := fun f => f.name == entry.1) (q := fun f => f.name == entry.1) h.fields
    fun f g hfg => congrArg (· == entry.1) hfg.name
  unfold RecordShape.takeField
  generalize shape.fields.find? (fun f => f.name == entry.1) = f?,
    shape'.fields.find? (fun f => f.name == entry.1) = g? at hf ⊢
  cases hf with
  | none => exact .ok ha
  | @some f g hfg =>
    dsimp only
    rw [hfg.isFilled acc acc' ha]
    split
    · exact .error _
    · exact (hfg.codec.ofValue entry.2).map fun fill fill' hfill => hfill acc acc' ha

omit h in
theorem takeInOrder {left : List (Field σ)} {left' : List (Field τ)}
    (hl : List.Forall₂ (Field.Mirrors S) left left') (index : Nat) (values : List Value) {acc : σ}
    {acc' : τ} (ha : S acc acc') : Matched (fun p q => S p.1 q.1 ∧ p.2 = q.2)
      (shape.takeInOrder index left values acc) (shape'.takeInOrder index left' values acc') := by
  induction hl generalizing index values acc acc' with
  | nil => exact .ok ⟨ha, rfl⟩
  | @cons f g left left' hfg hl ih =>
    cases values with
    | nil =>
      rw [RecordShape.takeInOrder, RecordShape.takeInOrder]
      cases hs : shape.tooShort index (f :: left) with
      | some m => exact .error _
      | none =>
        rw [tooShort_mirrors shape' (.cons hfg hl) hs]
        exact .ok ⟨ha, rfl⟩
    | cons v values =>
      exact (hfg.codec.ofValue v).bind fun fill fill' hfill =>
        ih (index + 1) values (hfill acc acc' ha)

theorem ofValue (v : Value) : Matched R (shape.ofValue v) (shape'.ofValue v) := by
  cases v with
  | array values =>
    refine (Mirrors.takeInOrder h.fields 0 values h.blank).bind ?_
    rintro ⟨acc, surplus⟩ ⟨acc', _⟩ ⟨ha, rfl⟩
    refine (h.finish acc acc' ha).bind fun a b hab => ?_
    dsimp only
    split
    · exact .ok hab
    · exact .error _
  | object entries =>
    exact (Matched.foldlM h.takeField entries h.blank).bind fun acc acc' ha => h.finish acc acc' ha
  | _ => exact .error _

theorem codec : shape.codec.Mirrors R shape'.codec := ⟨h.readRecord, h.ofValue⟩

end Mirrors

end RecordShape

/-! ## tagged values -/

structure TaggedShape.Mirrors (R : α → β → Prop) (shape : TaggedShape α) (shape' : TaggedShape β) :
    Prop where
  tagName : shape.tagName = shape'.tagName
  variants : List.Forall₂ (fun v w => v.1 = w.1 ∧ ∀ x, Matched R (v.2 x) (w.2 x)) shape.variants
    shape'.variants

namespace TaggedShape.Mirrors

variable {R : α → β → Prop} {shape : TaggedShape α} {shape' : TaggedShape β}

/-- the rest is read in ways that mirror each other -/
def Ways (R : α → β → Prop) (f : Value → Except Mismatch α) (g : Value → Except Mismatch β) : Prop :=
  ∀ v, Matched R (f v) (g v)

variable (h : shape.Mirrors R shape')
include h

theorem variant? (tag : String) : Matched (Ways R) (shape.variant? tag) (shape'.variant? tag) := by
  have hf := rel_find? (p := fun v => v.1 == tag) (q := fun v => v.1 == tag) h.variants
    fun v w hvw => congrArg (· == tag) hvw.1
  unfold TaggedShape.variant?
  generalize shape.variants.find? (fun v => v.1 == tag) = v?,
    shape'.variants.find? (fun v => v.1 == tag) = w? at hf ⊢
  cases hf with
  | none => exact .error _
  | some hvw => exact .ok hvw.2

theorem tagCodec : shape.tagCodec.Mirrors (Ways R) shape'.tagCodec where
  read depth s := by
    refine .after _ fun ⟨tag, rest⟩ => ?_
    dsimp only
    cases hv : shape.variant? tag with
    | error m => exact .error _
    | ok f =>
      obtain ⟨g, hg, hfg⟩ := h.variant? tag f hv
      rw [hg]
      exact .ok ⟨hfg, rfl⟩
  ofValue v := .after _ h.variant?

/-- the same fields have been met -/
def Alike (R : α → β → Prop) (acc : Gathered α) (acc' : Gathered β) : Prop :=
  Option.Rel (Ways R) acc.1 acc'.1 ∧ acc.2 = acc'.2

theorem readField (depth : Nat) (name : String) (acc : Gathered α) (acc' : Gathered β)
    (s : List Char) (ha : Alike R acc acc') : Matched (WithRest (Alike R))
      (shape.readField depth name acc s) (shape'.readField depth name acc' s) := by
  unfold TaggedShape.readField
  rw [h.tagName, rel_isSome ha.1, ha.2]
  split
  · split
    · exact .error _
    · refine .after _ fun s => (h.tagCodec.read depth s).bind ?_
      rintro ⟨f, s⟩ ⟨g, _⟩ ⟨hfg, rfl⟩
      exact .ok ⟨⟨.some hfg, rfl⟩, rfl⟩
  · exact .after _ fun ⟨fields, s⟩ => .ok ⟨⟨ha.1, rfl⟩, rfl⟩

theorem readGathered (depth : Nat) (s : List Char) :
    Matched (WithRest fun p q => Ways R p.1 q.1 ∧ p.2 = q.2) (shape.readGathered depth s)
      (shape'.readGathered depth s) := by
  unfold TaggedShape.readGathered
  split
  · refine .after _ fun inner => .after _ fun ⟨more, s⟩ => ?_
    cases more with
    | false => exact .error _
    | true =>
      refine (h.tagCodec.read inner s).bind ?_
      rintro ⟨f, s⟩ ⟨g, _⟩ ⟨hfg, rfl⟩
      exact .after _ fun ⟨items, s⟩ => .after _ fun rest => .ok ⟨⟨hfg, rfl⟩, rfl⟩
  · refine .after _ fun inner =>
      (matched_readFields (h.readField inner) _ true ⟨.none, rfl⟩ _).bind ?_
    rintro ⟨⟨tag?, fields⟩, s⟩ ⟨⟨tag'?, _⟩, _⟩ ⟨⟨htag, rfl⟩, rfl⟩
    cases htag with
    | none => exact .error _
    | some hfg => exact .after _ fun rest => .ok ⟨⟨hfg, rfl⟩, rfl⟩
  · exact .error _

theorem takeField (acc : Gathered α) (acc' : Gathered β) (entry : String × Value)
    (ha : Alike R acc acc') :
    Matched (Alike R) (shape.takeField acc entry) (shape'.takeField acc' entry) := by
  unfold TaggedShape.takeField
  rw [h.tagName, rel_isSome ha.1, ha.2]
  split
  · split
    · exact .error _
    · exact (h.tagCodec.ofValue entry.2).map fun f g hfg => ⟨.some hfg, rfl⟩
  · exact .ok ⟨ha.1, rfl⟩

theorem codec : shape.codec.Mirrors R shape'.codec where
  read depth s := by
    refine (h.readGathered depth s).bind ?_
    rintro ⟨⟨f, others⟩, s⟩ ⟨⟨g, _⟩, _⟩ ⟨⟨hfg, rfl⟩, rfl⟩
    dsimp only
    cases hf : f others with
    | error m => exact .error _
    | ok a =>
      obtain ⟨b, hb, hab⟩ : ∃ b, g others = .ok b ∧ R a b := hfg others a hf
      rw [hb]
      exact .ok ⟨hab, rfl⟩
  ofValue v := by
    cases v with
    | array items =>
      cases items with
      | nil => exact .error _
      | cons tag items => exact (h.tagCodec.ofValue tag).bind fun f g hfg => hfg (.array items)
    | object entries =>
      refine (Matched.foldlM h.takeField entries (a := (none, [])) (b := (none, []))
        ⟨.none, rfl⟩).bind ?_
      rintro ⟨tag?, fields⟩ ⟨tag'?, _⟩ ⟨htag, rfl⟩
      cases htag with
      | none => exact .error _
      | some hfg => exact hfg (.object fields.reverse)
    | _ => exact .error _

end TaggedShape.Mirrors

end OverlayWatch.Json
