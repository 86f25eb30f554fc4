import Mathlib.Data.List.Forall2
import OverlayWatch.Json.Reader

/-!
# Rendered text is read back

What a value is rendered as reads as that value, and what follows the text is left over.  A value that
nobody asks for is passed over just so far.  Numbers are left out: a float may be rendered as a text that
is read as its neighbour.

* `readString_render`    strings, every character escaped as it must be;
* `listed`               items one after the other, with commas between them;
* `Value.Fits`           a value without numbers that nests at most so deep;
* `readItems_render`, `readFields_render`   items and fields are read one by one;
* `readValue_render`     it reads as itself;
* `skipValue_render`     it is passed over as a whole.
-/

namespace OverlayWatch.Json

/-! ## strings -/

theorem hexValue?_hexText4 : ∀ n < 0x20,
    (Text.hexText4 n).length = 4 ∧ Text.hexValue? (Text.hexText4 n) = some n := by
  decide

theorem readHex4_hexText4 {n : Nat} (h : n < 0x20) (rest : List Char) :
    readHex4 (Text.hexText4 n ++ rest) = .ok (n, rest) := by
  obtain ⟨hl, hv⟩ := hexValue?_hexText4 n h
  rw [readHex4, ← hl, List.take_left, List.drop_left, hv]
  exact if_pos rfl

theorem readEscape_hexText4 {c : Char} (h : c.toNat < 0x20) (rest : List Char) :
    readEscape ('u' :: (Text.hexText4 c.toNat ++ rest)) = .ok (c, rest) := by
  have hlow : isLowHalf c.toNat = false := by simp [isLowHalf]; omega
  have hhigh : isHighHalf c.toNat = false := by simp [isHighHalf]; omega
  show readCodePoint _ = _
  rw [readCodePoint, readHex4_hexText4 h]
  show (if isLowHalf c.toNat = true then _ else _) = _
  rw [hlow, hhigh, Char.ofNat_toNat]
  rfl

/-- an escape counts as the one character that it stands for -/
theorem readChars_escape {limit : Nat} {s more rest : List Char}
    (h : readChars limit s = .ok (more, rest)) (c : Char) :
    readChars (limit + 1) (escape c ++ s) = .ok (c :: more, rest) := by
  unfold escape
  split
  case h_8 hq hb _ _ _ _ _ =>
    split
    · rename_i hc
      rw [List.append_assoc]
      show (readEscape ('u' :: (Text.hexText4 c.toNat ++ s)) >>= _) = _
      rw [readEscape_hexText4 hc]
      show (readChars limit s >>= _) = _
      rw [h]
      rfl
    · rename_i hc
      show readChars (limit + 1) (c :: s) = _
      rw [readChars, if_neg hq, if_neg hb, if_neg hc, h]
      rfl
  all_goals
    show (readChars limit s >>= _) = _
    rw [h]
    rfl

theorem readChars_flatMap_escape {limit : Nat} {s : List Char} (h : s.length < limit)
    (rest : List Char) :
    readChars limit (s.flatMap escape ++ '"' :: rest) = .ok (s, rest) := by
  induction s generalizing limit with
  | nil =>
    cases limit with
    | zero => cases h
    | succ limit => rfl
  | cons c s ih =>
    cases limit with
    | zero => cases h
    | succ limit =>
      rw [List.flatMap_cons, List.append_assoc]
      exact readChars_escape (ih (Nat.lt_of_succ_lt_succ h)) c

theorem escape_ne_nil (c : Char) : escape c ≠ [] := by
  unfold escape
  split
  case h_8 =>
    split
    · exact List.cons_ne_nil _ _
    · exact List.cons_ne_nil _ _
  all_goals exact List.cons_ne_nil _ _

theorem length_le_flatMap_escape (s : List Char) : s.length ≤ (s.flatMap escape).length := by
  induction s with
  | nil => exact Nat.le_refl _
  | cons c s ih =>
    have hc : 0 < (escape c).length := List.length_pos_iff.2 (escape_ne_nil c)
    rw [List.flatMap_cons, List.length_append, List.length_cons]
    omega

theorem length_lt_escaped (s : String) (rest : List Char) :
    s.toList.length < (s.toList.flatMap escape ++ '"' :: rest).length := by
  have hl := length_le_flatMap_escape s.toList
  rw [List.length_append, List.length_cons]
  omega

/-- what follows the opening quote -/
theorem readString_render (s : String) (rest : List Char) :
    readString (s.toList.flatMap escape ++ '"' :: rest) = .ok (s, rest) := by
  rw [readString, readChars_flatMap_escape (length_lt_escaped s rest)]
  exact congrArg (fun t => Except.ok (t, rest)) String.ofList_toList

theorem renderString_append (s : String) (rest : List Char) :
    renderString s ++ rest = '"' :: (s.toList.flatMap escape ++ '"' :: rest) := by
  simp [renderString]

/-! ## items and fields -/

/-- the first character is not passed over and does not close the bracket -/
def Opens (bracket : Bracket) (text : List Char) : Prop :=
  ∃ c rest, text = c :: rest ∧ isBlank c = false ∧ closes bracket c = false

theorem skipBlanks_cons {c : Char} (h : isBlank c = false) (rest : List Char) :
    skipBlanks (c :: rest) = c :: rest := by
  rw [skipBlanks, List.dropWhile_cons_of_neg (by rw [h]; exact Bool.false_ne_true)]

theorem opens_renderString (bracket : Bracket) (s : String) : Opens bracket (renderString s) :=
  ⟨'"', _, rfl, rfl, by cases bracket <;> rfl⟩

/-- a comma before all items but the first -/
def listed : (first : Bool) → List (List Char) → List Char
  | _, [] => []
  | true, text :: rest => text ++ listed false rest
  | false, text :: rest => ',' :: (text ++ listed false rest)

theorem length_le_listed {bracket : Bracket} {texts : List (List Char)}
    (h : ∀ t ∈ texts, Opens bracket t) (first : Bool) :
    texts.length ≤ (listed first texts).length := by
  induction texts generalizing first with
  | nil => exact Nat.le_refl _
  | cons t texts ih =>
    obtain ⟨c, rest, rfl, -⟩ := h t List.mem_cons_self
    have hrest := ih (fun t ht => h t (List.mem_cons_of_mem _ ht)) false
    cases first <;> simp only [listed, List.length_cons, List.length_append] <;> omega

/-- there are no more items than characters -/
theorem length_lt_listed {α : Type} {bracket : Bracket} {text : α → List Char} {l : List α}
    (h : ∀ a ∈ l, Opens bracket (text a)) (first : Bool) (rest : List Char) :
    l.length < (listed first (l.map text) ++ rest).length + 1 := by
  have hm : ∀ t ∈ l.map text, Opens bracket t := by simpa using h
  have hl := length_le_listed hm first
  rw [List.length_map] at hl
  rw [List.length_append]
  omega

theorem nextItem_first {c : Char} (hc : isBlank c = false) (hne : c ≠ ']') (rest : List Char) :
    nextItem true (c :: rest) = .ok (true, c :: rest) := by
  rw [nextItem, skipBlanks_cons hc]
  split
  case h_1 h => cases h
  case h_2 h => exact absurd (List.cons.inj h).1 hne
  case h_3 h => rw [if_pos rfl, ← h]

theorem nextItem_comma {c : Char} (hc : isBlank c = false) (hne : c ≠ ']') (rest : List Char) :
    nextItem false (',' :: c :: rest) = .ok (true, c :: rest) := by
  have hcomma : isBlank ',' = false := rfl
  rw [nextItem, skipBlanks_cons hcomma]
  split
  case h_1 h => cases h
  case h_2 h => cases (List.cons.inj h).1
  case h_3 h =>
    obtain ⟨rfl, rfl⟩ := List.cons.inj h
    rw [if_neg Bool.false_ne_true, if_pos rfl, skipBlanks_cons hc]
    split
    case h_1 h => cases h
    case h_2 h => exact absurd (List.cons.inj h).1 hne
    case h_3 => rfl

theorem nextItem_listed (first : Bool) {text : List Char} (h : Opens .list text)
    (texts : List (List Char)) (rest : List Char) :
    nextItem first (listed first (text :: texts) ++ rest) =
      .ok (true, text ++ (listed false texts ++ rest)) := by
  obtain ⟨c, tail, rfl, hc, hne⟩ := h
  have hne : c ≠ ']' := ne_of_beq_false hne
  cases first with
  | true =>
    rw [listed, List.append_assoc]
    exact nextItem_first hc hne _
  | false =>
    rw [listed, List.cons_append, List.append_assoc]
    exact nextItem_comma hc hne _

theorem readItems_listed {α : Type} {item : Reader α} {texts : List (List Char)} {found : List α}
    (h : List.Forall₂ (fun t a => Opens .list t ∧ ∀ rest, item (t ++ rest) = .ok (a, rest)) texts found)
    (first : Bool) {limit : Nat} (hl : texts.length < limit) (rest : List Char) :
    readItems item limit first (listed first texts ++ ']' :: rest) = .ok (found, ']' :: rest) := by
  induction h generalizing first limit with
  | nil =>
    cases limit with
    | zero => cases hl
    | succ limit => rfl
  | @cons t a texts found ht _ ih =>
    cases limit with
    | zero => cases hl
    | succ limit =>
      rw [readItems, nextItem_listed first ht.1]
      show (item (t ++ (listed false texts ++ ']' :: rest)) >>= _) = _
      rw [ht.2]
      show (readItems item limit false (listed false texts ++ ']' :: rest) >>= _) = _
      rw [ih false (Nat.lt_of_succ_lt_succ hl)]
      rfl

/-- a name, a colon and a value -/
def fieldText (entry : String × Value) : List Char := renderString entry.1 ++ ':' :: entry.2.render

theorem opens_fieldText (bracket : Bracket) (entry : String × Value) :
    Opens bracket (fieldText entry) :=
  ⟨'"', _, rfl, rfl, by cases bracket <;> rfl⟩

theorem nextName_listed (first : Bool) (entry : String × Value) (texts : List (List Char))
    (rest : List Char) :
    nextName first (listed first (fieldText entry :: texts) ++ rest) =
      .ok (some entry.1, ':' :: (entry.2.render ++ (listed false texts ++ rest))) := by
  have hn : fieldText entry ++ listed false texts ++ rest =
      '"' :: (entry.1.toList.flatMap escape ++
        '"' :: ':' :: (entry.2.render ++ (listed false texts ++ rest))) := by
    rw [fieldText, List.append_assoc, List.append_assoc, renderString_append]
    simp
  cases first with
  | true =>
    rw [listed, hn]
    show (readString _).map _ = _
    rw [readString_render]
    rfl
  | false =>
    rw [listed, List.cons_append, hn]
    show (readString _).map _ = _
    rw [readString_render]
    rfl

/-- a field reader that agrees with a step of a fold agrees with the fold -/
theorem readFields_listed {σ : Type} {field : String → σ → Reader σ}
    {take : σ → String × Value → Except Mismatch σ} {entries : List (String × Value)}
    (hf : ∀ e ∈ entries, ∀ acc next, take acc e = .ok next →
      ∀ rest, field e.1 acc (':' :: (e.2.render ++ rest)) = .ok (next, rest))
    (first : Bool) {limit : Nat} (hl : entries.length < limit) {acc last : σ}
    (h : entries.foldlM take acc = .ok last) (rest : List Char) :
    readFields field limit first acc (listed first (entries.map fieldText) ++ '}' :: rest) =
      .ok (last, '}' :: rest) := by
  induction entries generalizing first limit acc with
  | nil =>
    cases limit with
    | zero => cases hl
    | succ limit =>
      obtain rfl := Except.ok.inj h
      rfl
  | cons e entries ih =>
    cases limit with
    | zero => cases hl
    | succ limit =>
      rw [List.foldlM_cons] at h
      cases ht : take acc e with
      | error m =>
        rw [ht] at h
        cases h
      | ok next =>
        rw [ht] at h
        have hr := ih (fun e he => hf e (List.mem_cons_of_mem _ he)) false
          (Nat.lt_of_succ_lt_succ hl) h
        rw [List.map_cons, readFields, nextName_listed]
        show (field e.1 acc _ >>= _) = _
        rw [hf e List.mem_cons_self acc next ht]
        exact hr

/-! ## whole values -/

namespace Value

theorem renderItems_eq (items : List Value) : renderItems items = listed true (items.map render) := by
  have hrest : ∀ (v : Value) (items : List Value),
      renderItems (v :: items) = v.render ++ listed false (items.map render) := by
    intro v items
    induction items generalizing v with
    | nil => exact (List.append_nil _).symm
    | cons w items ih =>
      rw [renderItems, ih w]
      · rfl
      · exact List.cons_ne_nil _ _
  cases items with
  | nil => rfl
  | cons v items => exact hrest v items

theorem renderFields_eq (fields : List (String × Value)) :
    renderFields fields = listed true (fields.map fieldText) := by
  have hrest : ∀ (e : String × Value) (fields : List (String × Value)),
      renderFields (e :: fields) = fieldText e ++ listed false (fields.map fieldText) := by
    intro e fields
    induction fields generalizing e with
    | nil => exact (List.append_nil _).symm
    | cons f fields ih =>
      rw [renderFields, ih f]
      · simp [fieldText, listed]
      · exact List.cons_ne_nil _ _
  cases fields with
  | nil => rfl
  | cons e fields => exact hrest e fields

theorem render_array_append (items : List Value) (rest : List Char) :
    (array items).render ++ rest = '[' :: (listed true (items.map render) ++ ']' :: rest) := by
  rw [render, renderItems_eq]
  simp

theorem render_object_append (fields : List (String × Value)) (rest : List Char) :
    (object fields).render ++ rest = '{' :: (listed true (fields.map fieldText) ++ '}' :: rest) := by
  rw [render, renderFields_eq]
  simp

theorem render_string_append (s : String) (rest : List Char) :
    (string s).render ++ rest = '"' :: (s.toList.flatMap escape ++ '"' :: rest) := by
  rw [render, renderString_append]

/-- a value without numbers whose brackets nest at most so deep -/
def Fits : (depth : Nat) → Value → Prop
  | 0, _ => False
  | _ + 1, .number _ => False
  | depth + 1, .array items => depth ≠ 0 ∧ ∀ v ∈ items, v.Fits depth
  | depth + 1, .object fields => depth ≠ 0 ∧ ∀ f ∈ fields, f.2.Fits depth
  | _ + 1, _ => True

variable {v : Value} {depth : Nat}

theorem Fits.opens (h : v.Fits depth) (bracket : Bracket) : Opens bracket v.render := by
  cases depth with
  | zero => exact h.elim
  | succ depth =>
    cases v with
    | null => exact ⟨_, _, rfl, rfl, by cases bracket <;> rfl⟩
    | bool b => cases b <;> exact ⟨_, _, rfl, rfl, by cases bracket <;> rfl⟩
    | number n => exact h.elim
    | string s => exact opens_renderString bracket s
    | array items => exact ⟨'[', _, rfl, rfl, by cases bracket <;> rfl⟩
    | object fields => exact ⟨'{', _, rfl, rfl, by cases bracket <;> rfl⟩

theorem Fits.enter_of_array {items : List Value} (h : (array items).Fits depth) :
    ∃ inner, enter depth = .ok inner ∧ ∀ v ∈ items, v.Fits inner := by
  cases depth with
  | zero => exact h.elim
  | succ depth =>
    have hd : ¬ depth + 1 ≤ 1 := by have := h.1; omega
    exact ⟨depth, if_neg hd, h.2⟩

theorem Fits.enter_of_object {fields : List (String × Value)} (h : (object fields).Fits depth) :
    ∃ inner, enter depth = .ok inner ∧ ∀ f ∈ fields, f.2.Fits inner := by
  cases depth with
  | zero => exact h.elim
  | succ depth =>
    have hd : ¬ depth + 1 ≤ 1 := by have := h.1; omega
    exact ⟨depth, if_neg hd, h.2⟩

end Value

theorem collectField_render {value : Reader Value} {e : String × Value}
    (h : ∀ rest, value (e.2.render ++ rest) = .ok (e.2, rest)) (fields : List (String × Value))
    (rest : List Char) :
    collectField value e.1 fields (':' :: (e.2.render ++ rest)) = .ok (e :: fields, rest) := by
  show (value (e.2.render ++ rest) >>= _) = _
  rw [h]
  rfl

/-- the limit is as long as the text, and the text longer than the number of items -/
theorem readItems_render {α : Type} {item : Reader α} {items : List Value} {found : List α}
    {depth : Nat} (hd : ∀ v ∈ items, v.Fits depth)
    (h : List.Forall₂ (fun v a => ∀ rest, item (v.render ++ rest) = .ok (a, rest)) items found)
    (first : Bool) (rest : List Char) :
    let text := listed first (items.map Value.render) ++ ']' :: rest
    readItems item (text.length + 1) first text = .ok (found, ']' :: rest) := by
  intro text
  have hl : items.length < text.length + 1 :=
    length_lt_listed (fun v hv => (hd v hv).opens .list) first _
  have hf : List.Forall₂ (fun t a => Opens .list t ∧ ∀ rest, item (t ++ rest) = .ok (a, rest))
      (items.map Value.render) found := by
    rw [List.forall₂_map_left_iff]
    refine List.Forall₂.imp (fun v a hv => ?_) ((List.forall₂_and_left _ _).2 ⟨hd, h⟩)
    exact ⟨hv.1.opens .list, hv.2⟩
  exact readItems_listed hf first (by rwa [List.length_map]) rest

theorem readFields_render {σ : Type} {field : String → σ → Reader σ}
    {take : σ → String × Value → Except Mismatch σ} {entries : List (String × Value)}
    (hf : ∀ e ∈ entries, ∀ acc next, take acc e = .ok next →
      ∀ rest, field e.1 acc (':' :: (e.2.render ++ rest)) = .ok (next, rest))
    {acc last : σ} (h : entries.foldlM take acc = .ok last) (rest : List Char) :
    let text := listed true (entries.map fieldText) ++ '}' :: rest
    readFields field (text.length + 1) true acc text = .ok (last, '}' :: rest) := by
  intro text
  have hl : entries.length < text.length + 1 :=
    length_lt_listed (fun e _ => opens_fieldText .object e) true _
  exact readFields_listed hf true hl h rest

theorem readValue_render {depth : Nat} {v : Value} (h : v.Fits depth) (rest : List Char) :
    readValue depth (v.render ++ rest) = .ok (v, rest) := by
  induction depth generalizing v rest with
  | zero => exact h.elim
  | succ depth ih =>
    cases v with
    | null => rfl
    | bool b => cases b <;> rfl
    | number n => exact h.elim
    | string s =>
      rw [Value.render_string_append]
      show (readString _).map _ = _
      rw [readString_render]
      rfl
    | array items =>
      obtain ⟨hd, hi⟩ := h
      have hr : List.Forall₂ (fun v w => ∀ rest, readValue depth (v.render ++ rest) = .ok (w, rest))
          items items := List.forall₂_same.2 fun v hv => ih (hi v hv)
      rw [Value.render_array_append]
      show (if depth = 0 then _ else _) = _
      rw [if_neg hd, readItems_render hi hr]
      rfl
    | object fields =>
      obtain ⟨hd, hi⟩ := h
      -- the fields are put in front of each other, and turned round in the end
      have hfold : fields.foldlM (fun acc e => (pure (e :: acc) : Except Mismatch _)) [] =
          .ok fields.reverse := by
        rw [List.foldlM_pure, List.foldl_flip_cons_eq_append', List.append_nil]
        rfl
      have hfield : ∀ e ∈ fields, ∀ acc next, (pure (e :: acc) : Except Mismatch _) = .ok next →
          ∀ rest, collectField (readValue depth) e.1 acc (':' :: (e.2.render ++ rest)) =
            .ok (next, rest) := by
        intro e he acc next hn rest
        obtain rfl := Except.ok.inj hn
        exact collectField_render (ih (hi e he)) acc rest
      rw [Value.render_object_append]
      show (if depth = 0 then _ else _) = _
      rw [if_neg hd, readFields_render hfield hfold]
      show Except.ok (Value.object fields.reverse.reverse, rest) = _
      rw [List.reverse_reverse]

/-! ## values that nobody asks for -/

theorem skipChars_escape (limit : Nat) (c : Char) (rest : List Char) :
    skipChars (limit + 1) (escape c ++ rest) = skipChars limit rest := by
  unfold escape
  split
  case h_8 hq hb _ _ _ _ _ =>
    split
    · rename_i hc
      rw [List.append_assoc]
      show ((readHex4 (Text.hexText4 c.toNat ++ rest)).map Prod.snd).bind _ = _
      rw [readHex4_hexText4 hc]
      rfl
    · rename_i hc
      show skipChars (limit + 1) (c :: rest) = _
      rw [skipChars, if_neg hq, if_neg hb, if_neg hc]
  all_goals rfl

theorem skipChars_flatMap_escape {limit : Nat} {s : List Char} (h : s.length < limit)
    (rest : List Char) : skipChars limit (s.flatMap escape ++ '"' :: rest) = .ok rest := by
  induction s generalizing limit with
  | nil =>
    cases limit with
    | zero => cases h
    | succ limit => rfl
  | cons c s ih =>
    cases limit with
    | zero => cases h
    | succ limit =>
      rw [List.flatMap_cons, List.append_assoc, skipChars_escape]
      exact ih (Nat.lt_of_succ_lt_succ h)

theorem skipString_render (s : String) (rest : List Char) :
    skipString (s.toList.flatMap escape ++ '"' :: rest) = .ok rest :=
  skipChars_flatMap_escape (length_lt_escaped s rest) rest

/-- the text is passed over in a number of steps that its length allows -/
def Passes (phase : SkipPhase) (text : List Char) : Prop :=
  ∃ steps, steps < 2 * text.length ∧ ∀ limit outer rest,
    skipIn (limit + steps) phase outer (text ++ rest) = skipIn limit .after outer rest

def Bracket.opening : Bracket → Char
  | .list => '['
  | .object => '{'

def Bracket.closing : Bracket → Char
  | .list => ']'
  | .object => '}'

section skipping

variable (bracket : Bracket) (limit : Nat) (outer : List Bracket) (rest : List Char)

theorem skipIn_open : skipIn (limit + 1) .value outer (bracket.opening :: rest) =
    skipIn limit .opened (bracket :: outer) rest := by cases bracket <;> rfl

theorem skipIn_close_opened : skipIn (limit + 1) .opened (bracket :: outer) (bracket.closing :: rest) =
    skipIn limit .after outer rest := by cases bracket <;> rfl

theorem skipIn_close : skipIn (limit + 1) .after (bracket :: outer) (bracket.closing :: rest) =
    skipIn limit .after outer rest := by cases bracket <;> rfl

theorem skipIn_comma : skipIn (limit + 1) .after (bracket :: outer) (',' :: rest) =
    skipIn limit (.inside bracket) (bracket :: outer) rest := rfl

theorem skipIn_opened {text : List Char} (h : Opens bracket text) :
    skipIn (limit + 1) .opened (bracket :: outer) (text ++ rest) =
      skipIn limit (.inside bracket) (bracket :: outer) (text ++ rest) := by
  obtain ⟨c, tail, rfl, hc, hb⟩ := h
  simp only [List.cons_append, skipIn, skipBlanks_cons hc, hb, Bool.false_eq_true, if_false]

end skipping

theorem passes_listed {bracket : Bracket} {texts : List (List Char)}
    (h : ∀ t ∈ texts, Passes (.inside bracket) t) :
    ∃ steps, steps < 2 * (listed false texts).length + 2 ∧ ∀ limit outer rest,
      skipIn (limit + steps) .after (bracket :: outer)
        (listed false texts ++ bracket.closing :: rest) = skipIn limit .after outer rest := by
  induction texts with
  | nil => exact ⟨1, by decide, fun limit outer rest => skipIn_close bracket limit outer rest⟩
  | cons t texts ih =>
    obtain ⟨n, hn, ht⟩ := h t List.mem_cons_self
    obtain ⟨m, hm, hts⟩ := ih fun t ht => h t (List.mem_cons_of_mem _ ht)
    refine ⟨m + n + 1, ?_, fun limit outer rest => ?_⟩
    · rw [listed, List.length_cons, List.length_append]
      omega
    · rw [listed, List.cons_append, List.append_assoc, ← Nat.add_assoc, skipIn_comma,
        ← Nat.add_assoc, ht, hts]

theorem passes_bracket {bracket : Bracket} {texts : List (List Char)}
    (h : ∀ t ∈ texts, Opens bracket t ∧ Passes (.inside bracket) t) :
    Passes .value (bracket.opening :: (listed true texts ++ [bracket.closing])) := by
  cases texts with
  | nil =>
    refine ⟨2, by simp [listed], fun limit outer rest => ?_⟩
    exact (skipIn_open bracket (limit + 1) outer _).trans (skipIn_close_opened bracket limit outer rest)
  | cons t texts =>
    obtain ⟨ho, n, hn, ht⟩ := h t List.mem_cons_self
    obtain ⟨m, hm, hts⟩ := passes_listed fun t ht => (h t (List.mem_cons_of_mem _ ht)).2
    refine ⟨m + n + 2, ?_, fun limit outer rest => ?_⟩
    · simp only [listed, List.length_cons, List.length_append, List.length_nil]
      omega
    · have hl : listed true (t :: texts) ++ [bracket.closing] ++ rest =
          t ++ (listed false texts ++ bracket.closing :: rest) := by
        simp [listed]
      rw [List.cons_append, hl, show limit + (m + n + 2) = limit + m + n + 1 + 1 by omega, skipIn_open,
        skipIn_opened _ _ _ _ ho, ht, hts]

theorem passes_fieldText {entry : String × Value} (h : Passes .value entry.2.render) :
    Passes .field (fieldText entry) := by
  obtain ⟨n, hn, hv⟩ := h
  refine ⟨n + 1, ?_, fun limit outer rest => ?_⟩
  · rw [fieldText, List.length_append, List.length_cons]
    omega
  · have hs : skipName (fieldText entry ++ rest) = .ok (entry.2.render ++ rest) := by
      rw [fieldText, List.append_assoc, renderString_append]
      show (skipString _ >>= _) = _
      rw [skipString_render]
      rfl
    show (skipName (fieldText entry ++ rest)).bind _ = _
    rw [hs]
    exact hv limit outer rest

theorem passes_render {depth : Nat} {v : Value} (h : v.Fits depth) : Passes .value v.render := by
  induction depth generalizing v with
  | zero => exact h.elim
  | succ depth ih =>
    cases v with
    | null => exact ⟨1, by decide, fun _ _ _ => rfl⟩
    | bool b => cases b <;> exact ⟨1, by decide, fun _ _ _ => rfl⟩
    | number n => exact h.elim
    | string s =>
      refine ⟨1, ?_, fun limit outer rest => ?_⟩
      · rw [Value.render, renderString, List.length_append, List.length_cons]
        omega
      · rw [Value.render_string_append]
        show (skipString _).bind _ = _
        rw [skipString_render]
        rfl
    | array items =>
      rw [Value.render, Value.renderItems_eq]
      refine @passes_bracket .list _ fun t ht => ?_
      obtain ⟨v, hv, rfl⟩ := List.mem_map.1 ht
      exact ⟨(h.2 v hv).opens .list, ih (h.2 v hv)⟩
    | object fields =>
      rw [Value.render, Value.renderFields_eq]
      refine @passes_bracket .object _ fun t ht => ?_
      obtain ⟨e, he, rfl⟩ := List.mem_map.1 ht
      exact ⟨opens_fieldText .object e, passes_fieldText (ih (h.2 e he))⟩

theorem skipValue_render {depth : Nat} {v : Value} (h : v.Fits depth) (rest : List Char) :
    skipValue (v.render ++ rest) = .ok rest := by
  obtain ⟨n, hn, hs⟩ := passes_render h
  obtain ⟨k, hk⟩ : ∃ k, 2 * (v.render ++ rest).length + 2 = k + 1 + n :=
    ⟨2 * (v.render ++ rest).length + 1 - n, by rw [List.length_append]; omega⟩
  rw [skipValue, hk, hs]
  rfl

end OverlayWatch.Json
