import Mathlib.Data.List.Induction
import Mathlib.Data.Nat.Digits.Defs
import OverlayWatch.Text.Numeral

/-!
# What numerals stand for

A numeral is described by its figures, of which the last one counts least.  This says nothing of how a
text is read: it is the positional value of the figures, and how they are written.

* `Text.Spells`                a text has these figures, and they stand for that number;
* `Text.IsNumeral`             it has some figures that stand for it;
* `Text.digitsValue_figures`   a fold over the digits gives their positional value;
* `Text.numeral?_eq_some_iff`  numerals are read as what they stand for, and nothing else is read.
-/

namespace OverlayWatch.Text

structure Spells (figures : List Nat) (text : String) (n : Nat) : Prop where
  ne_nil : figures ≠ []
  lt_ten : ∀ d ∈ figures, d < 10
  /-- behind a plus sign or none; any number of zeros may come first -/
  written : text.toList = figures.map Nat.digitChar ∨ text.toList = '+' :: figures.map Nat.digitChar
  value : n = Nat.ofDigits 10 figures.reverse
  fits : n < 2 ^ 64

def IsNumeral (text : String) (n : Nat) : Prop := ∃ figures, Spells figures text n

/-! ## figures and digits -/

theorem digitsValue_append_one (s : List Char) (c : Char) :
    digitsValue (s ++ [c]) = 10 * digitsValue s + (c.toNat - '0'.toNat) := by
  rw [digitsValue, List.foldl_append]
  rfl

theorem digitsValue_figures {figures : List Nat} (h : ∀ d ∈ figures, d < 10) :
    digitsValue (figures.map Nat.digitChar) = Nat.ofDigits 10 figures.reverse := by
  -- from the right, as the fold comes to the least figure last
  induction figures using List.reverseRecOn with
  | nil => rfl
  | append_singleton figures d ih =>
    have hrest := ih fun e he => h e (List.mem_append_left _ he)
    have hd : (Nat.digitChar d).toNat = 48 + d :=
      Nat.toNat_digitChar_of_lt_ten (h d (List.mem_append_right _ (List.mem_singleton_self d)))
    rw [List.map_append, List.map_singleton, digitsValue_append_one, hrest, hd,
      List.reverse_append, List.reverse_singleton, List.singleton_append, Nat.ofDigits_cons]
    show 10 * _ + (48 + d - 48) = d + 10 * _
    omega

theorem digitChar_of_isDigit {c : Char} (h : c.isDigit = true) :
    c.toNat - '0'.toNat < 10 ∧ Nat.digitChar (c.toNat - '0'.toNat) = c := by
  obtain ⟨hlo, hhi⟩ := Char.isDigit_iff_toNat.1 h
  have hlo : 48 ≤ c.toNat := hlo
  have hhi : c.toNat ≤ 57 := hhi
  have hlt : c.toNat - 48 < 10 := by omega
  refine ⟨hlt, Char.toNat_inj.1 ?_⟩
  show (Nat.digitChar (c.toNat - 48)).toNat = c.toNat
  rw [Nat.toNat_digitChar_of_lt_ten hlt]
  omega

theorem exists_figures {s : List Char} (h : s.all Char.isDigit = true) :
    ∃ figures : List Nat, (∀ d ∈ figures, d < 10) ∧ s = figures.map Nat.digitChar := by
  have hs := List.all_eq_true.1 h
  refine ⟨s.map fun c => c.toNat - '0'.toNat, ?_, ?_⟩
  · intro d hd
    obtain ⟨c, hc, rfl⟩ := List.mem_map.1 hd
    exact (digitChar_of_isDigit (hs c hc)).1
  · rw [List.map_map]
    exact (List.map_id s).symm.trans
      (List.map_congr_left fun c hc => (digitChar_of_isDigit (hs c hc)).2.symm)

theorem all_isDigit_figures {figures : List Nat} (h : ∀ d ∈ figures, d < 10) :
    (figures.map Nat.digitChar).all Char.isDigit = true := by
  rw [List.all_map, List.all_eq_true]
  intro d hd
  show (Nat.digitChar d).isDigit = true
  rw [Nat.isDigit_digitChar, decide_eq_true (h d hd)]

/-! ## the sign -/

theorem eq_unsigned_or (s : List Char) : s = unsigned s ∨ s = '+' :: unsigned s := by
  unfold unsigned
  split
  · exact .inr rfl
  · exact .inl rfl

/-- a digit is no sign -/
theorem unsigned_eq {s digits : List Char} (hd : digits.all Char.isDigit = true)
    (h : s = digits ∨ s = '+' :: digits) : unsigned s = digits := by
  obtain rfl | rfl := h
  · unfold unsigned
    split
    · cases hd
    · rfl
  · rfl

/-! ## reading -/

theorem numeral?_eq_some_iff {text : String} {n : Nat} : numeral? text = some n ↔ IsNumeral text n := by
  unfold numeral?
  constructor
  · intro h
    obtain ⟨⟨hne, hall, hle⟩, hn⟩ := Option.ite_some_none_eq_some.1 h
    obtain ⟨figures, hten, hfigures⟩ := exists_figures hall
    refine ⟨figures, fun hnil => hne ?_, hten, ?_, ?_, by omega⟩
    · rw [hfigures, hnil, List.map_nil]
    · rw [← hfigures]
      exact eq_unsigned_or text.toList
    · rw [← hn, hfigures, digitsValue_figures hten]
  · rintro ⟨figures, h⟩
    have hall := all_isDigit_figures h.lt_ten
    have hfits := h.fits
    refine Option.ite_some_none_eq_some.2 ?_
    rw [unsigned_eq hall h.written, digitsValue_figures h.lt_ten, ← h.value]
    exact ⟨⟨fun hnil => h.ne_nil (List.map_eq_nil_iff.1 hnil), hall, by omega⟩, rfl⟩

end OverlayWatch.Text
