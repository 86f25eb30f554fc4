import Mathlib.Data.List.DropRight
import Mathlib.Data.List.TakeWhile
import OverlayWatch.Text.Blank

/-!
# The core of a text

What trimming leaves of a text can be told without it: a part of the text that begins and ends with
something else than white space, and has nothing but white space before and behind it.  A text has one
such part at most, since trimming finds it.

* `Text.whiteSpace`      the blank characters, one by one;
* `Text.IsCore`          the part that is left of a text;
* `Text.exists_blanks`   trimming takes nothing but blanks away, all from the ends;
* `Text.trim_append`     it is not misled by more blanks at the ends;
* `Text.isCore_iff`      it finds the core.
-/

namespace OverlayWatch.Text

/-! ## white space -/

/-- the code points with the property White_Space -/
def whiteSpace : List Nat :=
  [0x9, 0xA, 0xB, 0xC, 0xD, 0x20, 0x85, 0xA0, 0x1680, 0x2000, 0x2001, 0x2002, 0x2003, 0x2004, 0x2005,
    0x2006, 0x2007, 0x2008, 0x2009, 0x200A, 0x2028, 0x2029, 0x202F, 0x205F, 0x3000]

theorem isBlank_iff (c : Char) : isBlank c = true ↔ c.toNat ∈ whiteSpace := by
  simp only [isBlank, whiteSpace, Bool.or_eq_true, Bool.and_eq_true, decide_eq_true_eq, beq_iff_eq,
    List.mem_cons, List.not_mem_nil, or_false]
  omega

theorem isBlank_eq_false_iff (c : Char) : isBlank c = false ↔ c.toNat ∉ whiteSpace := by
  rw [← isBlank_iff, Bool.not_eq_true]

/-- nothing else in it, if anything at all -/
def IsWhite (s : String) : Prop := ∀ c ∈ s.toList, c.toNat ∈ whiteSpace

theorem isWhite_iff {s : String} : IsWhite s ↔ ∀ c ∈ s.toList, isBlank c = true :=
  forall₂_congr fun c _ => (isBlank_iff c).symm

instance (s : String) : Decidable (IsWhite s) :=
  decidable_of_iff (s.toList.all isBlank = true) (List.all_eq_true.trans isWhite_iff.symm)

/-! ## trimming -/

theorem isBlank_head?_dropWhile (s : List Char) :
    ∀ c ∈ (s.dropWhile isBlank).head?, isBlank c = false := by
  intro c hc
  have h := List.head?_dropWhile_not isBlank s
  rw [Option.mem_def.1 hc] at h
  exact h

theorem trimEnd_prefix (s : List Char) : trimEnd s <+: s := List.rdropWhile_prefix isBlank s

theorem trimmed_trim (s : List Char) : Trimmed (trim s) := by
  constructor
  · intro c hc
    obtain ⟨rest, hr⟩ := trimEnd_prefix (trimStart s)
    obtain ⟨more, hm⟩ := List.head?_eq_some_iff.1 (Option.mem_def.1 hc)
    rw [show trimEnd (trimStart s) = c :: more from hm] at hr
    refine isBlank_head?_dropWhile s c ?_
    rw [show s.dropWhile isBlank = c :: (more ++ rest) from hr.symm]
    rfl
  · rw [trim, trimEnd, List.getLast?_reverse]
    exact isBlank_head?_dropWhile _

theorem exists_blanks (s : List Char) : ∃ l r : List Char, (∀ c ∈ l, isBlank c = true) ∧
    (∀ c ∈ r, isBlank c = true) ∧ s = l ++ trim s ++ r := by
  refine ⟨s.takeWhile isBlank, (trimStart s).rtakeWhile isBlank, fun c hc => List.mem_takeWhile_imp hc,
    fun c hc => List.mem_rtakeWhile_imp hc, ?_⟩
  have hstart : s.takeWhile isBlank ++ trimStart s = s := List.takeWhile_append_dropWhile
  have hend : trim s ++ (trimStart s).rtakeWhile isBlank = trimStart s :=
    List.rdropWhile_append_rtakeWhile
  rw [List.append_assoc, hend, hstart]

/-- nothing is left of a text of blanks -/
theorem trim_eq_nil {s : List Char} (h : ∀ c ∈ s, isBlank c = true) : trim s = [] := by
  have hs : trimStart s = [] := List.dropWhile_eq_nil_iff.2 h
  rw [trim, hs, trimEnd_nil]

theorem trim_eq_nil_iff {s : List Char} : trim s = [] ↔ ∀ c ∈ s, isBlank c = true := by
  refine ⟨fun h => ?_, trim_eq_nil⟩
  obtain ⟨l, r, hl, hr, hs⟩ := exists_blanks s
  rw [h, List.append_nil] at hs
  rw [hs]
  exact fun c hc => (List.mem_append.1 hc).elim (hl c) (hr c)

theorem trimStart_append {l : List Char} (hl : ∀ c ∈ l, isBlank c = true) (s : List Char) :
    trimStart (l ++ s) = trimStart s := List.dropWhile_append_of_pos hl

theorem trimEnd_append {r : List Char} (hr : ∀ c ∈ r, isBlank c = true) (s : List Char) :
    trimEnd (s ++ r) = trimEnd s := by
  have hr : ∀ c ∈ r.reverse, isBlank c = true := fun c hc => hr c (List.mem_reverse.1 hc)
  rw [trimEnd, trimEnd, List.reverse_append, List.dropWhile_append_of_pos hr]

theorem trim_append {l r : List Char} (hl : ∀ c ∈ l, isBlank c = true)
    (hr : ∀ c ∈ r, isBlank c = true) (s : List Char) : trim (l ++ s ++ r) = trim s := by
  rw [trim, List.append_assoc, trimStart_append hl]
  -- the blanks behind are reached from the front if there is nothing else
  by_cases hs : ∀ c ∈ s, isBlank c = true
  · rw [trimStart_append hs, trim_eq_nil hs]
    exact trim_eq_nil hr
  · have hstart : trimStart s ≠ [] := fun h => hs (List.dropWhile_eq_nil_iff.1 h)
    have happend : trimStart (s ++ r) = trimStart s ++ r := by
      rw [trimStart, List.dropWhile_append, if_neg (by rwa [List.isEmpty_iff])]
      rfl
    rw [happend, trimEnd_append hr, trim]

/-! ## the core -/

structure IsCore (core text : String) : Prop where
  ne_empty : core ≠ ""
  first : ∀ c ∈ core.toList.head?, c.toNat ∉ whiteSpace
  last : ∀ c ∈ core.toList.getLast?, c.toNat ∉ whiteSpace
  between : ∃ l r, IsWhite l ∧ IsWhite r ∧ text = l ++ core ++ r

theorem IsCore.trimmed {core text : String} (h : IsCore core text) : Trimmed core.toList :=
  ⟨fun c hc => (isBlank_eq_false_iff c).2 (h.first c hc),
    fun c hc => (isBlank_eq_false_iff c).2 (h.last c hc)⟩

theorem IsCore.of_trimmed {core text : String} (hne : core ≠ "") (h : Trimmed core.toList)
    (between : ∃ l r, IsWhite l ∧ IsWhite r ∧ text = l ++ core ++ r) : IsCore core text :=
  ⟨hne, fun c hc => (isBlank_eq_false_iff c).1 (h.1 c hc),
    fun c hc => (isBlank_eq_false_iff c).1 (h.2 c hc), between⟩

theorem isCore_iff {core text : String} :
    IsCore core text ↔ core ≠ "" ∧ trim text.toList = core.toList := by
  constructor
  · intro h
    obtain ⟨l, r, hl, hr, htext⟩ := h.between
    refine ⟨h.ne_empty, ?_⟩
    rw [htext, String.toList_append, String.toList_append,
      trim_append (isWhite_iff.1 hl) (isWhite_iff.1 hr), trim_eq_self h.trimmed]
  · rintro ⟨hne, htrim⟩
    have htrimmed := trimmed_trim text.toList
    obtain ⟨l, r, hl, hr, htext⟩ := exists_blanks text.toList
    rw [htrim] at htrimmed htext
    refine .of_trimmed hne htrimmed ⟨String.ofList l, String.ofList r, ?_, ?_, String.toList_inj.1 ?_⟩
    · rwa [isWhite_iff, String.toList_ofList]
    · rwa [isWhite_iff, String.toList_ofList]
    · rw [String.toList_append, String.toList_append, String.toList_ofList, String.toList_ofList]
      exact htext

end OverlayWatch.Text
