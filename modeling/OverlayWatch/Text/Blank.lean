/-!
# Blank characters and trimming

A character is blank when it has the Unicode property White_Space.  A text is trimmed from both
ends; blanks inside it stay.

* `isBlank`      the property, as ranges of code points;
* `trim`         what is left of a text between its outer blanks;
* `Trimmed`      no blank at either end: what `trim` leaves alone (`trim_eq_self`).
-/

namespace OverlayWatch.Text

/-! ## the class -/

def isBlank (c : Char) : Bool :=
  let n := c.toNat
  (0x9 ≤ n && n ≤ 0xD) || n == 0x20 || n == 0x85 || n == 0xA0 || n == 0x1680 ||
    (0x2000 ≤ n && n ≤ 0x200A) || n == 0x2028 || n == 0x2029 || n == 0x202F || n == 0x205F ||
    n == 0x3000

/-- space, tab and the two line ends are blank -/
theorem isBlank_of_isWhitespace {c : Char} (h : c.isWhitespace = true) : isBlank c = true := by
  simp only [Char.isWhitespace, Bool.or_eq_true, decide_eq_true_eq] at h
  rcases h with ((rfl | rfl) | rfl) | rfl <;> rfl

/-! ## trimming -/

def trimStart (s : List Char) : List Char := s.dropWhile isBlank

def trimEnd (s : List Char) : List Char := (s.reverse.dropWhile isBlank).reverse

def trim (s : List Char) : List Char := trimEnd (trimStart s)

theorem trimStart_nil : trimStart [] = [] := rfl
theorem trimEnd_nil : trimEnd [] = [] := rfl
theorem trim_nil : trim [] = [] := rfl

/-- neither the first nor the last character is blank -/
def Trimmed (s : List Char) : Prop :=
  (∀ c ∈ s.head?, isBlank c = false) ∧ (∀ c ∈ s.getLast?, isBlank c = false)

instance (s : List Char) : Decidable (Trimmed s) :=
  inferInstanceAs (Decidable ((∀ c ∈ s.head?, _) ∧ (∀ c ∈ s.getLast?, _)))

theorem dropWhile_eq_self {s : List Char} (h : ∀ c ∈ s.head?, isBlank c = false) :
    s.dropWhile isBlank = s := by
  cases s with
  | nil => rfl
  | cons c r => simp [h c rfl]

theorem trim_eq_self {s : List Char} (h : Trimmed s) : trim s = s := by
  unfold trim trimStart trimEnd
  rw [dropWhile_eq_self h.1, dropWhile_eq_self (by simpa using h.2), List.reverse_reverse]

end OverlayWatch.Text
