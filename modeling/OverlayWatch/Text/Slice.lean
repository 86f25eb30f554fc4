/-!
# Parts of a text by bytes

Places in a text are counted in bytes of its UTF-8 form.  A place within a character is none to cut
at.

* `bytes`          how many bytes a text has;
* `splitAtByte?`   the text before a place and the text from there on; it puts a text asunder just
                   where it was put together (`splitAtByte?_bytes`, `append_of_splitAtByte?`);
* `slice?`         the text between two places.
-/

namespace OverlayWatch.Text

def bytes : List Char → Nat
  | [] => 0
  | c :: s => c.utf8Size + bytes s

theorem bytes_nil : bytes [] = 0 := rfl
theorem bytes_cons (c : Char) (s : List Char) : bytes (c :: s) = c.utf8Size + bytes s := rfl

def splitAtByte? : List Char → Nat → Option (List Char × List Char)
  | s, 0 => some ([], s)
  | [], _ + 1 => none
  | c :: s, place =>
    if c.utf8Size ≤ place then
      (splitAtByte? s (place - c.utf8Size)).map fun halves => (c :: halves.1, halves.2)
    else none

theorem splitAtByte?_zero (s : List Char) : splitAtByte? s 0 = some ([], s) := by
  unfold splitAtByte?
  rfl

theorem append_of_splitAtByte? {s before after : List Char} {place : Nat}
    (h : splitAtByte? s place = some (before, after)) : before ++ after = s := by
  induction s generalizing place before after with
  | nil => cases place <;> simp_all [splitAtByte?]
  | cons c s ih =>
    cases place with
    | zero => simp_all [splitAtByte?]
    | succ place =>
      simp only [splitAtByte?] at h
      split at h
      · obtain ⟨⟨b, a⟩, hb, e⟩ := Option.map_eq_some_iff.mp h
        obtain ⟨rfl, rfl⟩ := Prod.mk.inj e
        simp [ih hb]
      · cases h

theorem splitAtByte?_bytes (before after : List Char) :
    splitAtByte? (before ++ after) (bytes before) = some (before, after) := by
  induction before with
  | nil => exact splitAtByte?_zero after
  | cons c s ih =>
    obtain ⟨place, h⟩ : ∃ place, c.utf8Size + bytes s = place + 1 :=
      ⟨c.utf8Size + bytes s - 1, by have := c.utf8Size_pos; omega⟩
    have hp : place + 1 - c.utf8Size = bytes s := by omega
    simp only [List.cons_append, bytes_cons, h, splitAtByte?]
    rw [if_pos (by omega), hp, ih]
    rfl

def slice? (s : List Char) (first last : Nat) : Option (List Char) := do
  let (_, rest) ← splitAtByte? s first
  let (part, _) ← splitAtByte? rest (last - first)
  return part

end OverlayWatch.Text
