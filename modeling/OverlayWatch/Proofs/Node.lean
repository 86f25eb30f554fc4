import OverlayWatch.Node
import OverlayWatch.Proofs.Text.Blank

/-!
# Ids that stand for themselves

Reading an id takes the white space off its ends, and leaves alone what has none.

* `NodeId.parse_eq_ok_iff`   the name that is read is the core of the text;
* `NodeId.parse_eq_error_iff`   only a text without one is refused;
* `NodeId.IsCanonical`     an id that is not empty and has no blank at either end;
* `NodeId.parse_name`      it is read as itself;
* `NodeId.isCanonical_of_parse`   and nothing else is ever read;
* `NodeId.not_isBlank_of_parse`   least of all from blanks;
* `NodeId.parse_exact`     what is read of any text, and of the same text with white space around it.
-/

namespace OverlayWatch

namespace NodeId

/-! ## reading -/

theorem parse_eq_ok_iff {text : String} {node : NodeId} :
    parse text = .ok node ↔ Text.IsCore node.name text := by
  rw [Text.isCore_iff]
  unfold parse
  cases htrim : Text.trim text.toList with
  | nil =>
    refine ⟨nofun, fun h => absurd (String.toList_eq_nil_iff.1 h.2.symm) h.1⟩
  | cons c rest =>
    constructor
    · intro h
      obtain rfl := Except.ok.inj h
      have hl : (String.ofList (c :: rest)).toList = c :: rest := String.toList_ofList
      refine ⟨fun he => ?_, hl.symm⟩
      rw [String.toList_eq_nil_iff.2 he] at hl
      cases hl
    · rintro ⟨-, hname⟩
      show Except.ok (⟨String.ofList (c :: rest)⟩ : NodeId) = .ok node
      rw [hname, String.ofList_toList]

/-- the text is told as it was, with all its white space -/
theorem parse_eq_error_iff {text : String} {fault : InputFault} :
    parse text = .error fault ↔ fault = .invalidNodeId text ∧ Text.IsWhite text := by
  rw [Text.isWhite_iff, ← Text.trim_eq_nil_iff]
  unfold parse
  cases htrim : Text.trim text.toList with
  | nil =>
    constructor
    · intro h
      exact ⟨(Except.error.inj h).symm, rfl⟩
    · rintro ⟨rfl, -⟩
      rfl
  | cons c rest => exact ⟨nofun, nofun⟩

/-! ## canonical ids -/

/-- there is a name, and no blank at either end of it -/
def IsCanonical (node : NodeId) : Prop := node.name ≠ "" ∧ Text.Trimmed node.name.toList

instance (node : NodeId) : Decidable node.IsCanonical := inferInstanceAs (Decidable (_ ∧ _))

/-- nothing but blanks, if anything at all -/
def IsBlank (node : NodeId) : Prop := ∀ c ∈ node.name.toList, Text.isBlank c = true

instance (node : NodeId) : Decidable node.IsBlank :=
  decidable_of_iff (node.name.toList.all Text.isBlank = true) List.all_eq_true

theorem parse_name {node : NodeId} (h : node.IsCanonical) : parse node.name = .ok node :=
  parse_eq_ok_iff.2 (Text.isCore_iff.2 ⟨h.1, Text.trim_eq_self h.2⟩)

theorem isCanonical_of_parse {text : String} {node : NodeId} (h : parse text = .ok node) :
    node.IsCanonical := by
  have hcore := parse_eq_ok_iff.1 h
  exact ⟨hcore.ne_empty, hcore.trimmed⟩

theorem not_isBlank_of_parse {raw node : NodeId} (h : parse raw.name = .ok node) :
    ¬ raw.IsBlank := by
  intro hb
  rw [parse_eq_error_iff.2 ⟨rfl, Text.isWhite_iff.2 hb⟩] at h
  cases h

/-! ## all that is read -/

theorem parse_append {l r : String} (hl : Text.IsWhite l) (hr : Text.IsWhite r) (text : String)
    (node : NodeId) : parse (l ++ text ++ r) = .ok node ↔ parse text = .ok node := by
  rw [parse_eq_ok_iff, parse_eq_ok_iff, Text.isCore_iff, Text.isCore_iff, String.toList_append,
    String.toList_append, Text.trim_append (Text.isWhite_iff.1 hl) (Text.isWhite_iff.1 hr)]

/-- **Reading an id finds the core of the text**: what is read is the part that begins and ends with
something else than white space and has only white space around it, and a text is refused, and told as it
was, if it has nothing but white space in it.  So what has been read is read as itself, white space around
a text makes no difference to what is read from it, and white space between other characters stays. -/
theorem parse_exact (text : String) :
    (∀ node, parse text = .ok node ↔ Text.IsCore node.name text) ∧
    (∀ fault, parse text = .error fault ↔ fault = .invalidNodeId text ∧ Text.IsWhite text) ∧
    (∀ node, parse text = .ok node → parse node.name = .ok node) ∧
    (∀ l r node, Text.IsWhite l → Text.IsWhite r →
      (parse (l ++ text ++ r) = .ok node ↔ parse text = .ok node)) ∧
    (∀ first inner last, first.toNat ∉ Text.whiteSpace → last.toNat ∉ Text.whiteSpace →
      text.toList = first :: (inner ++ [last]) → parse text = .ok ⟨text⟩) := by
  refine ⟨fun node => parse_eq_ok_iff, fun fault => parse_eq_error_iff,
    fun node h => parse_name (isCanonical_of_parse h),
    fun l r node hl hr => parse_append hl hr text node, ?_⟩
  intro first inner last hfirst hlast htext
  have hlast? : text.toList.getLast? = some last := by
    rw [htext, ← List.cons_append, List.getLast?_append, List.getLast?_singleton, Option.some_or]
  refine parse_eq_ok_iff.2 ⟨?_, ?_, ?_, "", "", nofun, nofun, ?_⟩
  · rintro rfl
    cases htext
  · intro c hc
    rw [htext] at hc
    cases hc
    exact hfirst
  · intro c hc
    rw [hlast?] at hc
    cases hc
    exact hlast
  · rw [String.empty_append, String.append_empty]

/-- white space of several kinds, and a character that only looks like it -/
theorem parse_exact_spaced :
    parse "\u3000a \u2003b\u0085" = .ok ⟨"a \u2003b"⟩ ∧
      parse ("\t" ++ "\u3000a \u2003b\u0085" ++ " \u2029") = .ok ⟨"a \u2003b"⟩ ∧
      parse "a \u2003b" = .ok ⟨"a \u2003b"⟩ ∧
      parse "\u200b\u00a0\u200b" = .ok ⟨"\u200b\u00a0\u200b"⟩ ∧
      parse "\u00a0\n" = .error (.invalidNodeId "\u00a0\n") := by
  have htrimmed : Text.Trimmed "a \u2003b".toList := by
    rw [show "a \u2003b".toList = ['a', ' ', '\u2003', 'b'] by decide +kernel]
    exact ⟨by rintro c ⟨⟩; rfl, by rintro c ⟨⟩; rfl⟩
  obtain ⟨hcore, -, hagain, haround, -⟩ := parse_exact "\u3000a \u2003b\u0085"
  have hparse := (hcore ⟨"a \u2003b"⟩).2 (.of_trimmed (by decide +kernel) htrimmed
    ⟨"\u3000", "\u0085", by decide +kernel, by decide +kernel, by decide +kernel⟩)
  have hmore := (haround "\t" " \u2029" _ (by decide +kernel) (by decide +kernel)).2 hparse
  obtain ⟨-, -, -, -, hinner⟩ := parse_exact "\u200b\u00a0\u200b"
  have hkept := hinner '\u200b' ['\u00a0'] '\u200b' (by decide) (by decide) (by decide +kernel)
  obtain ⟨-, hrefused, -⟩ := parse_exact "\u00a0\n"
  exact ⟨hparse, hmore, hagain _ hparse, hkept, (hrefused _).2 ⟨rfl, by decide +kernel⟩⟩

end NodeId

end OverlayWatch
