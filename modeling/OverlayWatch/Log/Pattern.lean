import OverlayWatch.Log.Pattern.Charset
import OverlayWatch.Text.Letter

/-!
# Patterns of texts

A pattern is a regular expression: alternatives between bars, parts one after the other, repeated
by the marks `?`, `*` and `+`, groups in parentheses, sets in brackets.  A pattern stands within
braces and ends at the closing one, so no repetition is counted and an opening brace is refused.

* `Pattern.depth?`         how deeply the parts of a pattern are nested; `none` if it is malformed;
* `Pattern.isWellFormed`   a pattern that is not nested too deeply.

A question mark behind an opening parenthesis names the group or switches the mode in which the rest
of the group is read.
-/

namespace OverlayWatch.Pattern

/-! ## the head of a group -/

def startsGroupName (c : Char) : Bool := c == '_' || Text.isAlphabetic c

def continuesGroupName (c : Char) : Bool :=
  c == '_' || c == '.' || c == '[' || c == ']' || Text.isAlphanumeric c

def isGroupName : List Char → Bool
  | [] => false
  | c :: rest => startsGroupName c && rest.all continuesGroupName

def Mode.switch (m : Mode) (switchedOn : Bool) : Char → Option Mode
  | 'i' => some { m with caseless := switchedOn }
  | 'u' => some { m with unicode := switchedOn }
  | 'x' => some { m with spaced := switchedOn }
  | 'm' => some m
  | 's' => some m
  | 'U' => some m
  | 'R' => some m
  | _ => none

/-- what an opening parenthesis begins -/
inductive GroupHead where
  | group (name : Option String) (mode : Mode)
  /-- no group: the mode changes within the group around it -/
  | switched (mode : Mode)

/-- the letters of a mode, each at most once; those behind a hyphen are switched off -/
def switches? (m : Mode) (seen : List Char) : List Char → Option (GroupHead × List Char)
  | [] => none
  | c :: rest =>
    if c == ':' || c == ')' then
      if seen.head? == some '-' || (c == ')' && seen.isEmpty) then none
      else if c == ':' then some (.group none m, rest)
      else some (.switched m, rest)
    else if seen.contains c then none
    else if c == '-' then switches? m ('-' :: seen) rest
    else (m.switch (!seen.contains '-') c).bind fun m => switches? m (c :: seen) rest

def groupName? (m : Mode) (names : List String) (s : List Char) :
    Option (GroupHead × List Char) :=
  let name := s.takeWhile (· != '>')
  match s.drop name.length with
  | '>' :: rest =>
    if isGroupName name && !names.contains (String.ofList name) then
      some (.group (some (String.ofList name)) m, rest)
    else none
  | _ => none

/-- from behind the opening parenthesis on; looking ahead or behind is refused -/
def groupHead? (m : Mode) (names : List String) (s : List Char) : Option (GroupHead × List Char) :=
  match m.skip s with
  | '?' :: '=' :: _ => none
  | '?' :: '!' :: _ => none
  | '?' :: '<' :: '=' :: _ => none
  | '?' :: '<' :: '!' :: _ => none
  | '?' :: 'P' :: '<' :: rest => groupName? m names rest
  | '?' :: '<' :: rest => groupName? m names rest
  | '?' :: rest => switches? m [] rest
  | s => some (.group none m, s)

/-! ## groups -/

structure Part where
  depth : Nat
  /-- may be repeated -/
  repeats : Bool
deriving DecidableEq, Repr

/-- a group whose closing parenthesis has not come yet; the whole pattern is one, too -/
structure OpenGroup where
  /-- how the characters behind the group are read -/
  outside : Mode
  /-- the nesting of the deepest alternative so far -/
  alternatives : Option Nat
  /-- the parts of the current alternative, the last one first -/
  parts : List Part

namespace OpenGroup

def opened (outside : Mode) : OpenGroup := ⟨outside, none, []⟩

/-- the nesting of the current alternative -/
def current (g : OpenGroup) : Nat := joined (g.parts.map Part.depth)

def depth (g : OpenGroup) : Nat :=
  match g.alternatives with
  | none => g.current
  | some deepest => 1 + max deepest g.current

def endAlternative (g : OpenGroup) : OpenGroup :=
  { g with alternatives := some (max (g.alternatives.getD 0) g.current), parts := [] }

def add (g : OpenGroup) (part : Part) : OpenGroup := { g with parts := part :: g.parts }

/-- the last part, if it may be repeated, is; the repetition may be repeated as well -/
def repeatLast? (g : OpenGroup) : Option OpenGroup :=
  match g.parts with
  | part :: parts =>
    if part.repeats then some { g with parts := ⟨1 + part.depth, true⟩ :: parts } else none
  | [] => none

end OpenGroup

/-! ## patterns -/

def leaf : Part := ⟨0, true⟩

/-- a second question mark behind a repetition belongs to it -/
def skipReluctance : List Char → List Char
  | '?' :: rest => rest
  | s => s

def Mode.admitsEscaped (m : Mode) : Escaped → Bool
  | .literal l => m.admits l
  | .class negated => m.admitsClass negated
  | .textEdge => true
  | .wordEdge => !m.unicode

/-- from within the innermost of the open groups on, with the names of the groups so far -/
def closeGroups? :
    Nat → Mode → List String → OpenGroup → List OpenGroup → List Char → Option Nat
  | 0, _, _, _, _, _ => none
  | fuel + 1, m, names, inner, outer, s =>
    match m.skip s with
    | [] => if outer.isEmpty then some inner.depth else none
    | c :: rest =>
      let leafIf (admitted : Bool) (rest : List Char) : Option Nat :=
        if admitted then closeGroups? fuel m names (inner.add leaf) outer rest else none
      match c with
      | '(' => do
        match ← groupHead? m names rest with
        | (.switched mode, rest) =>
          closeGroups? fuel mode names (inner.add ⟨0, false⟩) outer rest
        | (.group name mode, rest) =>
          closeGroups? fuel mode (name.toList ++ names) (.opened m) (inner :: outer) rest
      | ')' =>
        match outer with
        | [] => none
        | next :: outer =>
          closeGroups? fuel inner.outside names (next.add ⟨1 + inner.depth, true⟩) outer rest
      | '|' => closeGroups? fuel m names inner.endAlternative outer rest
      | '[' => do
        let (depth, rest) ← readSet? m rest
        closeGroups? fuel m names (inner.add ⟨depth, true⟩) outer rest
      | '{' => none
      | '\\' => do
        let (escaped, rest) ← m.escape? rest
        leafIf (m.admitsEscaped escaped) rest
      | '.' => leafIf m.unicode rest
      | '^' => leafIf true rest
      | '$' => leafIf true rest
      | c =>
        if c == '?' || c == '*' || c == '+' then do
          closeGroups? fuel m names (← inner.repeatLast?) outer (skipReluctance rest)
        else leafIf (m.admits ⟨c, false⟩) rest

def depth? (s : List Char) : Option Nat :=
  closeGroups? (s.length + 1) .initial [] (.opened .initial) [] s

theorem depth?_nil : depth? [] = some 0 := rfl

def deepest : Nat := 250

def isWellFormed (s : List Char) : Bool := (depth? s).any fun depth => depth ≤ deepest

end OverlayWatch.Pattern
