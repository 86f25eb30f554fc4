import OverlayWatch.Log.Pattern.Escape

/-!
# Bracketed sets of a pattern

A set stands between brackets and lists characters, ranges, named classes and further sets; a caret
in front takes the complement.  Two ampersands, hyphens or tildes combine what stands on their two
sides.

* `joined`          how deeply a list of parts is nested;
* `OpenSet`         a set whose closing bracket has not come yet;
* `readSet?`        the nesting of a set, and what is left after it.

Hyphens that a set begins with stand for themselves, and so does a closing bracket there.
-/

namespace OverlayWatch.Pattern

/-- several parts are one level deeper than each of them -/
def joined : List Nat → Nat
  | [] => 0
  | [depth] => depth
  | depths => 1 + depths.foldl max 0

theorem joined_nil : joined [] = 0 := rfl
theorem joined_singleton (depth : Nat) : joined [depth] = depth := rfl

structure OpenSet where
  negated : Bool
  /-- the nesting of what stands before the last combining mark -/
  combined : Option Nat
  /-- the nesting of the parts since then -/
  parts : List Nat
deriving DecidableEq, Repr

namespace OpenSet

def depth (s : OpenSet) : Nat :=
  match s.combined with
  | none => joined s.parts
  | some before => 1 + max before (joined s.parts)

def combine (s : OpenSet) : OpenSet := ⟨s.negated, some s.depth, []⟩

def insert (s : OpenSet) (depth : Nat) : OpenSet := { s with parts := depth :: s.parts }

end OpenSet

/-! ## parts -/

def classNames : List String :=
  ["alnum", "alpha", "ascii", "blank", "cntrl", "digit", "graph", "lower", "print", "punct", "space",
    "upper", "word", "xdigit"]

/-- a named class from its colon on, and whether its complement is meant -/
def named? : List Char → Option (Bool × List Char)
  | ':' :: rest =>
    let (negated, rest) : Bool × List Char :=
      match rest with
      | '^' :: rest => (true, rest)
      | rest => (false, rest)
    let name := rest.takeWhile (· != ':')
    match rest.drop name.length with
    | ':' :: ']' :: rest =>
      if classNames.contains (String.ofList name) then some (negated, rest) else none
    | _ => none
  | _ => none

/-- the hyphens that a set begins with; none if the pattern ends with them -/
def openHyphens? (m : Mode) : Nat → Nat → List Char → Option (Nat × List Char)
  | 0, _, _ => none
  | fuel + 1, count, s =>
    match m.skip s with
    | [] => none
    | '-' :: rest => openHyphens? m fuel (count + 1) rest
    | s => some (count, s)

/-- from behind the opening bracket on -/
def openSet? (m : Mode) (s : List Char) : Option (OpenSet × List Char) := do
  let (negated, s) : Bool × List Char :=
    match m.skip s with
    | '^' :: rest => (true, rest)
    | s => (false, s)
  let (hyphens, s) ← openHyphens? m (s.length + 1) 0 s
  match hyphens, s with
  | 0, ']' :: rest =>
    if m.admitsInSet ⟨']', false⟩ && m.skip rest != [] then return (⟨negated, none, [0]⟩, rest)
    else none
  | 0, s => return (⟨negated, none, []⟩, s)
  | hyphens, s =>
    if m.admitsInSet ⟨'-', false⟩ then return (⟨negated, none, List.replicate hyphens 0⟩, s)
    else none

def setItem? (m : Mode) : List Char → Option (Escaped × List Char)
  | [] => none
  | '\\' :: rest => m.escape? rest
  | c :: rest => some (.literal ⟨c, false⟩, rest)

/-- a hyphen makes a range, unless another hyphen or the closing bracket follows it -/
def isRange (m : Mode) : List Char → Bool
  | '-' :: rest => m.peek? rest != some ']' && m.peek? rest != some '-'
  | _ => false

/-- what is left after a character, a class or a range; none if there is none, or an improper one -/
def skipItem? (m : Mode) (s : List Char) : Option (List Char) := do
  let (first, rest) ← setItem? m s
  let rest := m.skip rest
  if rest.isEmpty then none
  else if isRange m rest then
    let (last, rest) ← setItem? m (m.skip (rest.drop 1))
    match first, last with
    | .literal a, .literal b =>
      if m.admitsInSet a && m.admitsInSet b && a.char ≤ b.char then return rest else none
    | _, _ => none
  else
    match first with
    | .literal l => if m.admitsInSet l then return rest else none
    | .class negated => if m.admitsClass negated then return rest else none
    | _ => none

/-! ## sets -/

/-- from within the innermost of the open sets on -/
def closeSets? (m : Mode) :
    Nat → OpenSet → List OpenSet → List Char → Option (Nat × List Char)
  | 0, _, _, _ => none
  | fuel + 1, inner, outer, s =>
    match m.skip s with
    | [] => none
    | '[' :: rest =>
      match named? rest with
      | some (negated, rest) =>
        if m.admitsNamed negated then closeSets? m fuel (inner.insert 0) outer rest else none
      | none => do
        let (opened, rest) ← openSet? m rest
        closeSets? m fuel opened (inner :: outer) rest
    | ']' :: rest =>
      if m.admitsSet inner.negated then
        match outer with
        | [] => some (1 + inner.depth, rest)
        | next :: outer => closeSets? m fuel (next.insert (1 + inner.depth)) outer rest
      else none
    | '&' :: '&' :: rest => closeSets? m fuel inner.combine outer rest
    | '-' :: '-' :: rest => closeSets? m fuel inner.combine outer rest
    | '~' :: '~' :: rest => closeSets? m fuel inner.combine outer rest
    | s => do closeSets? m fuel inner outer (← skipItem? m s)

/-- from behind the opening bracket on -/
def readSet? (m : Mode) (s : List Char) : Option (Nat × List Char) := do
  let (opened, rest) ← openSet? m s
  closeSets? m (s.length + 1) opened [] rest

end OverlayWatch.Pattern
