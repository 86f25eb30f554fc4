import OverlayWatch.Log.Event
import OverlayWatch.Log.Pattern
import OverlayWatch.Text.Numeral
import OverlayWatch.Text.Slice

/-!
# Log filters

A filter is a list of directives, separated by commas.  A directive is a level, a target, or both
with an equals sign between them; after the target there may be a span in brackets, which may name
a field.  Of the directives that speak of an event, the most specific one decides.

* `Directive.parse`    one directive;
* `Filter.parse`       a list of them, if all are well formed;
* `Filter.parseSome`   those of a list that are well formed;
* `Filter.allows`      whether an event is let through.

A target speaks of all targets that begin with it.  A directive without a level lets everything
through, and a filter without directives lets errors through.  Blanks before a directive shift its
parts to the left, and a part that then begins or ends within a character cannot be taken.
-/

namespace OverlayWatch

/-- more severe levels come first -/
def LogLevel.severity : LogLevel → Nat
  | .error => 1
  | .warn => 2
  | .info => 3
  | .debug => 4
  | .trace => 5

/-- what a directive lets through: the levels of at most that severity number, from 0 for none to 5
for all -/
structure Threshold where
  upTo : Nat
deriving DecidableEq, Repr

namespace Threshold

def all : Threshold := ⟨5⟩

def named? (name : String) : Option Threshold :=
  match name with
  | "off" => some ⟨0⟩
  | "error" => some ⟨1⟩
  | "warn" => some ⟨2⟩
  | "info" => some ⟨3⟩
  | "debug" => some ⟨4⟩
  | "trace" => some ⟨5⟩
  | _ => none

/-- by number or by name, capital letters or not -/
def parse? (text : String) : Option Threshold :=
  match (Text.numeral? text).filter (· ≤ 5) with
  | some n => some ⟨n⟩
  | none => named? text.toLower

def allows (t : Threshold) (level : LogLevel) : Bool := level.severity ≤ t.upTo

end Threshold

/-! ## directives -/

structure Directive where
  target : Option String
  /-- speaks only of what happens within a span -/
  inSpan : Bool
  /-- the field that an event must have -/
  field : Option String
  threshold : Threshold
deriving DecidableEq, Repr

namespace Directive

inductive Fault where
  | malformed
  /-- a part would begin or end within a character -/
  | torn
deriving DecidableEq, Repr

/-- how far a directive has been read: what the current part is, and the byte that it begins at -/
inductive Place where
  | start
  | name (since : Nat)
  | span (since : Nat)
  | field (since : Nat)
  | afterField
  | afterSpan
  | level (since : Nat)
deriving DecidableEq, Repr

structure Reading where
  place : Place
  /-- how many bytes have been read -/
  position : Nat
  directive : Directive

def Reading.initial : Reading := ⟨.start, 0, ⟨none, false, none, .all⟩⟩

def startsName (c : Char) : Bool := c == '-' || c == ':' || c == '_' || Text.isAlphanumeric c

def part (text : List Char) (first last : Nat) : Except Fault String :=
  match Text.slice? text first last with
  | some part => .ok (String.ofList part)
  | none => .error .torn

def partFrom (text : List Char) (first : Nat) : Except Fault String :=
  match Text.splitAtByte? text first with
  | some (_, part) => .ok (String.ofList part)
  | none => .error .torn

/-- the name of a field, and whether a number or a pattern for its value follows it -/
def fieldTest (text : String) : Except Fault (String × Bool) :=
  match text.splitOn "=" with
  | name :: value :: _ =>
    if Text.isReal value.toList || Pattern.isWellFormed value.toList then .ok (name, true)
    else .error .malformed
  | _ => if text.isEmpty then .error .malformed else .ok (text, false)

/-- one more character; the parts that it ends are taken out of the text -/
def advance (text : List Char) (r : Reading) (c : Char) : Except Fault Reading := do
  let next := r.position + c.utf8Size
  let d := r.directive
  match r.place with
  | .start =>
    if c == '[' then return ⟨.span next, next, d⟩
    else if startsName c then return ⟨.name r.position, next, d⟩
    else .error .malformed
  | .name since =>
    if c == '=' then
      return ⟨.level next, next, { d with target := some (← part text since r.position) }⟩
    else if c == '[' then
      return ⟨.span next, next, { d with target := some (← part text since r.position) }⟩
    else return ⟨.name since, next, d⟩
  | .span since =>
    if c == ']' then
      let _ ← part text since r.position
      return ⟨.afterSpan, next, { d with inSpan := true }⟩
    else if c == '\x7b' then
      let span ← part text since r.position
      return ⟨.field next, next, { d with inSpan := !span.isEmpty }⟩
    else return ⟨.span since, next, d⟩
  | .field since =>
    if c == '\x7d' then
      let (name, hasValue) ← fieldTest (← part text since r.position)
      return ⟨.afterField, next, { d with inSpan := d.inSpan || hasValue, field := some name }⟩
    else return ⟨.field since, next, d⟩
  | .afterField => if c == ']' then return ⟨.afterSpan, next, d⟩ else .error .malformed
  | .afterSpan => if c == '=' then return ⟨.level next, next, d⟩ else .error .malformed
  | .level since => return ⟨.level since, next, d⟩

/-- a name alone is a level if there is one of that name, else a target -/
def finish (text : List Char) (r : Reading) : Except Fault Directive := do
  let d := r.directive
  match r.place with
  | .name since =>
    let name ← partFrom text since
    match Threshold.parse? name with
    | some t => return { d with threshold := t }
    | none => return { d with target := some name }
  | .level since =>
    let level ← partFrom text since
    if level.isEmpty then return d
    else
      match Threshold.parse? level with
      | some t => return { d with threshold := t }
      | none => .error .malformed
  | .afterSpan => return d
  | _ => .error .malformed

/-- the places of the parts are found without the blanks at both ends; the parts at these places are
taken out of the whole text -/
def parse (text : String) : Except Fault Directive := do
  let r ← (Text.trim text.toList).foldlM (advance text.toList) .initial
  finish text.toList r

/-- whether the directive says anything about events of the target with the fields, outside any
span -/
def speaksOf (d : Directive) (target : String) (fields : List String) : Bool :=
  !d.inSpan && d.target.all (fun t => t.isPrefixOf target) && d.field.all (fields.contains ·)

/-- longer targets first, then with a field, then the later field in the order of fields -/
def specificity (d : Directive) : Nat × Nat × String :=
  (d.target.elim 0 fun t => t.utf8ByteSize + 1, d.field.elim 0 fun _ => 1, d.field.getD "")

def moreSpecific (a b : Directive) : Bool :=
  (compareLex (compareOn fun d => (specificity d).1)
    (compareLex (compareOn fun d => (specificity d).2.1) (compareOn fun d => (specificity d).2.2))
    a b).isGE

end Directive

/-! ## filters -/

abbrev Filter := List Directive

namespace Filter

def parts (text : String) : List String := (text.splitOn ",").filter fun part => !part.isEmpty

/-- the first directive with a fault ends the reading -/
def parse (text : String) : Except Directive.Fault Filter := (parts text).mapM Directive.parse

/-- without the malformed directives; a torn one ends the reading -/
def parseSome (text : String) : Except Directive.Fault Filter :=
  (parts text).foldlM (fun f part =>
    match Directive.parse part with
    | .ok d => .ok (f ++ [d])
    | .error .malformed => .ok f
    | .error .torn => .error .torn) []

/-- the threshold of the most specific directive, the last of equally specific ones -/
def threshold (f : Filter) (target : String) (fields : List String) : Threshold :=
  let speaking := f.filter fun d => d.speaksOf target fields
  match speaking with
  | [] => if f.isEmpty then ⟨1⟩ else ⟨0⟩
  | d :: rest =>
    (rest.foldl (fun best d => if d.moreSpecific best then d else best) d).threshold

def allows (f : Filter) (target : String) (r : LogRecord) : Bool :=
  (f.threshold target ("message" :: r.fields.map Prod.fst)).allows r.level

/-- the filter in force: the one asked for unless it is malformed, else what is well formed of the
level -/
def choose (requested : Option String) (level : String) : Except Directive.Fault Filter :=
  match requested.map parse with
  | some (.ok f) => .ok f
  | some (.error .torn) => .error .torn
  | _ => parseSome level

end Filter

end OverlayWatch
