import OverlayWatch.Json.Value
import OverlayWatch.Fault

/-!
# What can be wrong with a JSON text

A text may end too early, be no JSON, or be JSON of another shape than was asked for.

* `Found`      what stood where something else was expected;
* `Mismatch`   how the shape differs, with the text that reports it;
* `Error`      the three ways to fail.
-/

namespace OverlayWatch.Json

inductive Found where
  | null
  | bool (b : Bool)
  | number (n : Number)
  | string (s : String)
  | sequence
  | map
deriving DecidableEq, Repr

def Found.describe : Found → String
  | .null => "null"
  | .bool b => "boolean " ++ tick (toString b)
  | .number (.integer n) => "integer " ++ tick (toString n)
  | .number x => "floating point " ++ tick (String.ofList x.text)
  | .string s => "string " ++ Text.quote s
  | .sequence => "sequence"
  | .map => "map"
where
  tick (s : String) : String := "\x60" ++ s ++ "\x60"

def Value.found : Value → Found
  | .null => .null
  | .bool b => .bool b
  | .number n => .number n
  | .string s => .string s
  | .array _ => .sequence
  | .object _ => .map

inductive Mismatch where
  | missingField (name : String)
  | duplicateField (name : String)
  | unknownVariant (name : String) (known : List String)
  | invalidType (found : Found) (expected : String)
  | invalidLength (length : Nat) (expected : String)
  | invalidContent (fault : InputFault)
deriving DecidableEq, Repr

/-- names stand between backquotes -/
def Mismatch.message : Mismatch → String
  | .missingField name => "missing field " ++ Found.describe.tick name
  | .duplicateField name => "duplicate field " ++ Found.describe.tick name
  | .unknownVariant name known =>
    "unknown variant " ++ Found.describe.tick name ++ ", expected " ++
      String.intercalate " or " (known.map Found.describe.tick)
  | .invalidType found expected => "invalid type: " ++ found.describe ++ ", expected " ++ expected
  | .invalidLength length expected =>
    "invalid length " ++ toString length ++ ", expected " ++ expected
  | .invalidContent fault => fault.message

inductive Error where
  /-- the text ends too early -/
  | eof
  /-- the text is no JSON -/
  | malformed
  /-- the text is JSON so far, of a wrong shape -/
  | mismatch (m : Mismatch)
deriving DecidableEq, Repr

/-- ends too early if nothing is left, and is malformed otherwise -/
def Error.at : List Char → Error
  | [] => .eof
  | _ :: _ => .malformed

theorem Error.at_nil : Error.at [] = .eof := rfl
theorem Error.at_cons (c : Char) (rest : List Char) : Error.at (c :: rest) = .malformed := rfl

end OverlayWatch.Json
