import OverlayWatch.Json.Number
import OverlayWatch.Text.Hex

/-!
# JSON values and their text

* `Value`           null, booleans, numbers, strings, arrays, and objects with their fields in order;
* `Value.render`    the text without blanks;
* `Value.pretty`    the text over several lines, two blanks per level;
* `renderString`    a string: quote, backslash and control characters are escaped, nothing else.
-/

namespace OverlayWatch.Json

inductive Value where
  | null
  | bool (b : Bool)
  | number (n : Number)
  | string (s : String)
  | array (items : List Value)
  | object (fields : List (String × Value))
deriving Repr

/-! ## strings -/

def escape (c : Char) : List Char :=
  match c with
  | '"' => ['\\', '"']
  | '\\' => ['\\', '\\']
  | '\x08' => ['\\', 'b']
  | '\t' => ['\\', 't']
  | '\n' => ['\\', 'n']
  | '\x0c' => ['\\', 'f']
  | '\r' => ['\\', 'r']
  | c => if c.toNat < 0x20 then ['\\', 'u'] ++ Text.hexText4 c.toNat else [c]

def renderString (s : String) : List Char := '"' :: s.toList.flatMap escape ++ ['"']

/-! ## compact text -/

namespace Value

def ofNat (n : Nat) : Value := .number (.integer n)

mutual

def render : Value → List Char
  | .null => ['n', 'u', 'l', 'l']
  | .bool true => ['t', 'r', 'u', 'e']
  | .bool false => ['f', 'a', 'l', 's', 'e']
  | .number n => n.text
  | .string s => renderString s
  | .array items => '[' :: renderItems items ++ [']']
  | .object fields => '{' :: renderFields fields ++ ['}']

def renderItems : List Value → List Char
  | [] => []
  | [v] => v.render
  | v :: rest => v.render ++ ',' :: renderItems rest

def renderFields : List (String × Value) → List Char
  | [] => []
  | [(name, v)] => renderString name ++ ':' :: v.render
  | (name, v) :: rest => renderString name ++ ':' :: v.render ++ ',' :: renderFields rest

end

def text (v : Value) : String := String.ofList v.render

/-! ## text over several lines -/

def newLine (depth : Nat) : List Char := '\n' :: List.replicate (2 * depth) ' '

mutual

def prettyAt (depth : Nat) : Value → List Char
  | .array [] => ['[', ']']
  | .array items => '[' :: prettyItems (depth + 1) items ++ newLine depth ++ [']']
  | .object [] => ['{', '}']
  | .object fields => '{' :: prettyFields (depth + 1) fields ++ newLine depth ++ ['}']
  | v => v.render

def prettyItems (depth : Nat) : List Value → List Char
  | [] => []
  | [v] => newLine depth ++ v.prettyAt depth
  | v :: rest => newLine depth ++ v.prettyAt depth ++ ',' :: prettyItems depth rest

def prettyFields (depth : Nat) : List (String × Value) → List Char
  | [] => []
  | [(name, v)] => newLine depth ++ renderString name ++ ':' :: ' ' :: v.prettyAt depth
  | (name, v) :: rest =>
    newLine depth ++ renderString name ++ ':' :: ' ' :: v.prettyAt depth ++
      ',' :: prettyFields depth rest

end

def pretty (v : Value) : String := String.ofList (v.prettyAt 0)

end Value

end OverlayWatch.Json
