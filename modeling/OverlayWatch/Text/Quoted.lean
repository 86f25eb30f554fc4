import OverlayWatch.Text.Hex
import OverlayWatch.Text.Shown

/-!
# Quoted text

How messages quote a text: between double quotes, with a backslash before a quote and a backslash,
short escapes for tab, return, newline and NUL, and the code point in braces for every other
character that is not shown as itself.  Lists and maps of such texts stand between brackets
and braces.

* `quote`        a quoted text;
* `bracketed`    `[a, b]`, a list of rendered items;
* `braced`       `{a: b, c: d}`, the rendered entries of a map.
-/

namespace OverlayWatch.Text

/-! ## quoting -/

def quoteChar (c : Char) : List Char :=
  match c with
  | '\x00' => ['\\', '0']
  | '\t' => ['\\', 't']
  | '\r' => ['\\', 'r']
  | '\n' => ['\\', 'n']
  | '"' => ['\\', '"']
  | '\\' => ['\\', '\\']
  | c => if isShown c then [c] else ['\\', 'u', '{'] ++ hexText c.toNat ++ ['}']

def quote (s : String) : String :=
  String.ofList ('"' :: s.toList.flatMap quoteChar ++ ['"'])

/-! ## lists and maps -/

def bracketed (items : List String) : String :=
  "[" ++ String.intercalate ", " items ++ "]"

def braced (entries : List (String × String)) : String :=
  "\x7b" ++ String.intercalate ", " (entries.map fun e => e.1 ++ ": " ++ e.2) ++ "\x7d"

end OverlayWatch.Text
