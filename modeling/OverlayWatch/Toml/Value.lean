/-!
# TOML values

What a TOML document holds, as far as a configuration is concerned: no setting is a float or a date,
so of these only the kind is kept.

* `Value`            a value, tables with their entries in order;
* `Value.entry?`     what a table has under a key.
-/

namespace OverlayWatch.Toml

inductive Value where
  | string (s : String)
  | integer (n : Int)
  | float
  | bool (b : Bool)
  | datetime
  | array (items : List Value)
  | table (entries : List (String × Value))
deriving Repr

abbrev Reader (α : Type) := List Char → Option (α × List Char)

end OverlayWatch.Toml
