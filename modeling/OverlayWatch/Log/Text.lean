import OverlayWatch.Json.Value
import OverlayWatch.Log.Event

/-!
# Log records as JSON

* `LogRecord.toJson`   one object with level, message and fields, by name;
* `LogRecord.line`     its text; records are listed in the order of their lines.
-/

namespace OverlayWatch

open Json

def FieldValue.toJson : FieldValue → Value
  | .count n => .ofNat n
  | .text s => .string s

namespace LogRecord

def entries (r : LogRecord) : List (String × Value) :=
  let named := [("level", .string r.level.name), ("message", .string r.message)] ++
    r.fields.map fun field => (field.1, field.2.toJson)
  named.mergeSort fun a b => (compare a.1 b.1).isLE

def toJson (r : LogRecord) : Value := .object r.entries

def line (r : LogRecord) : String := r.toJson.text

def sort (records : List LogRecord) : List LogRecord :=
  records.mergeSort fun a b => (compare a.line b.line).isLE

end LogRecord

end OverlayWatch
