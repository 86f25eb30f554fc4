/-!
# Documents

What there is where a file is looked for: nothing, bytes that are no text, or a text.
-/

namespace OverlayWatch

inductive Document where
  | missing
  | undecodable
  | text (content : String)
deriving DecidableEq, Repr

/-- bytes are a text when they are its encoding -/
def Document.ofBytes (bytes : ByteArray) : Document :=
  match String.fromUTF8? bytes with
  | some content => .text content
  | none => .undecodable

/-- why a document cannot be read -/
inductive DocumentFault where
  | notFound
  | invalidData
deriving DecidableEq, Repr

def DocumentFault.name : DocumentFault → String
  | .notFound => "NotFound"
  | .invalidData => "InvalidData"

def Document.read : Document → Except DocumentFault String
  | .missing => .error .notFound
  | .undecodable => .error .invalidData
  | .text content => .ok content

end OverlayWatch
