import OverlayWatch.Config
import OverlayWatch.Document
import OverlayWatch.Toml.Document

/-!
# Configuration files

A configuration file is a TOML document with the sections `notify` and `logging`.  All settings may
be left out, and settings that nobody knows are ignored.  A section may also be given as an array of
its settings in their order.

* `Config.ofToml?`   the settings of a document, if each has the right type;
* `Config.load`      from a file, if one is named and there, with the overrides of the environment.
-/

namespace OverlayWatch

open Toml

/-! ## settings -/

/-- the named settings of a section; a date is a section without any that is known -/
def Toml.Value.settings? (names : List String) : Value → Option (List (String × Value))
  | .table entries => some entries
  | .array items => some (names.zip items)
  | .datetime => some []
  | _ => none

/-- a setting that is left out keeps its default; one of the wrong type spoils the document -/
def setting {α : Type} (read : Value → Option α) (base : α) (settings : List (String × Value))
    (name : String) : Option α :=
  match settings.lookup name with
  | none => some base
  | some v => read v

def Toml.Value.asText? : Value → Option String
  | .string s => some s
  | _ => none

def Toml.Value.asBool? : Value → Option Bool
  | .bool b => some b
  | _ => none

/-- numbers of threads and of milliseconds are not negative -/
def Toml.Value.asCount? : Value → Option Nat
  | .integer n => n.toNat?
  | _ => none

/-! ## sections -/

def PoolSettings.ofToml? (v : Value) : Option PoolSettings := do
  let settings ← v.settings? ["max_callback_threads", "shutdown_timeout_ms", "thread_name"]
  let base := PoolSettings.default
  let maxThreads ← setting Value.asCount? base.maxThreads settings "max_callback_threads"
  let shutdownMs ← setting Value.asCount? base.shutdownMs settings "shutdown_timeout_ms"
  let threadName ← setting Value.asText? base.threadName settings "thread_name"
  return { maxThreads, shutdownMs, threadName }

def LoggingSettings.ofToml? (v : Value) : Option LoggingSettings := do
  let settings ← v.settings? ["level", "json_format"]
  let base := LoggingSettings.default
  let level ← setting Value.asText? base.level settings "level"
  let jsonFormat ← setting Value.asBool? base.jsonFormat settings "json_format"
  return { level, jsonFormat }

namespace Config

def ofToml? (v : Value) : Option Config := do
  let settings ← v.settings? ["notify", "logging"]
  let pool ← setting PoolSettings.ofToml? .default settings "notify"
  let logging ← setting LoggingSettings.ofToml? .default settings "logging"
  return { pool, logging }

/-! ## files -/

inductive Fault where
  | unreadable (fault : DocumentFault)
  /-- the text is no TOML, or a setting has the wrong type -/
  | notAConfig
  | invalid (fault : ServiceFault)
deriving DecidableEq, Repr

def ofText (text : String) : Except Fault Config :=
  match (document? text).bind ofToml? with
  | some c => .ok c
  | none => .error .notAConfig

/-- a file that is named but not there counts as one that is not named -/
def ofFile : Option Document → Except Fault Config
  | none => .ok .default
  | some .missing => .ok .default
  | some document =>
    match document.read with
    | .error fault => .error (.unreadable fault)
    | .ok text => ofText text

/-- what the environment leaves is checked, not what the file says -/
def load (file : Option Document) (env : Environment) : Except Fault Config := do
  let base ← ofFile file
  let c := base.override env
  match c.check with
  | .ok () => return c
  | .error fault => .error (.invalid fault)

end Config

end OverlayWatch
