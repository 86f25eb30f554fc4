import OverlayWatch.Text.Numeral
import OverlayWatch.WorkerPool

/-!
# Configuration

What can be set is the notification pool and the logging.  A setting comes from the environment if
it is set there to something it can be, else from the configuration file, else it has its default.

* `Config.default`       the defaults;
* `Environment`          looks a variable up by its name without the common prefix;
* `Config.override`      the settings that the environment decides;
* `Config.check`         whether a pool can be started with the settings.
-/

namespace OverlayWatch

structure LoggingSettings where
  level : String
  jsonFormat : Bool
deriving DecidableEq, Repr

structure Config where
  pool : PoolSettings
  logging : LoggingSettings
deriving DecidableEq, Repr

/-- the prefix of the names of environment variables -/
def envPrefix : String := "NODEPROPS_"

/-- an unset variable and one that is no text look the same -/
abbrev Environment := String → Option String

def LoggingSettings.default : LoggingSettings := ⟨"info", false⟩

namespace Config

def default : Config := ⟨.default, .default⟩

/-! ## overrides -/

/-- the only texts that switch something on -/
def isOn (text : String) : Bool := text == "true" || text == "1"

/-- a text that is no numeral changes nothing -/
def numberOr (base : Nat) (text : Option String) : Nat := (text.bind Text.numeral?).getD base

def override (base : Config) (env : Environment) : Config where
  pool :=
    { base.pool with
      maxThreads := numberOr base.pool.maxThreads (env "MAX_CALLBACK_THREADS")
      shutdownMs := numberOr base.pool.shutdownMs (env "SHUTDOWN_TIMEOUT_MS") }
  logging :=
    { level := (env "LOG_LEVEL").getD base.logging.level
      jsonFormat := ((env "LOG_JSON").map isOn).getD base.logging.jsonFormat }

/-! ## checking -/

/-- a fault of the pool's settings is told as one of the `notify` section -/
def check (c : Config) : Except ServiceFault Unit :=
  c.pool.check.mapError fun
    | .invalidSettings detail => .invalidConfig ("notify." ++ detail)
    | fault => .notification fault

theorem check_eq_ok_iff (c : Config) : c.check = .ok () ↔ 1 ≤ c.pool.maxThreads := by
  rw [← PoolSettings.check_eq_ok_iff]
  unfold check
  cases c.pool.check with
  | error fault => cases fault <;> exact ⟨nofun, nofun⟩
  | ok u => cases u; exact ⟨fun _ => rfl, fun _ => rfl⟩

end Config

end OverlayWatch
