import OverlayWatch.ReplayCommand

/-!
# The command line program

Looks at the files and variables that the command asks for, and prints what it reports.
-/

open OverlayWatch

def readDocument (path : String) : IO Document := do
  try
    return .ofBytes (← IO.FS.readBinFile path)
  catch _ => return .missing

/-- the variables that a configuration can be overridden by -/
def overrideNames : List String :=
  ["LOG_LEVEL", "LOG_JSON", "MAX_CALLBACK_THREADS", "SHUTDOWN_TIMEOUT_MS"]

def usageText : String :=
  "Usage: nodeprops-replay [--config FILE] [--verbose] [--wait-ms MS] TRACE"

def lineOf (json : Bool) (r : LogRecord) : String :=
  if json then r.line
  else r.level.name ++ " " ++ logTarget ++ ": " ++ r.message ++ " " ++ r.toJson.text

def main (args : List String) : IO UInt32 := do
  let paths := match Invocation.parse args with
    | .ok invocation => invocation.trace :: invocation.config.toList
    | .error _ => []
  let documents ← paths.mapM fun path => do return (path, ← readDocument path)
  let overrides ← overrideNames.mapM fun name => do
    return (name, ← IO.getEnv (envPrefix ++ name))
  let world : ReplayCommand.World :=
    { file := fun path => (documents.lookup path).getD .missing
      env := fun name => (overrides.lookup name).join
      requestedFilter := ← IO.getEnv "RUST_LOG" }
  let report := ReplayCommand.run world args
  for r in report.records do
    IO.println (lineOf report.jsonLogs r)
  match report.summary with
  | some summary => IO.println summary.toJson.pretty
  | none => (if report.exitCode = 0 then IO.println usageText else IO.eprintln usageText)
  return report.exitCode.toUInt32
