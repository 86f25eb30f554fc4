import OverlayWatch.Text.Numeral

/-!
# Command lines

* `Invocation`            what a command line asks for;
* `Invocation.parse`      reads the arguments from left to right;
* `Refusal`               help and version are asked for, or the arguments are not right.

The options are `--config FILE` (`-c`), `--verbose` (`-v`, which may be repeated), `--wait-ms MS`,
`--help` (`-h`) and `--version` (`-V`); one argument that is no option names the trace.  The value
of an option may stand in the next argument or, after an equals sign, in the same; short options may
share an argument.  After `--` nothing is an option.
-/

namespace OverlayWatch

structure Invocation where
  trace : String
  config : Option String
  verbosity : Nat
  waitMs : Nat
deriving DecidableEq, Repr

/-- why there is nothing to run -/
inductive Refusal where
  | help
  | version
  | usage
deriving DecidableEq, Repr

/-- usage errors alone are errors -/
def Refusal.exitCode : Refusal → Nat
  | .help => 0
  | .version => 0
  | .usage => 2

namespace Invocation

/-- what has been read so far -/
structure Draft where
  trace : Option String
  config : Option String
  verbosity : Nat
  waitMs : Option Nat
deriving DecidableEq, Repr

def Draft.blank : Draft := ⟨none, none, 0, none⟩

def defaultWaitMs : Nat := 5000

/-- the options by name -/
inductive Switch where
  | config
  | verbose
  | waitMs
  | help
  | version
deriving DecidableEq, Repr

def Switch.ofLong? : String → Option Switch
  | "config" => some .config
  | "verbose" => some .verbose
  | "wait-ms" => some .waitMs
  | "help" => some .help
  | "version" => some .version
  | _ => none

def Switch.ofShort? : Char → Option Switch
  | 'c' => some .config
  | 'v' => some .verbose
  | 'h' => some .help
  | 'V' => some .version
  | _ => none

def Switch.takesValue : Switch → Bool
  | .config => true
  | .waitMs => true
  | _ => false

/-- an option that takes no value -/
def Draft.flag (d : Draft) : Switch → Except Refusal Draft
  | .verbose => .ok { d with verbosity := d.verbosity + 1 }
  | .help => .error .help
  | .version => .error .version
  | _ => .error .usage

/-- an option that takes a value: not twice, and no value that is none -/
def Draft.set (d : Draft) (option : Switch) (value : String) : Except Refusal Draft :=
  match option with
  | .config =>
    if d.config.isSome ∨ value.isEmpty then .error .usage else .ok { d with config := some value }
  | .waitMs =>
    match d.waitMs, Text.numeral? value with
    | none, some n => .ok { d with waitMs := some n }
    | _, _ => .error .usage
  | _ => .error .usage

def Draft.setTrace (d : Draft) (path : String) : Except Refusal Draft :=
  if d.trace.isSome ∨ path.isEmpty then .error .usage else .ok { d with trace := some path }

/-- short options that share an argument; an option left waiting for its value is handed back -/
def readShort (d : Draft) : List Char → Except Refusal (Draft × Option Switch)
  | [] => .ok (d, none)
  | c :: rest =>
    match Switch.ofShort? c with
    | none => .error .usage
    | some option =>
      if option.takesValue then
        match rest with
        | [] => .ok (d, some option)
        | '=' :: value => (d.set option (String.ofList value)).map (·, none)
        | value => (d.set option (String.ofList value)).map (·, none)
      else do readShort (← d.flag option) rest

/-- a long option, without the dashes -/
def readLong (d : Draft) (text : List Char) : Except Refusal (Draft × Option Switch) :=
  let name := text.takeWhile (· != '=')
  match Switch.ofLong? (String.ofList name), text.drop name.length with
  | none, _ => .error .usage
  | some option, [] =>
    if option.takesValue then .ok (d, some option) else (d.flag option).map (·, none)
  | some option, _ :: value =>
    if option.takesValue then (d.set option (String.ofList value)).map (·, none)
    else .error .usage

/-- what begins with a dash is an option, a lone dash is not -/
def looksLikeOption : List Char → Bool
  | '-' :: _ :: _ => true
  | _ => false

/-- `waiting` is the option whose value the next argument is -/
def readArgs (d : Draft) (waiting : Option Switch) : List String → Except Refusal Draft
  | [] => if waiting.isSome then .error .usage else .ok d
  | arg :: rest =>
    match waiting, arg.toList with
    | some option, text =>
      if looksLikeOption text then .error .usage
      else (d.set option arg).bind fun d => readArgs d none rest
    | none, ['-', '-'] => rest.foldlM Draft.setTrace d
    | none, '-' :: '-' :: name => (readLong d name).bind fun read => readArgs read.1 read.2 rest
    | none, '-' :: c :: more =>
      (readShort d (c :: more)).bind fun read => readArgs read.1 read.2 rest
    | none, _ => (d.setTrace arg).bind fun d => readArgs d none rest

/-- there must be a trace -/
def parse (args : List String) : Except Refusal Invocation := do
  let d ← readArgs .blank none args
  match d.trace with
  | some trace => return ⟨trace, d.config, d.verbosity, d.waitMs.getD defaultWaitMs⟩
  | none => .error .usage

end Invocation

end OverlayWatch
