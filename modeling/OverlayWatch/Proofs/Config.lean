import OverlayWatch.Config.File
import OverlayWatch.Proofs.Text.Numeral

/-!
# The configuration in effect

* `Config.Settled`           what a variable makes of one setting;
* `Config.Effective`         all settings, each by its own variable;
* `Config.eq_override_iff`   the overrides lead there, and nowhere else;
* `Config.IsBase`            what a configuration starts from: the defaults, or what a file says;
* `Config.load_eq`           it is checked once the variables have been looked at;
* `Config.load_decided`      what comes out of it, for every file and every environment.
-/

namespace OverlayWatch

namespace Config

/-! ## one setting -/

/-- `Reads text a` when `a` is what the text of a variable can be read as; a variable that is unset, or
set to what cannot be read, leaves the base -/
inductive Settled {α : Type} (Reads : String → α → Prop) (base : α) :
    Option String → α → Prop where
  | unset : Settled Reads base none base
  | read {text : String} {a : α} (h : Reads text a) : Settled Reads base (some text) a
  | unread {text : String} (h : ∀ a, ¬ Reads text a) : Settled Reads base (some text) base

theorem settled_iff {α : Type} {read : String → Option α} {Reads : String → α → Prop}
    (hread : ∀ text a, read text = some a ↔ Reads text a) {base a : α} {text? : Option String} :
    Settled Reads base text? a ↔ a = (text?.bind read).getD base := by
  constructor
  · intro h
    cases h with
    | unset => rfl
    | @read text _ h =>
      show a = (read text).getD base
      rw [(hread text a).2 h, Option.getD_some]
    | @unread text h =>
      have hnone : read text = none :=
        Option.eq_none_iff_forall_ne_some.2 fun b hb => h b ((hread text b).1 hb)
      show base = (read text).getD base
      rw [hnone, Option.getD_none]
  · rintro rfl
    cases text? with
    | none => exact .unset
    | some text =>
      show Settled Reads base _ ((read text).getD base)
      cases hr : read text with
      | none =>
        refine .unread fun a ha => ?_
        rw [(hread text a).2 ha] at hr
        cases hr
      | some a => exact .read ((hread text a).1 hr)

/-! ## all of them -/

/-- any text is a level; two texts switch the format on and all others off; thread names have no variable -/
structure Effective (base : Config) (env : Environment) (c : Config) : Prop where
  level : Settled (fun text level => level = text) base.logging.level (env "LOG_LEVEL") c.logging.level
  jsonFormat : Settled (fun text on => on = true ↔ text = "true" ∨ text = "1")
    base.logging.jsonFormat (env "LOG_JSON") c.logging.jsonFormat
  maxThreads : Settled Text.IsNumeral base.pool.maxThreads (env "MAX_CALLBACK_THREADS") c.pool.maxThreads
  shutdownMs : Settled Text.IsNumeral base.pool.shutdownMs (env "SHUTDOWN_TIMEOUT_MS") c.pool.shutdownMs
  threadName : c.pool.threadName = base.pool.threadName

theorem isOn_iff (text : String) : isOn text = true ↔ text = "true" ∨ text = "1" := by
  rw [isOn, Bool.or_eq_true, beq_iff_eq, beq_iff_eq]

theorem settled_level {base level : String} {text? : Option String} :
    Settled (fun text level => level = text) base text? level ↔ level = text?.getD base := by
  have hread : ∀ text level : String, some text = some level ↔ level = text := fun text level => by
    rw [Option.some.injEq, eq_comm]
  rw [settled_iff hread, Option.bind_fun_some]

theorem settled_jsonFormat {base on : Bool} {text? : Option String} :
    Settled (fun text on => on = true ↔ text = "true" ∨ text = "1") base text? on ↔
      on = (text?.map isOn).getD base := by
  have hread : ∀ text on, some (isOn text) = some on ↔ (on = true ↔ text = "true" ∨ text = "1") := by
    intro text on
    rw [Option.some.injEq, ← isOn_iff, Bool.eq_iff_iff]
    exact iff_comm
  rw [settled_iff hread, Option.map_eq_bind]
  rfl

theorem settled_number {base n : Nat} {text? : Option String} :
    Settled Text.IsNumeral base text? n ↔ n = numberOr base text? :=
  settled_iff fun _ _ => Text.numeral?_eq_some_iff

theorem eq_override_iff {base c : Config} {env : Environment} :
    c = base.override env ↔ Effective base env c := by
  constructor
  · rintro rfl
    exact ⟨settled_level.2 rfl, settled_jsonFormat.2 rfl, settled_number.2 rfl, settled_number.2 rfl,
      rfl⟩
  · intro h
    obtain ⟨⟨maxThreads, shutdownMs, threadName⟩, ⟨level, jsonFormat⟩⟩ := c
    obtain rfl : level = _ := settled_level.1 h.level
    obtain rfl : jsonFormat = _ := settled_jsonFormat.1 h.jsonFormat
    obtain rfl : maxThreads = _ := settled_number.1 h.maxThreads
    obtain rfl : shutdownMs = _ := settled_number.1 h.shutdownMs
    obtain rfl : threadName = _ := h.threadName
    rfl

/-! ## where it starts from -/

inductive IsBase : Option Document → Config → Prop where
  | unnamed : IsBase none .default
  | missing : IsBase (some .missing) .default
  | parsed {text : String} {v : Toml.Value} {c : Config} (document : Toml.document? text = some v)
      (settings : ofToml? v = some c) : IsBase (some (.text text)) c

theorem ofFile_eq_ok_iff {file : Option Document} {base : Config} :
    ofFile file = .ok base ↔ IsBase file base := by
  constructor
  · intro h
    match file with
    | none =>
      cases h
      exact .unnamed
    | some .missing =>
      cases h
      exact .missing
    | some .undecodable => cases h
    | some (.text text) =>
      have h : ofText text = .ok base := h
      unfold ofText at h
      split at h
      · rename_i c hc
        obtain ⟨v, hv, hc⟩ := Option.bind_eq_some_iff.1 hc
        cases h
        exact .parsed hv hc
      · cases h
  · rintro (_ | _ | ⟨hv, hc⟩)
    · rfl
    · rfl
    · show ofText _ = _
      rw [ofText, hv, Option.bind_some, hc]

/-! ## loading -/

/-- a pool without threads, told as a fault of its section -/
def withoutThreads : ServiceFault := .invalidConfig "notify.max_callback_threads must be at least 1"

theorem check_eq (c : Config) :
    c.check = if 1 ≤ c.pool.maxThreads then .ok () else .error withoutThreads := by
  split
  · rename_i h
    exact c.check_eq_ok_iff.2 h
  · rename_i h
    have hzero : c.pool.maxThreads = 0 := by omega
    rw [check, PoolSettings.check, if_pos hzero]
    rfl

theorem load_eq {file : Option Document} {base : Config} (hbase : IsBase file base)
    (env : Environment) :
    load file env =
      if 1 ≤ (base.override env).pool.maxThreads then .ok (base.override env)
      else .error (.invalid withoutThreads) := by
  have hfile := ofFile_eq_ok_iff.2 hbase
  have hcheck := check_eq (base.override env)
  by_cases h : 1 ≤ (base.override env).pool.maxThreads
  · rw [if_pos h] at hcheck ⊢
    simp only [load, hfile, bind, Except.bind, hcheck]
    rfl
  · rw [if_neg h] at hcheck ⊢
    simp only [load, hfile, bind, Except.bind, hcheck]

theorem exists_load_iff {file : Option Document} {base : Config} (hbase : IsBase file base)
    (env : Environment) :
    (∃ c, load file env = .ok c) ↔ 1 ≤ (base.override env).pool.maxThreads := by
  rw [load_eq hbase env]
  by_cases h : 1 ≤ (base.override env).pool.maxThreads
  · rw [if_pos h]
    exact ⟨fun _ => h, fun _ => ⟨_, rfl⟩⟩
  · rw [if_neg h]
    exact ⟨nofun, fun h' => absurd h' h⟩

theorem exists_base_of_load {file : Option Document} {env : Environment} {c : Config}
    (h : load file env = .ok c) :
    ∃ base, IsBase file base ∧ c = base.override env ∧ 1 ≤ c.pool.maxThreads := by
  cases hf : ofFile file with
  | error fault =>
    unfold load at h
    rw [hf] at h
    cases h
  | ok base =>
    have hbase := ofFile_eq_ok_iff.1 hf
    have hthreads := (exists_load_iff hbase env).1 ⟨c, h⟩
    rw [load_eq hbase env, if_pos hthreads] at h
    obtain rfl := Except.ok.inj h
    exact ⟨base, hbase, rfl, hthreads⟩

/-- where the variable is a numeral, the base has no say -/
theorem maxThreads_override {env : Environment} {text : String} {n : Nat}
    (htext : env "MAX_CALLBACK_THREADS" = some text) (hn : Text.IsNumeral text n) (base : Config) :
    (base.override env).pool.maxThreads = n := by
  show numberOr base.pool.maxThreads (env "MAX_CALLBACK_THREADS") = n
  rw [htext]
  exact (settled_number.1 (.read hn)).symm

/-- **Every setting has its own variable, and what they leave is checked.**  Of all configurations one
is in effect over a base: its level is the variable's text, its format is on for two texts and off for
all others, its numbers are those of numerals and stay what they were for texts that are none, and its
thread names are the base's.  If the base is that of the file, loading gives this configuration when it
has a thread at least and tells that it has none otherwise, so that a numeral for the threads decides
whatever the file says.  A pool finds nothing wrong with the settings that have been loaded, and starts if
there is a runtime for it. -/
theorem load_decided (file : Option Document) (env : Environment) :
    (∀ base c : Config, c = base.override env ↔ Effective base env c) ∧
    (∀ base c, IsBase file base → Effective base env c →
      load file env = if 1 ≤ c.pool.maxThreads then .ok c else .error (.invalid withoutThreads)) ∧
    (∀ base text n, IsBase file base → env "MAX_CALLBACK_THREADS" = some text →
      Text.IsNumeral text n → ((∃ c, load file env = .ok c) ↔ 1 ≤ n)) ∧
    ∀ c, load file env = .ok c →
      (∃ base, IsBase file base ∧ Effective base env c) ∧ c.pool.check = .ok () ∧
      ∀ build, (WorkerPool.startOn build c.pool = .ok ⟨true, true⟩ ↔ build c.pool = .ok ()) ∧
        ∀ detail, WorkerPool.startOn build c.pool ≠ .error (.invalidSettings detail) := by
  refine ⟨fun base c => eq_override_iff, ?_, ?_, ?_⟩
  · intro base c hbase hc
    rw [eq_override_iff.2 hc]
    exact load_eq hbase env
  · intro base text n hbase htext hn
    rw [exists_load_iff hbase env, maxThreads_override htext hn base]
  · intro c hc
    obtain ⟨base, hbase, hoverride, hthreads⟩ := exists_base_of_load hc
    have hcheck : c.pool.check = .ok () := c.pool.check_eq_ok_iff.2 hthreads
    refine ⟨⟨base, hbase, eq_override_iff.1 hoverride⟩, hcheck, fun build => ?_⟩
    rw [WorkerPool.startOn_of_check hcheck build]
    cases hbuild : build c.pool with
    | ok => exact ⟨⟨fun _ => rfl, fun _ => rfl⟩, nofun⟩
    | error reason => exact ⟨⟨nofun, nofun⟩, nofun⟩

/-- no threads; the rest is in order -/
def threadless : Document := .text
  "[notify]\nmax_callback_threads = 0\nthread_name = \"w\"\n[logging]\njson_format = true\n"

/-- the threads with a sign and leading zeros, one millisecond more than 64 bits can hold, and a text that
does not switch the format on -/
def repairing : Environment := fun name =>
  [("MAX_CALLBACK_THREADS", "+007"), ("SHUTDOWN_TIMEOUT_MS", "18446744073709551616"),
    ("LOG_JSON", "TRUE")].lookup name

theorem load_decided_repaired :
    IsBase (some threadless) ⟨⟨0, 5000, "w"⟩, ⟨"info", true⟩⟩ ∧
      load (some threadless) repairing = .ok ⟨⟨7, 5000, "w"⟩, ⟨"info", false⟩⟩ ∧
      (∀ build detail, WorkerPool.startOn build ⟨7, 5000, "w"⟩ ≠ .error (.invalidSettings detail)) ∧
      ¬ ∃ c, load none (fun name => [("MAX_CALLBACK_THREADS", "00")].lookup name) = .ok c := by
  have hbase : IsBase (some threadless) ⟨⟨0, 5000, "w"⟩, ⟨"info", true⟩⟩ :=
    ofFile_eq_ok_iff.1 (by decide +kernel)
  obtain ⟨hoverride, hload, -, hstart⟩ := load_decided (some threadless) repairing
  have heffective : Effective ⟨⟨0, 5000, "w"⟩, ⟨"info", true⟩⟩ repairing
      ⟨⟨7, 5000, "w"⟩, ⟨"info", false⟩⟩ := (hoverride _ _).1 (by decide +kernel)
  have hloaded := hload _ _ hbase heffective
  refine ⟨hbase, hloaded, fun build => ((hstart _ hloaded).2.2 build).2, ?_⟩
  -- the default number of threads does not help against a variable
  obtain ⟨-, -, hnumeral, -⟩ :=
    load_decided none (fun name => [("MAX_CALLBACK_THREADS", "00")].lookup name)
  have hzero : Text.IsNumeral "00" 0 := Text.numeral?_eq_some_iff.1 (by decide +kernel)
  rw [hnumeral _ "00" 0 .unnamed (by decide +kernel) hzero]
  decide

end Config

end OverlayWatch
