import HartRuntime.Launch.Tools
import HartRuntime.Proofs.Launch.Line

namespace HartRuntime.Launch

/-- What is documented of the library that calls are put together and made with. -/
structure Tools.Documented (tools : Tools) : Prop where
  /-- A build is the tool's command of that name, with nothing set. -/
  build : tools.build = ⟨"cargo", ["build"], []⟩
  /-- The option for the package. -/
  package (name : String) (call : Invocation) :
    tools.package name call = { call with args := call.args ++ ["--package", name] }
  /-- The option for the target. -/
  target (triple : String) (call : Invocation) :
    tools.target triple call = { call with args := call.args ++ ["--target", triple] }
  /-- The option for the profile. -/
  release (call : Invocation) :
    tools.release call = { call with args := call.args ++ ["--release"] }
  /-- A variable is set, and nothing else. -/
  env (name value : String) (call : Invocation) :
    ∃ env, tools.env name value call = { call with env := env } ∧
      ∀ other, env.lookup other = if other = name then some value else call.env.lookup other
  /-- A step with a value is taken if there is one. -/
  optional (value : Option String) (f : String → Invocation → Invocation) (call : Invocation) :
    tools.optional value f call = value.elim call (f · call)
  /-- A step with a condition is taken if that holds. -/
  conditional (condition : Bool) (f : Invocation → Invocation) (call : Invocation) :
    tools.conditional condition f call = if condition then f call else call
  /-- An emulator has the name of the architecture in its own, and nothing set. -/
  emulator (architecture : String) :
    tools.emulator architecture = ⟨"qemu-system-" ++ architecture, [], []⟩
  /-- An argument is passed on behind those before. -/
  argument (arg : String) (call : Invocation) :
    tools.argument arg call = { call with args := call.args ++ [arg] }
  /-- So are several, in order. -/
  arguments (args : List String) (call : Invocation) :
    tools.arguments args call = { call with args := call.args ++ args }
  /-- A call panics exactly if it fails. -/
  panic (call : Invocation) (code : UInt8) : tools.panic? call code = none ↔ code = 0

theorem lookup_setVariable (name value other : String) (env : List (String × String)) :
    (setVariable name value env).lookup other =
      if other = name then some value else env.lookup other := by
  have hlookup (key text : String) (rest : List (String × String)) :
      ((key, text) :: rest).lookup other = if other = key then some text else rest.lookup other := by
    by_cases h : other = key
    · simp [h]
    · have hne : (other == key) = false := by simpa using h
      simp [List.lookup_cons, hne, h]
  induction env with
  | nil => rw [setVariable, hlookup]
  | cons entry rest ih =>
    obtain ⟨key, old⟩ := entry
    by_cases hsame : name = key
    · rw [setVariable, if_pos hsame, hlookup, hlookup, ← hsame]
      split_ifs <;> rfl
    by_cases hless : name < key
    · rw [setVariable, if_neg hsame, if_pos hless, hlookup]
    · rw [setVariable, if_neg hsame, if_neg hless, hlookup, ih, hlookup]
      by_cases hkey : other = key
      · have hother : other ≠ name := fun hname => hsame (hname.symm.trans hkey)
        rw [if_pos hkey, if_pos hkey, if_neg hother]
      · rw [if_neg hkey, if_neg hkey]

theorem documented_tools : Tools.Documented Launch.tools where
  build := rfl
  package _ _ := rfl
  target _ _ := rfl
  release _ := rfl
  env name value call := ⟨_, rfl, fun other => lookup_setVariable name value other call.env⟩
  optional _ _ _ := rfl
  conditional _ _ _ := rfl
  emulator _ := rfl
  argument _ _ := rfl
  arguments _ _ := rfl
  panic call code := by simp [Launch.tools]

/-- The platform that a command compiles for. -/
def Command.platform (words : List Word) : Command → String
  | .build => (given .platform words).getD "newlib"
  | .qemu => "qemu"

/-- What it comes to when a command line is carried out: the calls, how they end, and where
    the firmware lies that the first of them compiles. -/
structure Carried (project : String) (code : Invocation → UInt8) (command : Command)
    (words : List Word) (cargo : Invocation) (elf : String) (report : Report) : Prop where
  program : cargo.program = "cargo"
  first : ∃ later, report.calls = cargo :: later ∧ ∀ call ∈ later, call.program ≠ "cargo"
  platform : cargo.env.lookup "PLATFORM" = some (command.platform words)
  log : cargo.env.lookup "LOG" = given .log words
  release : "--release" ∈ cargo.args ↔ .release ∈ words
  firmware : ∃ front target, cargo.args = front ++ ["--target", target] ∧ "--target" ∉ front ∧
    elf = project ++ "/target/" ++ target ++ "/" ++
      (if "--release" ∈ cargo.args then "release" else "debug") ++ "/tick"
  failed : code cargo ≠ 0 → report.calls = [cargo] ∧ report.exit = 101 ∧ report.stdout = ""
  built : code cargo = 0 → command = .build →
    report.calls = [cargo] ∧ report.exit = 0 ∧ report.stdout = elf ++ "\n"
  emulated : code cargo = 0 → command = .qemu → ∃ emulator, report.calls = [cargo, emulator] ∧
    emulator.program = "qemu-system-riscv32" ∧
    (∃ front, emulator.args = front ++ ["-kernel", elf] ∧ "-kernel" ∉ front) ∧
    report.exit = if code emulator = 0 then 0 else 101

/-- The call by which a command compiles, from what its words say. -/
def Command.compilation (tools : Tools) (words : List Word) (command : Command) : Invocation :=
  compile tools (command.platform words) (given .log words) (decide (Word.release ∈ words))

/-- The calls that follow the compilation. -/
def Command.later (tools : Tools) (project : String) (words : List Word) :
    Command → List Invocation
  | .build => []
  | .qemu => [emulate tools (firmware project (decide (Word.release ∈ words)))]

theorem calls_plan (tools : Tools) (project : String) (command : Command) (words : List Word) :
    (command.plan tools project (.ofWords words)).calls =
      command.compilation tools words :: command.later tools project words := by
  cases command <;> rfl

section

variable {tools : Tools} (h : tools.Documented)
include h

/-- What a call that compiles looks like. -/
theorem compile_spec (platform : String) (log : Option String) (release : Bool) :
    let call := compile tools platform log release
    call.program = "cargo" ∧
      call.args = ["build", "--package", "tick"] ++ (if release then ["--release"] else []) ++
        ["--target", target] ∧
      call.env.lookup "PLATFORM" = some platform ∧ call.env.lookup "LOG" = log := by
  intro call
  -- The variables come first, and what follows them leaves them as they are.
  obtain ⟨env, henv, hlookup⟩ : ∃ env, tools.optional log (tools.env "LOG")
      (tools.env "PLATFORM" platform (tools.package "tick" tools.build)) =
        ⟨"cargo", ["build", "--package", "tick"], env⟩ ∧
      env.lookup "PLATFORM" = some platform ∧ env.lookup "LOG" = log := by
    obtain ⟨first, hfirst, hplatform⟩ := h.env "PLATFORM" platform (tools.package "tick" tools.build)
    rw [h.optional, hfirst]
    rw [h.package, h.build] at hplatform ⊢
    cases log with
    | none => exact ⟨first, rfl, by simp [hplatform]⟩
    | some level =>
      obtain ⟨second, hsecond, hlog⟩ :=
        h.env "LOG" level ⟨"cargo", ["build"] ++ ["--package", "tick"], first⟩
      exact ⟨second, hsecond, by simp [hlog, hplatform]⟩
  have hcall : call = tools.target target (tools.conditional release tools.release
      ⟨"cargo", ["build", "--package", "tick"], env⟩) := by
    rw [← henv]
    rfl
  rw [hcall, h.target, h.conditional]
  cases release with
  | false => exact ⟨rfl, rfl, hlookup⟩
  | true =>
    rw [if_pos rfl, h.release]
    exact ⟨rfl, rfl, hlookup⟩

theorem emulate_eq (firmware : String) :
    emulate tools firmware =
      ⟨"qemu-system-riscv32",
        ["-machine", "virt", "-bios", "none", "-nographic", "-kernel", firmware], []⟩ := by
  simp only [emulate, h.emulator, h.argument, h.arguments]
  rfl

theorem release_mem_compile {platform : String} {log : Option String} {release : Bool} :
    "--release" ∈ (compile tools platform log release).args ↔ release := by
  rw [(compile_spec h platform log release).2.1]
  cases release <;> simp [target]

theorem firmware_of_compile (project platform : String) (log : Option String) (release : Bool) :
    ∃ front target, (compile tools platform log release).args = front ++ ["--target", target] ∧
      "--target" ∉ front ∧
      firmware project release = project ++ "/target/" ++ target ++ "/" ++
        (if "--release" ∈ (compile tools platform log release).args then "release" else "debug") ++
          "/tick" := by
  refine ⟨["build", "--package", "tick"] ++ (if release then ["--release"] else []), target,
    (compile_spec h platform log release).2.1, ?_, ?_⟩
  · cases release <;> decide
  · simp only [release_mem_compile h, firmware]

variable {call emulator : Invocation} {code : Invocation → UInt8}

/-- Calls stop at the first one when that fails. -/
theorem make_of_failed (hcode : code call ≠ 0) (printed : String) (later : List Invocation) :
    ∃ message, make tools code printed (call :: later) = ⟨[call], 101, "", some message⟩ := by
  obtain ⟨message, hpanic⟩ :=
    Option.ne_none_iff_exists'.mp fun hnone => hcode ((h.panic call (code call)).mp hnone)
  exact ⟨message, by rw [make, hpanic]⟩

theorem make_of_succeeded (hcode : code call = 0) (printed : String) (later : List Invocation) :
    make tools code printed (call :: later) =
      { make tools code printed later with calls := call :: (make tools code printed later).calls } := by
  rw [make, (h.panic call (code call)).mpr hcode]

theorem make_of_emulated (hcode : code call = 0) (printed : String) :
    (make tools code printed [call, emulator]).calls = [call, emulator] ∧
      (make tools code printed [call, emulator]).exit = if code emulator = 0 then 0 else 101 := by
  rw [make_of_succeeded h hcode]
  by_cases hemulator : code emulator = 0
  · rw [make_of_succeeded h hemulator, if_pos hemulator]
    exact ⟨rfl, rfl⟩
  · obtain ⟨message, hmake⟩ := make_of_failed h hemulator printed []
    rw [hmake, if_neg hemulator]
    exact ⟨rfl, rfl⟩

/-- The call that compiles comes first, whatever becomes of it. -/
theorem head?_make (printed : String) (later : List Invocation) :
    (make tools code printed (call :: later)).calls.head? = some call := by
  by_cases hcode : code call = 0
  · rw [make_of_succeeded h hcode]
    rfl
  · obtain ⟨message, hmake⟩ := make_of_failed h hcode printed later
    rw [hmake]
    rfl

theorem carried_run (project : String) (code : Invocation → UInt8) (command : Command)
    (words : List Word) :
    Carried project code command words (command.compilation tools words)
      (firmware project (decide (Word.release ∈ words)))
      ((Request.run command (.ofWords words)).report tools project code) := by
  obtain ⟨hprogram, -, hplatform, hlog⟩ := compile_spec h (command.platform words)
    (given .log words) (decide (Word.release ∈ words))
  rw [Request.report, calls_plan]
  exact {
    program := hprogram
    first := by
      by_cases hcode : code (command.compilation tools words) = 0
      · cases command with
        | build => exact ⟨[], by rw [make_of_succeeded h hcode]; rfl, by simp⟩
        | qemu => exact ⟨_, (make_of_emulated h hcode _).1, by simp [emulate_eq h]⟩
      · obtain ⟨message, hmake⟩ := make_of_failed h hcode _ _
        exact ⟨[], by rw [hmake], by simp⟩
    platform := hplatform
    log := hlog
    release := by
      rw [Command.compilation, release_mem_compile h, decide_eq_true_iff]
    firmware := firmware_of_compile h ..
    failed := fun hcode => by
      obtain ⟨message, hmake⟩ := make_of_failed h hcode _ _
      rw [hmake]
      exact ⟨rfl, rfl, rfl⟩
    built := fun hcode hbuild => by
      subst hbuild
      rw [make_of_succeeded h hcode]
      exact ⟨rfl, rfl, rfl⟩
    emulated := fun hcode hqemu => by
      subst hqemu
      obtain ⟨hboth, hexit⟩ := make_of_emulated h hcode _
      refine ⟨_, hboth, ?_, ⟨["-machine", "virt", "-bios", "none", "-nographic"], ?_, by decide⟩,
        hexit⟩
      · rw [emulate_eq h]
      · rw [emulate_eq h]
        rfl }

end

/-- What runs the firmware can be said of a build for the emulator's platform, too. -/
theorem Writes.exists_build {args : List String} {words : List Word}
    (hwrites : Writes args .qemu words) :
    ∃ rest, args = "qemu" :: rest ∧
      Writes ("build" :: "--platform" :: "qemu" :: rest) .build
        (.separate .platform "qemu" :: words) := by
  have hfits : ∀ word ∈ Word.separate .platform "qemu" :: words, word.Fits .build := by
    intro word hword
    rcases List.mem_cons.mp hword with rfl | hword
    · exact ⟨by decide, by decide⟩
    · have hqemu := hwrites.fits word hword
      cases word <;> simp_all [Word.Fits, Command.settings]
  have hplatform : some Setting.platform ∉ words.map Word.subject := by
    rw [List.mem_map]
    rintro ⟨word, hword, hsubject⟩
    have hqemu := hwrites.fits word hword
    cases word <;> simp_all [Word.Fits, Word.subject, Command.settings]
  have honce := List.nodup_cons.mpr ⟨hplatform, hwrites.once⟩
  rcases hwrites.line with rfl | rfl
  · exact ⟨_, rfl, .inl rfl, hfits, honce⟩
  · exact ⟨_, rfl, .inr rfl, hfits, honce⟩

/-- A line that is carried out compiles first, and what it compiles is what it says; only what
    was compiled is shown or run. To run the firmware compiles it by the very call that builds
    it for the emulator's platform. -/
theorem carried_report {reading : Reading} (hreading : reading.Documented) {tools : Tools}
    (htools : tools.Documented) (project : String) (code : Invocation → UInt8) {args : List String}
    {command : Command} {options : Options} (hrun : reading.line args = .run command options) :
    (∃ words, Writes args command words) ∧ ∀ words, Writes args command words →
      (∃ cargo elf, Carried project code command words cargo elf
        ((reading.line args).report tools project code)) ∧
      (command = .qemu →
        (∃ rest, args = "qemu" :: rest ∧
          Writes ("build" :: "--platform" :: "qemu" :: rest) .build
            (.separate .platform "qemu" :: words)) ∧
        ∀ line others, Writes line .build others → given .platform others = some "qemu" →
          given .log others = given .log words → (.release ∈ others ↔ .release ∈ words) →
          ((reading.line line).report tools project code).calls.head? =
            ((reading.line args).report tools project code).calls.head?) := by
  obtain ⟨read, hread, -⟩ := (line_eq_run_iff hreading).mp hrun
  refine ⟨⟨read, hread⟩, fun words hwrites => ?_⟩
  have hargs : reading.line args = .run command (.ofWords words) :=
    (line_eq_run_iff hreading).mpr ⟨words, hwrites, rfl⟩
  rw [hargs]
  refine ⟨⟨_, _, carried_run htools project code command words⟩, fun hqemu => ⟨?_, ?_⟩⟩
  · subst hqemu
    exact hwrites.exists_build
  · intro line others hline hplatform hlog hrelease
    have hbuild : reading.line line = .run .build (.ofWords others) :=
      (line_eq_run_iff hreading).mpr ⟨others, hline, rfl⟩
    rw [hbuild]
    simp only [Request.report, calls_plan, head?_make htools]
    simp [Command.compilation, Command.platform, hqemu, hplatform, hlog, hrelease]

/-- A compilation that succeeds, and an emulator that does not. -/
def emulatorFails (call : Invocation) : UInt8 :=
  if call.program = "cargo" then 0 else 7

/-- A log level behind an equals sign, a release, and the mark that ends the options. -/
theorem carried_report_joined :
    let args := ["qemu", "--log=a b", "--release", "--"]
    Launch.reading.Documented ∧ Launch.tools.Documented ∧
      Launch.reading.line args = .run .qemu ⟨none, some "a b", true⟩ ∧
      (∃ words cargo elf, Writes args .qemu words ∧ Carried "." emulatorFails .qemu words cargo elf
        ((Launch.reading.line args).report Launch.tools "." emulatorFails)) ∧
      ((Launch.reading.line args).report Launch.tools "." emulatorFails).calls = [
        ⟨"cargo", ["build", "--package", "tick", "--release", "--target",
          "riscv32imac-unknown-none-elf"], [("LOG", "a b"), ("PLATFORM", "qemu")]⟩,
        ⟨"qemu-system-riscv32", ["-machine", "virt", "-bios", "none", "-nographic", "-kernel",
          "./target/riscv32imac-unknown-none-elf/release/tick"], []⟩] := by
  intro args
  have hrun : Launch.reading.line args = .run .qemu ⟨none, some "a b", true⟩ := by decide +kernel
  obtain ⟨⟨words, hwrites⟩, hcarried⟩ :=
    carried_report documented_reading documented_tools "." emulatorFails hrun
  obtain ⟨cargo, elf, hall⟩ := (hcarried words hwrites).1
  refine ⟨documented_reading, documented_tools, hrun, ⟨words, cargo, elf, hwrites, hall⟩, ?_⟩
  rw [hrun]
  decide +kernel

end HartRuntime.Launch
