import HartRuntime.Launch.Request

namespace HartRuntime.Launch

/-- A program to be started: its arguments, and the variables that are set for it. What it inherits
    besides is left out. -/
structure Invocation where
  program : String
  args : List String
  env : List (String × String)
  deriving DecidableEq

/-- What calls are put together with, step by step, and then made. That is for others to do. -/
structure Tools where
  build : Invocation
  package (name : String) (call : Invocation) : Invocation
  target (triple : String) (call : Invocation) : Invocation
  release (call : Invocation) : Invocation
  env (name value : String) (call : Invocation) : Invocation
  optional (value : Option String) (f : String → Invocation → Invocation) (call : Invocation) :
    Invocation
  conditional (condition : Bool) (f : Invocation → Invocation) (call : Invocation) : Invocation
  emulator (architecture : String) : Invocation
  argument (arg : String) (call : Invocation) : Invocation
  arguments (args : List String) (call : Invocation) : Invocation
  /-- The panic, if there is one, when a call has been made that ended with that code. -/
  panic? (call : Invocation) (code : UInt8) : Option String

/-- The target that the firmware is compiled for. -/
def target : String := "riscv32imac-unknown-none-elf"

/-- The platform of a build that names none. -/
def defaultPlatform : String := "newlib"

/-- The platform of the emulator. -/
def emulatorPlatform : String := "qemu"

/-- The call that compiles the firmware. A log level is passed on only if one was given. -/
def compile (tools : Tools) (platform : String) (log : Option String) (release : Bool) : Invocation :=
  tools.build |> tools.package "tick" |> tools.env "PLATFORM" platform |>
    tools.optional log (tools.env "LOG") |> tools.conditional release tools.release |>
    tools.target target

/-- Where the compiled firmware lies. -/
def firmware (project : String) (release : Bool) : String :=
  project ++ "/target/" ++ target ++ "/" ++ (if release then "release" else "debug") ++ "/tick"

/-- The call that runs the firmware in the emulator. -/
def emulate (tools : Tools) (firmware : String) : Invocation :=
  tools.emulator "riscv32" |> tools.arguments ["-machine", "virt"] |>
    tools.arguments ["-bios", "none"] |> tools.argument "-nographic" |> tools.argument "-kernel" |>
    tools.argument firmware

/-- The calls that a command makes, in order, and what it prints once all succeeded. -/
structure Plan where
  calls : List Invocation
  printed : String
  deriving DecidableEq

def Command.plan (tools : Tools) (project : String) (options : Options) : Command → Plan
  | .build =>
    ⟨[compile tools (options.platform.getD defaultPlatform) options.log options.release],
      firmware project options.release ++ "\n"⟩
  | .qemu =>
    ⟨[compile tools emulatorPlatform options.log options.release,
      emulate tools (firmware project options.release)], ""⟩

/-- How a command line ended: the calls made, the exit code, what was printed, and the panic that
    stopped it, if any. -/
structure Report where
  calls : List Invocation
  exit : UInt8
  stdout : String
  panic : Option String
  deriving DecidableEq

/-- Makes calls until one panics, and then prints; `code` tells how each would end. -/
def make (tools : Tools) (code : Invocation → UInt8) (printed : String) : List Invocation → Report
  | [] => ⟨[], 0, printed, none⟩
  | call :: later =>
    match tools.panic? call (code call) with
    | some message => ⟨[call], 101, "", some message⟩
    | none =>
      let report := make tools code printed later
      { report with calls := call :: report.calls }

/-- Carries out a command line. If it was read as no command, no call is made. -/
def Request.report (tools : Tools) (project : String) (code : Invocation → UInt8) :
    Request → Report
  | .stopped exit => ⟨[], exit, "", none⟩
  | .run command options =>
    let plan := command.plan tools project options
    make tools code plan.printed plan.calls

end HartRuntime.Launch
