namespace HartRuntime.Launch

/-- What the options of a command say. A build that names no platform has its default filled in
    when the calls are planned. -/
structure Options where
  platform : Option String
  log : Option String
  release : Bool
  deriving DecidableEq

def Options.none : Options := ⟨.none, .none, false⟩

/-- The commands: to build the firmware, and to build it for the emulator and run it. -/
inductive Command where
  | build
  | qemu
  deriving DecidableEq

def Command.name : Command → String
  | .build => "build"
  | .qemu => "qemu"

/-- The options that take a value. -/
inductive Setting where
  | platform
  | log
  deriving DecidableEq

def Setting.name : Setting → String
  | .platform => "--platform"
  | .log => "--log"

/-- Only a build has a choice of platforms. -/
def Command.settings : Command → List Setting
  | .build => [.platform, .log]
  | .qemu => [.log]

/-- Sets an option that may be given once. -/
def Options.set? (options : Options) (setting : Setting) (value : String) : Option Options :=
  match setting with
  | .platform => if options.platform.isNone then some { options with platform := some value } else .none
  | .log => if options.log.isNone then some { options with log := some value } else .none

/-- What a command line comes to: a command to be carried out, or nothing but an exit code, as
    when it asks for help or is refused. -/
inductive Request where
  | run (command : Command) (options : Options)
  | stopped (exit : UInt8)
  deriving DecidableEq

/-- How command lines are read. That is for others to do. -/
abbrev Reader := List String → Request

end HartRuntime.Launch
