import HartRuntime.Board
import HartRuntime.Image.Script
import HartRuntime.Text.Quoted

namespace HartRuntime.Board

/-- How a configuration is read: as the boards that it describes, by name, if it is one and has
    no section that describes none. The text of a configuration is read by others, so that builds
    are told how. -/
abbrev Reader := String → Option (String → Option Board)

/-- Why no files are generated. -/
inductive Error where
  | missing
  | malformed
  | unknownPlatform (name : String)
  deriving DecidableEq

def Error.message : Error → String
  | .missing => "Failed to read platform.toml"
  | .malformed => "Failed to parse platform.toml"
  | .unknownPlatform name => "unknown platform `" ++ name ++ "` in platform.toml"

/-- The platform that is built for when none is chosen. -/
def defaultName : String := "newlib"

def hexadecimal (value : UInt64) : String :=
  "0x" ++ Numeral.text 16 value.toNat

def widthName : Uart.Width → String
  | .byte => "Byte"
  | .word => "Word"

/-- The generated constants of a platform. -/
def constants (name : String) (board : Board) : String :=
  "// Auto-generated file from build.rs\n// Do not edit manually\n\n" ++
    "pub const PLATFORM_NAME: &str = " ++ Text.quote name ++ ";\n\n" ++
    "pub const PLATFORM: platform::Platform = unsafe \x7b\n    platform::Platform::new(" ++
    hexadecimal board.mtime ++ ", " ++ hexadecimal board.mtimecmp ++ ", " ++
    hexadecimal board.uart ++ ", platform::Width::" ++ widthName board.width ++ ", " ++
    Numeral.text 10 board.period.toNat ++ ")\n\x7d;\n"

/-- One memory region for the linker. -/
def regionLine (name : String) (region : Region) : String :=
  "    " ++ name ++ " : ORIGIN = " ++ hexadecimal region.origin ++ ", LENGTH = " ++
    hexadecimal region.length ++ "\n"

/-- The memory regions for the linker. -/
def memoryMap (board : Board) : String :=
  "MEMORY\n\x7b\n" ++ regionLine "FLASH" board.flash ++ regionLine "RAM" board.ram ++ "\x7d\n"

/-- What the build is told. Only bare metal is linked by the script; the rest says when
    to generate the files again. -/
def directives (outDir : String) (targetOs : Option String) : List String :=
  (if targetOs = some "none" then
    ["cargo:rustc-link-search=" ++ outDir, "cargo:rustc-link-arg=-T" ++ outDir ++ "/linker.ld"]
  else []) ++
  ["cargo:rerun-if-changed=build.rs", "cargo:rerun-if-changed=platform.toml",
    "cargo:rerun-if-env-changed=PLATFORM", "cargo:rerun-if-env-changed=LOG"]

/-- What a build leaves behind. -/
structure Files where
  constants : String
  memoryMap : String
  linkerScript : String
  directives : List String
  deriving DecidableEq

/-- Generates the files for the chosen platform. The whole configuration has to fit, also
    where it describes other platforms. -/
def generate (boards? : Reader) (config : Option String) (platform targetOs : Option String)
    (outDir : String) : Except Error Files :=
  match config with
  | none => .error .missing
  | some text =>
    match boards? text with
    | none => .error .malformed
    | some boards =>
      let name := platform.getD defaultName
      match boards name with
      | none => .error (.unknownPlatform name)
      | some board => .ok {
          constants := constants name board
          memoryMap := memoryMap board
          linkerScript := Image.script
          directives := directives outDir targetOs }

end HartRuntime.Board
