import HartRuntime.Launch.Line
import HartRuntime.Launch.Tools

open HartRuntime

def HartRuntime.Launch.usage : String :=
  "build [--platform NAME] [--log LEVEL] [--release]\nqemu [--log LEVEL] [--release]\nhelp [COMMAND]"

/-- Shows the calls that a command line asks for, one a line, and what is printed once
    they have succeeded. It makes none of them. -/
def main (args : List String) : IO UInt32 := do
  match Launch.reader args with
  | .stopped exit =>
    if exit = 0 then IO.println Launch.usage else IO.eprintln Launch.usage
    return exit.toUInt32
  | .run command options =>
    let plan := command.plan Launch.tools "." options
    for call in plan.calls do
      IO.println call.line
    IO.print plan.printed
    return 0
