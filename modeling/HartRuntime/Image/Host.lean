namespace HartRuntime.Image

/-- How a program ended and what it wrote. -/
structure Run where
  exit : Nat
  stdout : String
  stderr : String
  deriving DecidableEq

/-- What the firmware does when it is built for a host, where it cannot run: it says so
    and ends. -/
def onHost : Run where
  exit := 0
  stdout := ""
  stderr := "tick is bare-metal firmware; build it with `cargo xtask build`\n"

end HartRuntime.Image
