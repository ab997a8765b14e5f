import HartRuntime.Launch.Plan
import HartRuntime.Numeral
import HartRuntime.Text.Quoted

namespace HartRuntime.Launch

/-- A call on one line. -/
def Invocation.line (call : Invocation) : String :=
  " ".intercalate (call.program :: call.args ++ call.env.map fun (name, value) => name ++ "=" ++ value)

/-- Sets a variable among others that stand in the order of their names. -/
def setVariable (name value : String) : List (String × String) → List (String × String)
  | [] => [(name, value)]
  | (other, old) :: rest =>
    if name = other then (name, value) :: rest
    else if name < other then (name, value) :: (other, old) :: rest
    else (other, old) :: setVariable name value rest

/-- More arguments, behind those before. -/
def Invocation.add (args : List String) (call : Invocation) : Invocation :=
  { call with args := call.args ++ args }

/-- Tools to run the commands with. -/
def tools : Tools where
  build := ⟨"cargo", ["build"], []⟩
  package name call := call.add ["--package", name]
  target triple call := call.add ["--target", triple]
  release call := call.add ["--release"]
  env name value call := { call with env := setVariable name value call.env }
  optional value f call := value.elim call (f · call)
  conditional condition f call := if condition then f call else call
  emulator architecture := ⟨"qemu-system-" ++ architecture, [], []⟩
  argument arg call := call.add [arg]
  arguments args call := call.add args
  panic? call code :=
    if code = 0 then none
    else some ("Failed with code " ++ Numeral.text 10 code.toNat ++ ": " ++ Text.quote call.line)

end HartRuntime.Launch
