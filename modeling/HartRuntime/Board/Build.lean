import HartRuntime.Board.Files

namespace HartRuntime.Board

/-- What a build does outside itself. -/
inductive Effect where
  | write (path content : String)
  | tell (directive : String)
  deriving DecidableEq

/-- A build with the effects it has had so far, which a failure does not take back. -/
abbrev Building := ExceptT Error (StateM (List Effect))

def perform (effect : Effect) : Building Unit :=
  modify (· ++ [effect])

/-- Builds for the chosen platform: writes the files, then tells what they are for. -/
def build (boards? : Reader) (config platform targetOs : Option String) (outDir : String) :
    Building Unit := do
  let files ← liftM (generate boards? config platform targetOs outDir)
  perform (.write (outDir ++ "/platform.rs") files.constants)
  perform (.write (outDir ++ "/memory.x") files.memoryMap)
  perform (.write (outDir ++ "/linker.ld") files.linkerScript)
  files.directives.forM fun directive => perform (.tell directive)

end HartRuntime.Board
