import HartRuntime.Numeral

namespace HartRuntime.Trap

/-- The synchronous exceptions that the runtime knows. -/
inductive Exception where
  | instructionMisaligned
  | instructionFault
  | illegalInstruction
  | breakpoint
  | loadMisaligned
  | loadFault
  | storeMisaligned
  | storeFault
  | machineEnvCall
  deriving DecidableEq

/-- The number by which the hardware reports an exception. -/
def Exception.code : Exception → UInt64
  | .instructionMisaligned => 0
  | .instructionFault => 1
  | .illegalInstruction => 2
  | .breakpoint => 3
  | .loadMisaligned => 4
  | .loadFault => 5
  | .storeMisaligned => 6
  | .storeFault => 7
  | .machineEnvCall => 11

def Exception.all : List Exception :=
  [.instructionMisaligned, .instructionFault, .illegalInstruction, .breakpoint, .loadMisaligned,
    .loadFault, .storeMisaligned, .storeFault, .machineEnvCall]

/-- A number by which no known exception is reported. -/
structure NoSuchException where
  code : UInt64
  deriving DecidableEq

def NoSuchException.message (e : NoSuchException) : String :=
  Numeral.text 10 e.code.toNat

/-- The exception that is reported by a number. -/
def Exception.ofCode (code : UInt64) : Except NoSuchException Exception :=
  match all.find? (·.code = code) with
  | some known => .ok known
  | none => .error ⟨code⟩

/-- Why a trap was taken: a known exception, or the raw cause word of anything else. -/
inductive Cause where
  | exception (exception : Exception)
  | unknown (bits : UInt64)
  deriving DecidableEq

/-- The top bit of a cause word marks an interrupt, so that interrupts are the words from
    this one up. -/
def Cause.interruptBit : UInt64 := 0x8000000000000000

/-- Reads a cause word. An interrupt is never a known exception. -/
def Cause.ofBits (bits : UInt64) : Cause :=
  if interruptBit ≤ bits then .unknown bits
  else
    match Exception.ofCode bits with
    | .ok known => .exception known
    | .error _ => .unknown bits

end HartRuntime.Trap
