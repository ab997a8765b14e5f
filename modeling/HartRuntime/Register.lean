namespace HartRuntime

/-- A block of memory, lowest address first. -/
abbrev Memory := List UInt8

/-- The number whose little-endian bytes these are. -/
def littleEndian : List UInt8 → Nat
  | [] => 0
  | byte :: rest => byte.toNat + 256 * littleEndian rest

/-- The lowest bytes of a number, as many as asked for, in little-endian order. -/
def littleEndianBytes : Nat → Nat → List UInt8
  | 0, _ => []
  | count + 1, value => UInt8.ofNat value :: littleEndianBytes count (value / 256)

/-- The bytes from an offset on; those outside the block read as zero. -/
def Memory.load (memory : Memory) (offset count : Nat) : List UInt8 :=
  (List.range count).map fun i => memory.getD (offset + i) 0

/-- Replaces the bytes from an offset on; those outside the block are lost. -/
def Memory.store (memory : Memory) (offset : Nat) : List UInt8 → Memory
  | [] => memory
  | byte :: rest => Memory.store (memory.set offset byte) (offset + 1) rest

/-- How many bytes one access moves. -/
inductive Size where
  | byte
  | word
  | double
  deriving DecidableEq

def Size.bytes : Size → Nat
  | .byte => 1
  | .word => 4
  | .double => 8

/-- What a register lets software do. -/
inductive Access where
  | readOnly
  | writeOnly
  | readWrite
  deriving DecidableEq

def Access.reads : Access → Bool
  | .writeOnly => false
  | _ => true

def Access.writes : Access → Bool
  | .readOnly => false
  | _ => true

/-- A device register at a fixed place in memory. -/
structure Register where
  offset : Nat
  size : Size
  access : Access
  deriving DecidableEq

/-- The value of a register; none if it cannot be read. -/
def Register.read? (register : Register) (memory : Memory) : Option Nat :=
  if register.access.reads then
    some (littleEndian (memory.load register.offset register.size.bytes))
  else none

/-- Memory after a write, which keeps as many low bytes of the value as the register
    has. A register that cannot be written is left alone. -/
def Register.write (register : Register) (value : Nat) (memory : Memory) : Memory :=
  if register.access.writes then
    memory.store register.offset (littleEndianBytes register.size.bytes value)
  else memory

/-- An access to a register. -/
inductive Register.Op where
  | read
  | write (value : Nat)

/-- The value that an access yields, and memory after it. -/
def Register.perform (register : Register) (memory : Memory) : Register.Op → Option Nat × Memory
  | .read => (register.read? memory, memory)
  | .write value => (none, register.write value memory)

/-- The values that a sequence of accesses yields, each with the memory after it. -/
def Memory.accesses (memory : Memory) : List (Register × Register.Op) → List (Option Nat × Memory)
  | [] => []
  | (register, op) :: rest =>
    let (value, after) := register.perform memory op
    (value, after) :: Memory.accesses after rest

end HartRuntime
