import HartRuntime.Format.Output
import HartRuntime.Text.Utf8

namespace HartRuntime

/-- The width of an output register. -/
inductive Uart.Width where
  | byte
  | word
  deriving DecidableEq

/-- A UART as software sees it: always ready, with one output register at the low end
    of a 64-bit cell. -/
structure Uart where
  width : Uart.Width
  cell : UInt64
  deriving DecidableEq

namespace Uart

/-- How many values a register can hold. -/
def Width.values : Width → Nat
  | .byte => 0x100
  | .word => 0x100000000

/-- One store to an output register. -/
structure Store where
  width : Width
  value : UInt8
  deriving DecidableEq

/-- A store replaces as many low bits of the cell as the register is wide; the byte is
    extended with zeros. -/
def Store.apply (store : Store) (cell : UInt64) : UInt64 :=
  UInt64.ofNat (cell.toNat / store.width.values * store.width.values + store.value.toNat)

/-- Bytes are written one store each, in order. -/
def stores (uart : Uart) (bytes : List UInt8) : List Store :=
  bytes.map (Store.mk uart.width)

def transmit (uart : Uart) (bytes : List UInt8) : Uart :=
  { uart with cell := (uart.stores bytes).foldl (fun cell store => store.apply cell) uart.cell }

/-- What can happen to a UART: software writes a byte, a character, a text or a format,
    or something outside overwrites the cell. -/
inductive Op where
  | writeByte (byte : UInt8)
  | putChar (byte : UInt8)
  | putText (text : String)
  | printFormat (format : List UInt8) (args : List Format.Arg)
  | overwrite (cell : UInt64)

/-- The bytes that an operation emits. -/
def Op.bytes : Op → List UInt8
  | .writeByte byte => [byte]
  | .putChar byte => [byte]
  | .putText text => utf8 text
  | .printFormat format args => Format.output format args
  | .overwrite _ => []

/-- An operation's count, the stores it made and the UART after it. Only printing a
    format reports a count. -/
structure Step where
  count : Option UInt64
  stores : List Store
  after : Uart

def step (uart : Uart) (op : Op) : Step :=
  match op with
  | .overwrite cell => ⟨none, [], { uart with cell := cell }⟩
  | .printFormat format args =>
    let out := Format.output format args
    ⟨some (Format.count out), uart.stores out, uart.transmit out⟩
  | op => ⟨none, uart.stores op.bytes, uart.transmit op.bytes⟩

/-- The steps of a sequence of operations. -/
def steps (uart : Uart) : List Op → List Step
  | [] => []
  | op :: rest =>
    let step := uart.step op
    step :: steps step.after rest

end Uart

end HartRuntime
