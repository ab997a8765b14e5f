import HartRuntime.Uart

namespace HartRuntime

/-- Where a platform's device registers lie, how wide its output register is, and how
    many counter units a tick lasts. -/
structure Platform where
  mtime : UInt64
  mtimecmp : UInt64
  uart : UInt64
  width : Uart.Width
  period : UInt64
  deriving DecidableEq

end HartRuntime
