import HartRuntime.Uart

namespace HartRuntime

/-- A range of memory. -/
structure Region where
  origin : UInt64
  length : UInt64
  deriving DecidableEq

/-- What a configuration says about one platform. -/
structure Board where
  mtime : UInt64
  mtimecmp : UInt64
  uart : UInt64
  width : Uart.Width
  period : UInt64
  flash : Region
  ram : Region
  deriving DecidableEq

end HartRuntime
