namespace HartRuntime.Format

/-- An argument of a format. -/
inductive Arg where
  | int (value : Int32)
  | uint (value : UInt32)
  | text (bytes : List UInt8)
  deriving DecidableEq

/-- The signed value: the bits of an unsigned word reread, and zero for text. -/
def Arg.signed : Arg → Int32
  | .int value => value
  | .uint value => value.toInt32
  | .text _ => 0

/-- The 32-bit pattern, and zero for text. -/
def Arg.pattern : Arg → UInt32
  | .int value => value.toUInt32
  | .uint value => value
  | .text _ => 0

/-- The bytes of text; a number has none. -/
def Arg.bytes : Arg → List UInt8
  | .text bytes => bytes
  | _ => []

/-- Text up to its first NUL. -/
def beforeNul (bytes : List UInt8) : List UInt8 :=
  bytes.takeWhile (· ≠ 0)

end HartRuntime.Format
