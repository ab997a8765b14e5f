namespace HartRuntime.Syscall

/-- The start of a file's status record. -/
structure Stat where
  device : Int16
  inode : UInt16
  mode : UInt32
  deriving DecidableEq

/-- The mode of a character device. -/
def characterDevice : UInt32 := 0o020000

/-- There is no file to close. -/
def close (_fd : Int32) : Int32 := -1

/-- Every descriptor is a terminal. -/
def isTerminal (_fd : Int32) : Int32 := 1

/-- A character device has no position. -/
def seek (_fd _offset _whence : Int32) : Int32 := 0

/-- There are no process numbers. -/
def processId : Int32 := -1

/-- Every descriptor is a character device; nothing but the mode is filled in. -/
def status (_fd : Int32) (stat : Stat) : Int32 × Stat :=
  (0, { stat with mode := characterDevice })

end HartRuntime.Syscall
