namespace HartRuntime

/-- The counter of a machine timer and the value it is compared with. The hardware
    raises one interrupt when the counter reaches that value. -/
structure Timer where
  mtime : UInt64
  mtimecmp : UInt64
  deriving DecidableEq

namespace Timer

/-- The compare value that lies a period after the counter, modulo 2^64. -/
def deadlineAfter (timer : Timer) (period : UInt64) : UInt64 :=
  timer.mtime + period

/-- Asks for one interrupt a period from now. The counter belongs to the hardware and
    is only read. -/
def arm (timer : Timer) (period : UInt64) : Timer :=
  { timer with mtimecmp := timer.deadlineAfter period }

/-- What can happen to a timer: the first three are software's, the others the
    hardware's. -/
inductive Op where
  | now
  | deadline
  | arm (period : UInt64)
  | setCounter (value : UInt64)
  | setCompare (value : UInt64)
  | reachDeadline

/-- The value an operation returns, if it is software's, and the timer after it. -/
def step (timer : Timer) : Op → Option UInt64 × Timer
  | .now => (some timer.mtime, timer)
  | .deadline => (some timer.mtimecmp, timer)
  | .arm period => (some (timer.deadlineAfter period), timer.arm period)
  | .setCounter value => (none, { timer with mtime := value })
  | .setCompare value => (none, { timer with mtimecmp := value })
  | .reachDeadline => (none, { timer with mtime := timer.mtimecmp })

/-- The steps of a sequence of operations. -/
def steps (timer : Timer) : List Op → List (Option UInt64 × Timer)
  | [] => []
  | op :: rest =>
    let (value, after) := timer.step op
    (value, after) :: steps after rest

end Timer

end HartRuntime
