import HartRuntime.Machine.Output
import HartRuntime.Trap.Cause
import HartRuntime.Trap.Dispatcher

namespace HartRuntime.Machine

open Trap

variable {n : Nat}

/-- A handler on a machine. The context of a trap is the device whose platform the
    handler may use, if any. -/
abbrev Handler (n : Nat) := Trap.Handler (Option (Fin n)) (Machine n)

/-- A dispatcher of such handlers. -/
abbrev Dispatcher (n : Nat) := Trap.Dispatcher (Option (Fin n)) (Machine n)

/-- The width of the instruction that calls the environment. -/
def callWidth : UInt64 := 4

/-- A call of the environment does nothing and goes on behind the instruction. Known
    faults are retried; anything else, interrupts included, halts. Neither the console
    nor a platform is needed, since an exception may come before they are set up. -/
def handleException (m : Machine n) : Outcome × Machine n :=
  let m := m.record .readCause
  match Cause.ofBits m.cause with
  | .exception .machineEnvCall =>
    let address := m.returnAddress + callWidth
    (.resume, { (m.record .readReturn).record (.wroteReturn address) with returnAddress := address })
  | .exception _ => (.resume, m)
  | .unknown _ => (.halt, m)

/-- Arms the next tick of the device, counts this one and logs its number. -/
def handleTick (i : Fin n) (m : Machine n) : Outcome × Machine n :=
  let m := m.arm i (m.device i).period
  let m := { m with ticks := UInt64.ofNat (m.ticks.toNat + 1) }
  (.resume, m.log .trace ("tick " ++ Numeral.text 10 m.ticks.toNat))

/-- What the runtime does on its own at each entry. -/
def handle (entry : Entry) (device : Option (Fin n)) (m : Machine n) : Outcome × Machine n :=
  match entry, device with
  | .nmi, _ => (.halt, m.report "unexpected non-maskable interrupt")
  | .exception, _ => m.handleException
  | .software, _ => (.halt, m.report "unexpected machine software interrupt")
  | .timer, none => (.halt, m.report "timer interrupt without a platform")
  | .timer, some i => m.handleTick i
  | .external, _ => (.halt, m.report "unexpected machine external interrupt")

/-- The handler that an entry has unless another is routed there. -/
def standard (entry : Entry) : Handler n :=
  fun device => .ofFunction fun m => (m.record (.entered entry device)).handle entry device

/-- A handler that writes down what it sees and ends as told. -/
def observing (outcome : Outcome) : Handler n :=
  fun device => .look fun view =>
    .change (record (.noted (.saw view.state device.isSome))) (.done outcome)

/-- A handler that takes another trap with the same context, if there is room for one,
    writes down both ends of it, and ends as told whatever came of it. -/
def nesting (entry : Entry) (outcome : Outcome) : Handler n :=
  fun device => .look fun view =>
    if view.room = 0 then .done outcome
    else
      .change (record (.noted (.nesting entry view.state))) <|
        .trap entry device fun inner => .look fun view =>
          .change (record (.noted (.nested (inner.getD .halt) view.state))) (.done outcome)

end HartRuntime.Machine
