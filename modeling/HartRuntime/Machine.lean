import HartRuntime.Log
import HartRuntime.Timer
import HartRuntime.Trap.Routine
import HartRuntime.Uart

namespace HartRuntime

open Trap (Entry Outcome State)

/-- The devices of one platform, and how many counter units its ticks last. -/
structure Device where
  timer : Timer
  uart : Uart
  period : UInt64
  deriving DecidableEq

/-- Where output can go: to a console that only records, of which there may be any
    number, or to the UART of a device. -/
inductive Console (n : Nat) where
  | recorder (id : Nat)
  | uart (device : Fin n)
  deriving DecidableEq

/-- What a handler that only observes writes down. -/
inductive Note where
  | saw (state : Option State) (hasPlatform : Bool)
  | nesting (entry : Entry) (state : Option State)
  | nested (outcome : Outcome) (state : Option State)
  deriving DecidableEq

/-- What can be seen happening. -/
inductive Event (n : Nat) where
  | sent (console : Console n) (byte : UInt8)
  | armed (device : Fin n) (deadline : UInt64)
  | readCause
  | readReturn
  | wroteReturn (address : UInt64)
  | enabledTimer
  | enabledInterrupts
  | entered (entry : Entry) (device : Option (Fin n))
  | noted (note : Note)
  deriving DecidableEq

/-- The hart's trap registers, the devices around it, what has been registered with the
    runtime, and the events so far. Consoles and platforms are registered at most once. -/
structure Machine (n : Nat) where
  devices : Vector Device n
  console : Option (Console n)
  platform : Option (Fin n)
  filter : Log.Filter
  cause : UInt64
  returnAddress : UInt64
  ticks : UInt64
  events : List (Event n)

namespace Machine

variable {n : Nat}

/-- Nothing is registered and nothing has happened. -/
def start (devices : Vector Device n) : Machine n where
  devices := devices
  console := none
  platform := none
  filter := .off
  cause := 0
  returnAddress := 0
  ticks := 0
  events := []

def record (event : Event n) (m : Machine n) : Machine n :=
  { m with events := m.events ++ [event] }

def device (m : Machine n) (i : Fin n) : Device :=
  m.devices.get i

def updateDevice (i : Fin n) (f : Device → Device) (m : Machine n) : Machine n :=
  { m with devices := m.devices.set i (f (m.device i)) }

/-- Only the first console counts. -/
def registerConsole (console : Console n) (m : Machine n) : Machine n :=
  { m with console := m.console.or (some console) }

/-- Only the first platform counts. -/
def registerPlatform (i : Fin n) (m : Machine n) : Machine n :=
  { m with platform := m.platform.or (some i) }

/-- Arms the timer of a device a period from now. -/
def arm (i : Fin n) (period : UInt64) (m : Machine n) : Machine n :=
  (m.updateDevice i fun device => { device with timer := device.timer.arm period }).record
    (.armed i ((m.device i).timer.deadlineAfter period))

/-- Arms the registered platform's timer, if there is one. -/
def armTimeout (period : UInt64) (m : Machine n) : Machine n :=
  m.platform.elim m fun i => m.arm i period

/-- Arms a device's first tick and then turns on the timer's interrupts and after them
    all interrupts. -/
def startTicking (i : Fin n) (m : Machine n) : Machine n :=
  ((m.arm i (m.device i).period).record .enabledTimer).record .enabledInterrupts

/-- The hardware sets the counter of a device. -/
def setCounter (i : Fin n) (value : UInt64) (m : Machine n) : Machine n :=
  m.updateDevice i fun device => { device with timer := { device.timer with mtime := value } }

/-- The hardware lets a device's counter reach its deadline. -/
def reachDeadline (i : Fin n) (m : Machine n) : Machine n :=
  m.updateDevice i fun device => { device with timer := { device.timer with mtime := device.timer.mtimecmp } }

end Machine

end HartRuntime
