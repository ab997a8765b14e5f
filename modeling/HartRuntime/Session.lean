import HartRuntime.Machine.Call
import HartRuntime.Machine.Handler

namespace HartRuntime

open Trap

/-- Which dispatcher a step is about: the session's own one, or the one that the traps
    of the hardware go through. -/
inductive Seat where
  | own
  | shared
  deriving DecidableEq

/-- The platform that a trap's handler may use: none, that of a device, or the one that
    is registered by then. -/
inductive PlatformChoice (n : Nat) where
  | absent
  | device (i : Fin n)
  | registered

/-- A trap to be handled. The hardware may load either trap register first. -/
structure Trigger (n : Nat) where
  platform : PlatformChoice n
  cause : Option UInt64
  returnAddress : Option UInt64

def PlatformChoice.resolve {n : Nat} (choice : PlatformChoice n) (m : Machine n) : Option (Fin n) :=
  match choice with
  | .absent => none
  | .device i => some i
  | .registered => m.platform

/-- The machine once the hardware has loaded the trap registers. -/
def Trigger.load {n : Nat} (trigger : Trigger n) (m : Machine n) : Machine n :=
  { m with
    cause := trigger.cause.getD m.cause
    returnAddress := trigger.returnAddress.getD m.returnAddress }

/-- A handler given outright, or the one that the session's own table has for an entry. -/
inductive Callee (n : Nat) where
  | handler (handler : Machine.Handler n)
  | entry (entry : Entry)

/-- A step of a session. The hardware makes the second and the third. A handler that is
    invoked takes its traps on the dispatcher that it has at hand, if it has one. -/
inductive Op (n : Nat) where
  | call (call : Call n)
  | setCounter (device : Fin n) (value : UInt64)
  | reachDeadline (device : Fin n)
  | renew (table : Table (Machine.Handler n))
  | install (table : Table (Machine.Handler n))
  | state (seat : Seat)
  | trap (seat : Seat) (entry : Entry) (trigger : Trigger n)
  | invoke (seat : Option Seat) (callee : Callee n) (trigger : Trigger n)

/-- A machine and its dispatchers. Traps of the hardware go through the installed one,
    and through the fallback until there is one. -/
structure Session (n : Nat) where
  machine : Machine n
  own : Machine.Dispatcher n
  fallback : Machine.Dispatcher n
  installed : Option (Machine.Dispatcher n)

def Callee.resolve {n : Nat} (callee : Callee n) (s : Session n) : Machine.Handler n :=
  match callee with
  | .handler given => given
  | .entry place => s.own.table place

namespace Session

variable {n : Nat}

def start (devices : Vector Device n) : Session n where
  machine := .start devices
  own := .ofTable Machine.standard
  fallback := .ofTable Machine.standard
  installed := none

/-- The dispatcher that the traps of the hardware go through. -/
def shared (s : Session n) : Machine.Dispatcher n :=
  s.installed.getD s.fallback

def dispatcher (s : Session n) : Seat → Machine.Dispatcher n
  | .own => s.own
  | .shared => s.shared

/-- Puts a dispatcher back after a trap. -/
def setDispatcher (s : Session n) (seat : Seat)
    (dispatcher : Machine.Dispatcher n) : Session n :=
  match seat, s.installed with
  | .own, _ => { s with own := dispatcher }
  | .shared, none => { s with fallback := dispatcher }
  | .shared, some _ => { s with installed := some dispatcher }

/-- Only the first table counts; the dispatcher made for it starts idle. -/
def install (s : Session n) (table : Table (Machine.Handler n)) : Session n :=
  { s with installed := s.installed.or (some (.ofTable table)) }

/-- Performs a step on the machine and the dispatchers as they are, with room for that many
    traps inside one another. -/
def perform (room : Nat) (s : Session n) : Op n → Answer n × Session n
  | .call call =>
    let (answer, machine) := s.machine.perform call
    (answer, { s with machine := machine })
  | .setCounter i value => (.nothing, { s with machine := s.machine.setCounter i value })
  | .reachDeadline i => (.nothing, { s with machine := s.machine.reachDeadline i })
  | .renew table => (.nothing, { s with own := .ofTable table })
  | .install table => (.nothing, s.install table)
  | .state seat => (.state (s.dispatcher seat).state, s)
  | .trap seat entry trigger =>
    let (outcome, dispatcher, machine) := (s.dispatcher seat).dispatch room entry
      (trigger.platform.resolve s.machine) (trigger.load s.machine)
    (.taken outcome dispatcher.state, { s.setDispatcher seat dispatcher with machine := machine })
  | .invoke none callee trigger =>
    let (outcome, machine) := (callee.resolve s).call
      (trigger.platform.resolve s.machine) (trigger.load s.machine)
    (.outcome outcome, { s with machine := machine })
  | .invoke (some seat) callee trigger =>
    let (outcome, dispatcher, machine) := (s.dispatcher seat).call room (callee.resolve s)
      (trigger.platform.resolve s.machine) (trigger.load s.machine)
    (.outcome outcome, { s.setDispatcher seat dispatcher with machine := machine })

/-- What a step answered, and the session after it, whose events are the step's own. -/
structure Step (n : Nat) where
  answer : Answer n
  after : Session n

def step (room : Nat) (s : Session n) (op : Op n) : Step n :=
  let (answer, after) := { s with machine := { s.machine with events := [] } }.perform room op
  ⟨answer, after⟩

/-- The steps of a sequence of operations. -/
def steps (room : Nat) (s : Session n) : List (Op n) → List (Step n)
  | [] => []
  | op :: rest =>
    let step := s.step room op
    step :: steps room step.after rest

end Session

end HartRuntime
