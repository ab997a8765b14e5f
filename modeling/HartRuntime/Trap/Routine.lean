import HartRuntime.Trap.Table

namespace HartRuntime.Trap

/-- The state of a dispatcher: between traps, while a handler runs, and after a handler
    gave up. The moment in which a dispatcher looks for the handler is no state here: nothing
    runs in it that could look at the dispatcher, and what comes next does not depend on it. -/
inductive State where
  | idle
  | handling
  | halted
  deriving DecidableEq

/-- The state in which a finished handler leaves its dispatcher. -/
def State.after : Outcome → State
  | .resume => .idle
  | .halt => .halted

/-- What a running handler can look at: the state of the dispatcher that it takes traps on,
    which is missing when it has none at hand; how many traps may still nest inside; and the
    world. -/
structure View (World : Type) where
  state : Option State
  room : Nat
  world : World

/-- The body of a handler. It can look around, change the world, and take another trap
    on the dispatcher that it runs under, or that it has at hand when it was called directly,
    before it ends with an outcome. It has no other way to touch a dispatcher. A nested trap
    yields nothing when there is no room for one. -/
inductive Routine (Context World : Type) : Type where
  | done (outcome : Outcome)
  | look (next : View World → Routine Context World)
  | change (f : World → World) (next : Routine Context World)
  | trap (entry : Entry) (context : Context) (next : Option Outcome → Routine Context World)

/-- A handler is told the context of the trap. -/
abbrev Handler (Context World : Type) := Context → Routine Context World

/-- A routine that does one thing to the world. -/
def Routine.ofFunction {Context World : Type} (f : World → Outcome × World) :
    Routine Context World :=
  .look fun view => .change (fun _ => (f view.world).2) (.done (f view.world).1)

/-- What a routine takes another trap with: given the state of the dispatcher and the
    world, the outcome, if there was room, and both afterwards. -/
abbrev Nested (Context World : Type) :=
  Entry → Context → Option State → World → Option Outcome × Option State × World

/-- No trap can be taken. -/
def Nested.refused {Context World : Type} : Nested Context World :=
  fun _ _ state world => (none, state, world)

/-- Runs a routine to its end: its outcome, and the state of the dispatcher and the world
    that it leaves. -/
def Routine.finish {Context World : Type} (room : Nat) (nested : Nested Context World) :
    Routine Context World → Option State → World → Outcome × Option State × World
  | .done outcome, state, world => (outcome, state, world)
  | .look next, state, world => (next ⟨state, room, world⟩).finish room nested state world
  | .change f next, state, world => next.finish room nested state (f world)
  | .trap entry context next, state, world =>
    let (outcome, state, world) := nested entry context state world
    (next outcome).finish room nested state world

/-- The outcome of a routine and the world that it leaves. -/
def Routine.run {Context World : Type} (room : Nat) (nested : Nested Context World)
    (routine : Routine Context World) (state : Option State) (world : World) : Outcome × World :=
  let (outcome, _, world) := routine.finish room nested state world
  (outcome, world)

/-- Runs a handler directly, with no dispatcher at hand to take a trap on. -/
def Handler.call {Context World : Type} (handler : Handler Context World) (context : Context)
    (world : World) : Outcome × World :=
  (handler context).run 0 .refused none world

/-- A routine that takes no trap of its own, whatever it sees. -/
inductive Routine.Flat {Context World : Type} : Routine Context World → Prop where
  | done (outcome : Outcome) : Flat (.done outcome)
  | look {next : View World → Routine Context World} (h : ∀ view, Flat (next view)) : Flat (.look next)
  | change {f : World → World} {next : Routine Context World} (h : Flat next) : Flat (.change f next)

end HartRuntime.Trap
