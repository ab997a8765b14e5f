import HartRuntime.Trap.Routine

namespace HartRuntime.Trap

variable {Context World : Type}

/-- How a dispatch ended, the state of the dispatcher after it, and the world. -/
structure Dispatched (World : Type) where
  outcome : Outcome
  state : State
  world : World

/-- Takes one trap. A halted dispatcher runs no handler. Otherwise the handler of the
    entry runs while the state is handling, and its outcome alone decides the state
    afterwards. -/
def take (table : Table (Handler Context World)) (room : Nat) (nested : Nested Context World)
    (entry : Entry) (context : Context) (state : State) (world : World) : Dispatched World :=
  if state = .halted then ⟨.halt, .halted, world⟩
  else
    let (outcome, world) := (table entry context).run room nested (some .handling) world
    ⟨outcome, .after outcome, world⟩

/-- Takes one trap, inside which as many further traps may nest as there is room for. -/
def dispatch (table : Table (Handler Context World)) :
    (room : Nat) → Entry → Context → State → World → Dispatched World
  | 0, entry, context, state, world => take table 0 .refused entry context state world
  | room + 1, entry, context, state, world =>
    let nested : Nested Context World := fun entry context state world =>
      match state with
      | none => (none, none, world)
      | some state =>
        let inner := dispatch table room entry context state world
        (some inner.outcome, some inner.state, inner.world)
    take table (room + 1) nested entry context state world

/-- What a handler takes further traps with, when there is room for `room` of them inside
    the one that it handles. -/
def nestedIn (table : Table (Handler Context World)) : Nat → Nested Context World
  | 0 => .refused
  | room + 1 => fun entry context state world =>
    match state with
    | none => (none, none, world)
    | some state =>
      let inner := dispatch table room entry context state world
      (some inner.outcome, some inner.state, inner.world)

/-- A trap table and the state of the trap in progress. -/
structure Dispatcher (Context World : Type) where
  table : Table (Handler Context World)
  state : State

/-- A dispatcher that has not taken a trap. -/
def Dispatcher.ofTable (table : Table (Handler Context World)) : Dispatcher Context World :=
  ⟨table, .idle⟩

/-- Takes one trap on a dispatcher. Its table stays. -/
def Dispatcher.dispatch (dispatcher : Dispatcher Context World) (room : Nat) (entry : Entry)
    (context : Context) (world : World) : Outcome × Dispatcher Context World × World :=
  let result := Trap.dispatch dispatcher.table room entry context dispatcher.state world
  (result.outcome, { dispatcher with state := result.state }, result.world)

/-- Runs a handler directly, with a dispatcher at hand: the traps that the handler takes are
    taken on that one and leave it in their state. Its table stays. -/
def Dispatcher.call (dispatcher : Dispatcher Context World) (room : Nat)
    (handler : Handler Context World) (context : Context) (world : World) :
    Outcome × Dispatcher Context World × World :=
  let (outcome, state, world) :=
    (handler context).finish room (nestedIn dispatcher.table room) (some dispatcher.state) world
  (outcome, { dispatcher with state := state.getD dispatcher.state }, world)

end HartRuntime.Trap
