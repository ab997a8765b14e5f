import HartRuntime.Trap.Dispatcher

namespace HartRuntime.Trap

variable {Context World : Type}

theorem dispatch_eq_take (table : Table (Handler Context World)) (room : Nat) (entry : Entry)
    (context : Context) (state : State) (world : World) :
    dispatch table room entry context state world =
      take table room (nestedIn table room) entry context state world := by
  cases room <;> rfl

/-- A halted dispatcher runs nothing. -/
theorem dispatch_of_halted (table : Table (Handler Context World)) (room : Nat) (entry : Entry)
    (context : Context) (world : World) :
    dispatch table room entry context .halted world = ⟨.halt, .halted, world⟩ := by
  rw [dispatch_eq_take, take, if_pos rfl]

/-- Any other dispatcher runs the handler of the entry once, and is left as its outcome says. -/
theorem dispatch_of_ne_halted (table : Table (Handler Context World)) (room : Nat) (entry : Entry)
    (context : Context) {state : State} (hstate : state ≠ .halted) (world : World) :
    dispatch table room entry context state world =
      let ran := (table entry context).run room (nestedIn table room) (some .handling) world
      ⟨ran.1, .after ran.1, ran.2⟩ := by
  rw [dispatch_eq_take, take, if_neg hstate]

@[simp] theorem State.after_eq_halted {outcome : Outcome} : after outcome = .halted ↔ outcome = .halt := by
  cases outcome <;> simp [after]

theorem dispatch_state (table : Table (Handler Context World)) (room : Nat) (entry : Entry)
    (context : Context) (state : State) (world : World) :
    (dispatch table room entry context state world).state =
      .after (dispatch table room entry context state world).outcome := by
  by_cases hstate : state = .halted
  · rw [hstate, dispatch_of_halted]
    rfl
  · rw [dispatch_of_ne_halted _ _ _ _ hstate]

theorem Routine.run_trap (room : Nat) (nested : Nested Context World) (entry : Entry)
    (context : Context) (next : Option Outcome → Routine Context World) (state : Option State)
    (world : World) :
    (trap entry context next).run room nested state world =
      let inner := nested entry context state world
      (next inner.1).run room nested inner.2.1 inner.2.2 :=
  rfl

theorem Routine.run_change (room : Nat) (nested : Nested Context World) (f : World → World)
    (next : Routine Context World) (state : Option State) (world : World) :
    (change f next).run room nested state world = next.run room nested state (f world) :=
  rfl

/-- A trap of a sequence: what happens to the world until it comes, and where it enters. -/
structure Arrival (Context World : Type) where
  since : World → World
  entry : Entry
  context : Context

/-- One dispatch of a sequence: the world that it found, how it ended, the state of the
    dispatcher after it, and the world that it left. -/
structure Taken (World : Type) where
  found : World
  outcome : Outcome
  state : State
  left : World

/-- Takes the traps of a sequence one after the other on a dispatcher. -/
def Dispatcher.takeAll (dispatcher : Dispatcher Context World) (room : Nat) (world : World) :
    List (Arrival Context World) → List (Taken World)
  | [] => []
  | arrival :: rest =>
    let found := arrival.since world
    let (outcome, dispatcher, left) :=
      dispatcher.dispatch room arrival.entry arrival.context found
    ⟨found, outcome, dispatcher.state, left⟩ :: dispatcher.takeAll room left rest

theorem Dispatcher.takeAll_cons (dispatcher : Dispatcher Context World) (room : Nat) (world : World)
    (arrival : Arrival Context World) (rest : List (Arrival Context World)) :
    dispatcher.takeAll room world (arrival :: rest) =
      let result := Trap.dispatch dispatcher.table room arrival.entry arrival.context
        dispatcher.state (arrival.since world)
      ⟨arrival.since world, result.outcome, result.state, result.world⟩ ::
        takeAll ⟨dispatcher.table, result.state⟩ room result.world rest :=
  rfl

@[simp] theorem length_takeAll (dispatcher : Dispatcher Context World) (room : Nat) (world : World)
    (arrivals : List (Arrival Context World)) :
    (dispatcher.takeAll room world arrivals).length = arrivals.length := by
  induction arrivals generalizing dispatcher world with
  | nil => rfl
  | cons arrival rest ih => rw [Dispatcher.takeAll_cons, List.length_cons, ih, List.length_cons]

end HartRuntime.Trap
