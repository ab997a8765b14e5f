import HartRuntime.Proofs.Trap.Dispatch

namespace HartRuntime.Trap

variable {Context World Tag : Type}

/-- A moment of a run at which a handler or its caller can ask for the state of the
    dispatcher: a handler begins, is at work, is about to take a trap, has taken one, or is
    about to end. Handlers are told apart by tags. -/
inductive Mark (Tag : Type) where
  | entered (tag : Tag)
  | working
  | taking (entry : Entry)
  | took (outcome : Option Outcome)
  | ending (outcome : Outcome)
  deriving DecidableEq

/-- A moment and the state that was reported then. -/
structure Sight (Tag : Type) where
  mark : Mark Tag
  state : Option State
  deriving DecidableEq

/-- A world with all that has been seen so far. -/
structure Watched (Tag World : Type) where
  world : World
  sights : List (Sight Tag)

def Watched.see (mark : Mark Tag) (state : Option State) (w : Watched Tag World) :
    Watched Tag World :=
  { w with sights := w.sights ++ [⟨mark, state⟩] }

/-- Looks at the state of the dispatcher and notes it down. -/
def Routine.note (mark : Mark Tag) (next : Routine Context (Watched Tag World)) :
    Routine Context (Watched Tag World) :=
  .look fun view => .change (Watched.see mark view.state) next

/-- The same routine, which also notes down every moment of its run. -/
def Routine.watched : Routine Context World → Routine Context (Watched Tag World)
  | .done outcome => note (.ending outcome) (.done outcome)
  | .look next =>
    note .working <| .look fun view => (next ⟨view.state, view.room, view.world.world⟩).watched
  | .change f next =>
    note .working <| .change (fun w => { w with world := f w.world }) next.watched
  | .trap entry context next =>
    note (.taking entry) <| .trap entry context fun outcome =>
      note (.took outcome) (next outcome).watched

def Handler.watched (tag : Tag) (handler : Handler Context World) :
    Handler Context (Watched Tag World) :=
  fun context => .note (.entered tag) (handler context).watched

def Table.watched (tag : Entry → Tag) (table : Table (Handler Context World)) :
    Table (Handler Context (Watched Tag World)) :=
  fun entry => (table entry).watched (tag entry)

/-- The record starts anew with each trap of a sequence. -/
def Arrival.watched (arrival : Arrival Context World) : Arrival Context (Watched Tag World) where
  since w := ⟨arrival.since w.world, []⟩
  entry := arrival.entry
  context := arrival.context

def Taken.unwatched (taken : Taken (Watched Tag World)) : Taken World :=
  ⟨taken.found.world, taken.outcome, taken.state, taken.left.world⟩

@[simp] theorem Routine.run_note (mark : Mark Tag) (next : Routine Context (Watched Tag World))
    (room : Nat) (nested : Nested Context (Watched Tag World)) (state : Option State)
    (w : Watched Tag World) :
    (note mark next).run room nested state w = next.run room nested state (w.see mark state) :=
  rfl

/-- A watched way to take a trap does the same as the other one. -/
def Nested.Hides (nested : Nested Context World) (watched : Nested Context (Watched Tag World)) :
    Prop :=
  ∀ entry context state w,
    (watched entry context state w).1 = (nested entry context state w.world).1 ∧
    (watched entry context state w).2.1 = (nested entry context state w.world).2.1 ∧
    (watched entry context state w).2.2.world = (nested entry context state w.world).2.2

/-- Watching a routine changes neither its outcome nor what it does to the world. -/
theorem Routine.run_watched {nested : Nested Context World}
    {watched : Nested Context (Watched Tag World)} (hhides : nested.Hides watched)
    (routine : Routine Context World) (room : Nat) (state : Option State) (w : Watched Tag World) :
    (routine.watched.run room watched state w).1 = (routine.run room nested state w.world).1 ∧
    (routine.watched.run room watched state w).2.world =
      (routine.run room nested state w.world).2 := by
  induction routine generalizing state w with
  | done outcome => exact ⟨rfl, rfl⟩
  | look next ih => exact ih _ state _
  | change f next ih => exact ih state _
  | trap entry context next ih =>
    obtain ⟨houtcome, hstate, hworld⟩ :=
      hhides entry context state (w.see (.taking entry) state)
    simp only [Routine.watched, run_note, run_trap]
    rw [houtcome, hstate]
    have hrest := ih (nested entry context state w.world).1 (nested entry context state w.world).2.1
      ((watched entry context state (w.see (.taking entry) state)).2.2.see
        (.took (nested entry context state w.world).1) (nested entry context state w.world).2.1)
    rwa [show Watched.world (Watched.see _ _ _) = _ from hworld] at hrest

theorem dispatch_watched_of_hides {tag : Entry → Tag} {table : Table (Handler Context World)}
    {room : Nat} (hhides : (nestedIn table room).Hides (nestedIn (table.watched tag) room))
    (entry : Entry) (context : Context) (state : State) (w : Watched Tag World) :
    let plain := dispatch table room entry context state w.world
    let seen := dispatch (table.watched tag) room entry context state w
    seen.outcome = plain.outcome ∧ seen.state = plain.state ∧ seen.world.world = plain.world := by
  by_cases hstate : state = .halted
  · rw [hstate, dispatch_of_halted, dispatch_of_halted]
    exact ⟨rfl, rfl, rfl⟩
  · rw [dispatch_of_ne_halted _ _ _ _ hstate, dispatch_of_ne_halted _ _ _ _ hstate]
    obtain ⟨houtcome, hworld⟩ := (table entry context).run_watched hhides room (some .handling)
      (w.see (.entered (tag entry)) (some .handling))
    exact ⟨houtcome, congrArg State.after houtcome, hworld⟩

theorem hides_nestedIn (tag : Entry → Tag) (table : Table (Handler Context World)) (room : Nat) :
    (nestedIn table room).Hides (nestedIn (table.watched tag) room) := by
  induction room with
  | zero => exact fun _ _ _ _ => ⟨rfl, rfl, rfl⟩
  | succ room ih =>
    intro entry context state w
    cases state with
    | none => exact ⟨rfl, rfl, rfl⟩
    | some state =>
      obtain ⟨houtcome, hstate, hworld⟩ := dispatch_watched_of_hides ih entry context state w
      exact ⟨congrArg some houtcome, congrArg some hstate, hworld⟩

/-- Watching a sequence of traps changes nothing else about it. -/
theorem map_unwatched_takeAll (tag : Entry → Tag) (table : Table (Handler Context World))
    (state : State) (room : Nat) (arrivals : List (Arrival Context World)) (w : Watched Tag World) :
    (Dispatcher.takeAll ⟨table.watched tag, state⟩ room w (arrivals.map Arrival.watched)).map
        Taken.unwatched =
      Dispatcher.takeAll ⟨table, state⟩ room w.world arrivals := by
  induction arrivals generalizing state w with
  | nil => rfl
  | cons arrival rest ih =>
    obtain ⟨houtcome, hstate, hworld⟩ := dispatch_watched_of_hides (hides_nestedIn tag table room)
      arrival.entry arrival.context state (⟨arrival.since w.world, []⟩ : Watched Tag World)
    rw [List.map_cons, Dispatcher.takeAll_cons, Dispatcher.takeAll_cons, List.map_cons, ih]
    simp only [Taken.unwatched, Arrival.watched, houtcome, hstate, hworld]

end HartRuntime.Trap
