import HartRuntime.Proofs.Session.Action
import HartRuntime.Proofs.Trap.Dispatch
import HartRuntime.Session

namespace HartRuntime

open Trap

variable {n : Nat}

namespace Machine

/-- A routine that touches a machine by nothing but actions. The actions may depend on
    everything that it sees. -/
inductive Proper : Routine (Option (Fin n)) (Machine n) → Machine n → Prop where
  | done (outcome : Outcome) (m : Machine n) : Proper (.done outcome) m
  | look {next : View (Machine n) → Routine (Option (Fin n)) (Machine n)} {m : Machine n}
      (h : ∀ state room, Proper (next ⟨state, room, m⟩) m) : Proper (.look next) m
  | change {f : Machine n → Machine n} {next : Routine (Option (Fin n)) (Machine n)}
      {m : Machine n} (action : Action n) (haction : f m = m.act action)
      (h : Proper next (m.act action)) : Proper (.change f next) m
  | trap {entry : Entry} {device : Option (Fin n)}
      {next : Option Outcome → Routine (Option (Fin n)) (Machine n)} {m : Machine n}
      (h : ∀ outcome after, Proper (next outcome) after) : Proper (.trap entry device next) m

/-- A routine that touches a machine by nothing but actions of one kind. -/
inductive Confined (kind : Action n → Prop) :
    Routine (Option (Fin n)) (Machine n) → Machine n → Prop where
  | done (outcome : Outcome) (m : Machine n) : Confined kind (.done outcome) m
  | look {next : View (Machine n) → Routine (Option (Fin n)) (Machine n)} {m : Machine n}
      (h : ∀ state room, Confined kind (next ⟨state, room, m⟩) m) : Confined kind (.look next) m
  | change {f : Machine n → Machine n} {next : Routine (Option (Fin n)) (Machine n)}
      {m : Machine n} (action : Action n) (hkind : kind action) (haction : f m = m.act action)
      (h : Confined kind next (m.act action)) : Confined kind (.change f next) m
  | trap {entry : Entry} {device : Option (Fin n)}
      {next : Option Outcome → Routine (Option (Fin n)) (Machine n)} {m : Machine n}
      (h : ∀ outcome after, Confined kind (next outcome) after) :
      Confined kind (.trap entry device next) m

theorem Proper.confined {routine : Routine (Option (Fin n)) (Machine n)} {m : Machine n}
    (h : Proper routine m) : Confined (fun _ => True) routine m := by
  induction h with
  | done outcome m => exact .done outcome m
  | look _ ih => exact .look ih
  | change action haction _ ih => exact .change action trivial haction ih
  | trap _ ih => exact .trap ih

/-- The actions that a routine performs, with those of the traps that it takes on a
    dispatcher with the given table. -/
inductive Performs (table : Table (Handler n)) : Nat → Routine (Option (Fin n)) (Machine n) →
    Option State → Machine n → List (Action n) → Prop where
  | done {room : Nat} {state : Option State} {m : Machine n} (outcome : Outcome) :
      Performs table room (.done outcome) state m []
  | look {room : Nat} {state : Option State} {m : Machine n} {actions : List (Action n)}
      {next : View (Machine n) → Routine (Option (Fin n)) (Machine n)}
      (h : Performs table room (next ⟨state, room, m⟩) state m actions) :
      Performs table room (.look next) state m actions
  | change {room : Nat} {state : Option State} {m : Machine n} {actions : List (Action n)}
      {f : Machine n → Machine n} {next : Routine (Option (Fin n)) (Machine n)}
      (action : Action n) (haction : f m = m.act action)
      (h : Performs table room next state (m.act action) actions) :
      Performs table room (.change f next) state m (action :: actions)
  | noRoom {state : Option State} {m : Machine n} {actions : List (Action n)} {entry : Entry}
      {device : Option (Fin n)} {next : Option Outcome → Routine (Option (Fin n)) (Machine n)}
      (h : Performs table 0 (next none) state m actions) :
      Performs table 0 (.trap entry device next) state m actions
  | noDispatcher {room : Nat} {m : Machine n} {actions : List (Action n)} {entry : Entry}
      {device : Option (Fin n)} {next : Option Outcome → Routine (Option (Fin n)) (Machine n)}
      (h : Performs table (room + 1) (next none) none m actions) :
      Performs table (room + 1) (.trap entry device next) none m actions
  | halted {room : Nat} {m : Machine n} {actions : List (Action n)} {entry : Entry}
      {device : Option (Fin n)} {next : Option Outcome → Routine (Option (Fin n)) (Machine n)}
      (h : Performs table (room + 1) (next (some .halt)) (some .halted) m actions) :
      Performs table (room + 1) (.trap entry device next) (some .halted) m actions
  | trap {room : Nat} {state : State} {m : Machine n} {first rest : List (Action n)}
      {entry : Entry} {device : Option (Fin n)}
      {next : Option Outcome → Routine (Option (Fin n)) (Machine n)} (hstate : state ≠ .halted)
      (hinner : Performs table room (table entry device) (some .handling) m first)
      (h : Performs table (room + 1)
        (next (some (dispatch table room entry device state m).outcome))
        (some (dispatch table room entry device state m).state) (m.acts first) rest) :
      Performs table (room + 1) (.trap entry device next) (some state) m (first ++ rest)

/-- The actions that a routine performs are all that it does to the machine. -/
theorem Performs.run {table : Table (Handler n)} {room : Nat}
    {routine : Routine (Option (Fin n)) (Machine n)} {state : Option State} {m : Machine n}
    {actions : List (Action n)} (h : Performs table room routine state m actions) :
    (routine.run room (nestedIn table room) state m).2 = m.acts actions := by
  induction h with
  | done outcome => rfl
  | look _ ih => exact ih
  | change action haction _ ih =>
    rw [Routine.run_change, haction]
    exact ih
  | noRoom _ ih => exact ih
  | noDispatcher _ ih => exact ih
  | halted _ ih =>
    rw [Routine.run_trap]
    simp only [nestedIn, dispatch_of_halted]
    exact ih
  | @trap room state m first rest entry device next hstate _ _ ihinner ih =>
    have hworld : (dispatch table room entry device state m).world = m.acts first := by
      rw [dispatch_of_ne_halted _ _ _ _ hstate]
      exact ihinner
    rw [Routine.run_trap, acts_append, ← ih]
    simp only [nestedIn, hworld]

/-- A confined routine performs some actions of its kind, whatever traps come in between, if
    those are handled by confined routines too. -/
theorem Confined.exists_performs {kind : Action n → Prop} {table : Table (Handler n)}
    (htable : ∀ entry device m, Confined kind (table entry device) m) (room : Nat)
    {routine : Routine (Option (Fin n)) (Machine n)} {m : Machine n} (h : Confined kind routine m)
    (state : Option State) :
    ∃ actions, Performs table room routine state m actions ∧ ∀ action ∈ actions, kind action := by
  induction room using Nat.strongRecOn generalizing routine m state with
  | ind room ihroom =>
    induction h generalizing state with
    | done outcome m => exact ⟨[], .done outcome, by simp⟩
    | look _ ih =>
      obtain ⟨actions, hactions, hkinds⟩ := ih state room state
      exact ⟨actions, .look hactions, hkinds⟩
    | change action hkind haction _ ih =>
      obtain ⟨actions, hactions, hkinds⟩ := ih state
      exact ⟨action :: actions, .change action haction hactions,
        List.forall_mem_cons.mpr ⟨hkind, hkinds⟩⟩
    | @trap entry device next m _ ih =>
      cases room with
      | zero =>
        obtain ⟨actions, hactions, hkinds⟩ := ih none m state
        exact ⟨actions, .noRoom hactions, hkinds⟩
      | succ room =>
        cases state with
        | none =>
          obtain ⟨actions, hactions, hkinds⟩ := ih none m none
          exact ⟨actions, .noDispatcher hactions, hkinds⟩
        | some state =>
          by_cases hstate : state = .halted
          · subst hstate
            obtain ⟨actions, hactions, hkinds⟩ := ih (some .halt) m (some .halted)
            exact ⟨actions, .halted hactions, hkinds⟩
          · obtain ⟨first, hfirst, hfirstKinds⟩ :=
              ihroom room (Nat.lt_succ_self room) (htable entry device m) (some .handling)
            obtain ⟨rest, hrest, hrestKinds⟩ :=
              ih (some (dispatch table room entry device state m).outcome)
                (m.acts first) (some (dispatch table room entry device state m).state)
            exact ⟨first ++ rest, .trap hstate hfirst hrest,
              List.forall_mem_append.mpr ⟨hfirstKinds, hrestKinds⟩⟩

/-- A confined routine that takes no trap performs some actions of its kind, whatever the
    handlers of its table do. -/
theorem Confined.exists_performs_of_flat {kind : Action n → Prop} (table : Table (Handler n))
    (room : Nat) {routine : Routine (Option (Fin n)) (Machine n)} {m : Machine n}
    (h : Confined kind routine m) (hflat : routine.Flat) (state : Option State) :
    ∃ actions, Performs table room routine state m actions ∧ ∀ action ∈ actions, kind action := by
  induction h with
  | done outcome m => exact ⟨[], .done outcome, by simp⟩
  | look _ ih =>
    cases hflat with
    | look hflat =>
      obtain ⟨actions, hactions, hkinds⟩ := ih state room (hflat _)
      exact ⟨actions, .look hactions, hkinds⟩
  | change action hkind haction _ ih =>
    cases hflat with
    | change hflat =>
      obtain ⟨actions, hactions, hkinds⟩ := ih hflat
      exact ⟨action :: actions, .change action haction hactions,
        List.forall_mem_cons.mpr ⟨hkind, hkinds⟩⟩
  | trap _ _ => cases hflat

/-- A proper routine performs some actions, whatever traps come in between. -/
theorem Proper.exists_performs {table : Table (Handler n)}
    (htable : ∀ entry device m, Proper (table entry device) m) (room : Nat)
    {routine : Routine (Option (Fin n)) (Machine n)} {m : Machine n} (h : Proper routine m)
    (state : Option State) : ∃ actions, Performs table room routine state m actions := by
  obtain ⟨actions, hactions, -⟩ := h.confined.exists_performs
    (fun entry device m => (htable entry device m).confined) room state
  exact ⟨actions, hactions⟩

/-- A handler that is proper in every context and wherever it starts. -/
def ProperHandler (handler : Handler n) : Prop :=
  ∀ device m, Proper (handler device) m

/-- A handler that is confined in every context and wherever it starts. -/
def ConfinedHandler (kind : Action n → Prop) (handler : Handler n) : Prop :=
  ∀ device m, Confined kind (handler device) m

theorem ProperHandler.confined {handler : Handler n} (h : ProperHandler handler) :
    ConfinedHandler (fun _ => True) handler :=
  fun device m => (h device m).confined

theorem confinedHandler_standard {kind : Action n → Prop} {entry : Entry}
    (h : ∀ device, kind (.handle entry device)) : ConfinedHandler kind (standard entry : Handler n) :=
  fun device _ => .look fun _ _ => .change (.handle entry device) (h device) rfl (.done _ _)

theorem properHandler_standard (entry : Entry) : ProperHandler (standard entry : Handler n) :=
  fun device _ => .look fun _ _ => .change (.handle entry device) rfl (.done _ _)

theorem performs_standard (table : Table (Handler n)) (room : Nat) (entry : Entry)
    (device : Option (Fin n)) (state : Option State) (m : Machine n) :
    Performs table room (standard entry device) state m [.handle entry device] :=
  .look (.change (.handle entry device) rfl (.done _))

/-- A handler that takes another trap performs what that one does between its two notes. -/
theorem performs_nesting {table : Table (Handler n)} {room : Nat} {entry : Entry}
    {device : Option (Fin n)} {state : State} (hstate : state ≠ .halted) (outcome : Outcome)
    {m : Machine n} {actions : List (Action n)}
    (h : Performs table room (table entry device) (some .handling)
      (m.act (.note (.nesting entry (some state)))) actions) :
    let inner := dispatch table room entry device state
      (m.act (.note (.nesting entry (some state))))
    Performs table (room + 1) (nesting entry outcome device) (some state) m
      (.note (.nesting entry (some state)) ::
        (actions ++ [.note (.nested inner.outcome (some inner.state))])) := by
  refine .look ?_
  simp only [Nat.add_one_ne_zero, if_false]
  exact .change (.note _) rfl (.trap hstate h (.look (.change (.note _) rfl (.done _))))

theorem properHandler_nesting (entry : Entry) (outcome : Outcome) :
    ProperHandler (nesting entry outcome : Handler n) := by
  intro device m
  refine .look fun state room => ?_
  by_cases hroom : room = 0
  · simp only [hroom, if_true]
    exact .done _ _
  · simp only [hroom, if_false]
    exact .change (.note _) rfl
      (.trap fun _ _ => .look fun _ _ => .change (.note _) rfl (.done _ _))

end Machine

/-- An operation that brings no handlers but proper ones. -/
def Op.Proper : Op n → Prop
  | .renew table => ∀ entry, Machine.ProperHandler (table entry)
  | .install table => ∀ entry, Machine.ProperHandler (table entry)
  | .invoke _ (.handler handler) _ => Machine.ProperHandler handler
  | _ => True

/-- An operation that brings no handlers but those with some property. -/
def Op.Only (p : Machine.Handler n → Prop) : Op n → Prop
  | .renew table => ∀ entry, p (table entry)
  | .install table => ∀ entry, p (table entry)
  | .invoke _ (.handler handler) _ => p handler
  | _ => True

theorem Op.Only.imp {p q : Machine.Handler n → Prop} (himp : ∀ handler, p handler → q handler)
    {op : Op n} (h : op.Only p) : op.Only q := by
  cases op with
  | renew table => exact fun entry => himp _ (h entry)
  | install table => exact fun entry => himp _ (h entry)
  | invoke hand callee trigger =>
    cases callee with
    | handler handler => exact himp _ h
    | entry entry => trivial
  | _ => trivial

theorem Op.only_properHandler {op : Op n} : op.Only Machine.ProperHandler ↔ op.Proper := by
  cases op with
  | invoke hand callee trigger => cases callee <;> exact Iff.rfl
  | _ => exact Iff.rfl

/-- An operation of software. The hardware moves the counters. -/
def Op.Software : Op n → Prop
  | .setCounter _ _ => False
  | .reachDeadline _ => False
  | _ => True

namespace Session

/-- The actions that an operation performs on the machine of a session, with room for that many
    traps inside one another. -/
inductive Performs (room : Nat) (s : Session n) : Op n → List (Action n) → Prop where
  | call (call : Call n) : Performs room s (.call call) [.call call]
  | setCounter (i : Fin n) (value : UInt64) :
      Performs room s (.setCounter i value) [.setCounter i value]
  | reachDeadline (i : Fin n) : Performs room s (.reachDeadline i) [.reachDeadline i]
  | renew (table : Table (Machine.Handler n)) : Performs room s (.renew table) []
  | install (table : Table (Machine.Handler n)) : Performs room s (.install table) []
  | state (seat : Seat) : Performs room s (.state seat) []
  | halted {seat : Seat} {entry : Entry} {trigger : Trigger n}
      (hstate : (s.dispatcher seat).state = .halted) :
      Performs room s (.trap seat entry trigger) [.load trigger.cause trigger.returnAddress]
  | trap {seat : Seat} {entry : Entry} {trigger : Trigger n} {actions : List (Action n)}
      (hstate : (s.dispatcher seat).state ≠ .halted)
      (h : Machine.Performs (s.dispatcher seat).table room
        ((s.dispatcher seat).table entry (trigger.platform.resolve s.machine)) (some .handling)
        (trigger.load s.machine) actions) :
      Performs room s (.trap seat entry trigger)
        (.load trigger.cause trigger.returnAddress :: actions)
  | invokeAlone {callee : Callee n} {trigger : Trigger n} {actions : List (Action n)}
      (h : Machine.Performs s.own.table 0
        (callee.resolve s (trigger.platform.resolve s.machine)) none
        (trigger.load s.machine) actions) :
      Performs room s (.invoke none callee trigger)
        (.load trigger.cause trigger.returnAddress :: actions)
  | invoke {seat : Seat} {callee : Callee n} {trigger : Trigger n} {actions : List (Action n)}
      (h : Machine.Performs (s.dispatcher seat).table room
        (callee.resolve s (trigger.platform.resolve s.machine)) (some (s.dispatcher seat).state)
        (trigger.load s.machine) actions) :
      Performs room s (.invoke (some seat) callee trigger)
        (.load trigger.cause trigger.returnAddress :: actions)

/-- A trap that is not refused and has a standard handler is one run of that handler. -/
theorem performs_trap_standard {room : Nat} {s : Session n} {seat : Seat} {entry : Entry}
    (hstate : (s.dispatcher seat).state ≠ .halted)
    (htable : (s.dispatcher seat).table entry = Machine.standard entry) (trigger : Trigger n) :
    s.Performs room (.trap seat entry trigger)
      [.load trigger.cause trigger.returnAddress,
        .handle entry (trigger.platform.resolve s.machine)] := by
  refine .trap hstate ?_
  rw [htable]
  exact Machine.performs_standard _ _ _ _ _ _

/-- So is a direct call of a standard handler, whether or not it has a dispatcher at hand. -/
theorem performs_invoke_standard {room : Nat} {s : Session n} {callee : Callee n} {entry : Entry}
    (hcallee : callee.resolve s = Machine.standard entry) (seat : Option Seat)
    (trigger : Trigger n) :
    s.Performs room (.invoke seat callee trigger)
      [.load trigger.cause trigger.returnAddress,
        .handle entry (trigger.platform.resolve s.machine)] := by
  cases seat with
  | none =>
    refine .invokeAlone ?_
    rw [hcallee]
    exact Machine.performs_standard _ _ _ _ _ _
  | some seat =>
    refine .invoke ?_
    rw [hcallee]
    exact Machine.performs_standard _ _ _ _ _ _

/-- The actions that an operation performs are all that it does to the machine. -/
theorem Performs.machine {room : Nat} {s : Session n} {op : Op n} {actions : List (Action n)}
    (h : s.Performs room op actions) : (s.perform room op).2.machine = s.machine.acts actions := by
  cases h with
  | @halted seat entry trigger hstate =>
    have hdispatch := dispatch_of_halted (s.dispatcher seat).table room entry
      (trigger.platform.resolve s.machine) (trigger.load s.machine)
    rw [← hstate] at hdispatch
    simp only [perform, Dispatcher.dispatch, hdispatch]
    rfl
  | @trap seat entry trigger actions hstate h =>
    have hdispatch := dispatch_of_ne_halted (s.dispatcher seat).table room entry
      (trigger.platform.resolve s.machine) hstate (trigger.load s.machine)
    simp only [perform, Dispatcher.dispatch, hdispatch]
    exact h.run
  | invokeAlone h => exact h.run
  | invoke h => exact h.run
  | _ => rfl

theorem dispatcher_setDispatcher (s : Session n) (seat other : Seat) (d : Machine.Dispatcher n) :
    (s.setDispatcher seat d).dispatcher other = if other = seat then d else s.dispatcher other := by
  cases hinstalled : s.installed <;> cases seat <;> cases other <;>
    simp [setDispatcher, dispatcher, shared, hinstalled]

/-- A trap changes the state of the dispatcher that takes it, and no other dispatcher. -/
theorem dispatcher_trap (room : Nat) (s : Session n) (seat other : Seat) (entry : Entry)
    (trigger : Trigger n) :
    (s.perform room (.trap seat entry trigger)).2.dispatcher other =
      if other = seat then
        { s.dispatcher seat with
          state := (dispatch (s.dispatcher seat).table room entry
            (trigger.platform.resolve s.machine) (s.dispatcher seat).state
            (trigger.load s.machine)).state }
      else s.dispatcher other :=
  dispatcher_setDispatcher s seat other _

/-- A handler that is called directly changes the state of the dispatcher that it has at hand,
    and no other dispatcher. -/
theorem dispatcher_invoke (room : Nat) (s : Session n) (seat other : Seat) (callee : Callee n)
    (trigger : Trigger n) :
    (s.perform room (.invoke (some seat) callee trigger)).2.dispatcher other =
      if other = seat then
        { s.dispatcher seat with
          state := ((callee.resolve s (trigger.platform.resolve s.machine)).finish room
            (nestedIn (s.dispatcher seat).table room) (some (s.dispatcher seat).state)
            (trigger.load s.machine)).2.1.getD (s.dispatcher seat).state }
      else s.dispatcher other :=
  dispatcher_setDispatcher s seat other _

/-- A session whose dispatchers have no handlers but those with some property. -/
def Only (p : Machine.Handler n → Prop) (s : Session n) : Prop :=
  ∀ seat entry, p ((s.dispatcher seat).table entry)

theorem only_start {p : Machine.Handler n → Prop} (h : ∀ entry, p (Machine.standard entry))
    (devices : Vector Device n) : (start devices).Only p := by
  intro seat entry
  cases seat <;> exact h entry

theorem Only.perform {p : Machine.Handler n → Prop} (room : Nat) {s : Session n} (h : s.Only p)
    {op : Op n} (hop : op.Only p) : (s.perform room op).2.Only p := by
  intro seat entry
  cases op with
  | renew table =>
    cases seat with
    | own => exact hop entry
    | shared => exact h .shared entry
  | install table =>
    cases seat with
    | own => exact h .own entry
    | shared =>
      have hshared := h .shared entry
      cases hinstalled : s.installed with
      | none =>
        simp only [Session.perform, install, dispatcher, shared, hinstalled]
        exact hop entry
      | some d =>
        simp only [dispatcher, shared, hinstalled] at hshared
        simp only [Session.perform, install, dispatcher, shared, hinstalled]
        exact hshared
  | trap other place trigger =>
    rw [dispatcher_trap]
    split
    · exact h other entry
    · exact h seat entry
  | invoke hand callee trigger =>
    cases hand with
    | none => exact h seat entry
    | some other =>
      rw [dispatcher_invoke]
      split
      · exact h other entry
      · exact h seat entry
  | _ => exact h seat entry

/-- Handlers that are confined to a kind of actions confine what software does to that kind. -/
theorem Only.exists_performs {kind : Action n → Prop} (hcall : ∀ call, kind (.call call))
    (hload : ∀ cause returnAddress, kind (.load cause returnAddress)) (room : Nat)
    {s : Session n} (h : s.Only (Machine.ConfinedHandler kind)) {op : Op n}
    (hop : op.Only (Machine.ConfinedHandler kind)) :
    ∃ actions, s.Performs room op actions ∧ (op.Software → ∀ action ∈ actions, kind action) := by
  cases op with
  | call call => exact ⟨_, .call call, fun _ => by simpa using hcall call⟩
  | setCounter i value => exact ⟨_, .setCounter i value, False.elim⟩
  | reachDeadline i => exact ⟨_, .reachDeadline i, False.elim⟩
  | renew table => exact ⟨_, .renew table, by simp⟩
  | install table => exact ⟨_, .install table, by simp⟩
  | state seat => exact ⟨_, .state seat, by simp⟩
  | trap seat entry trigger =>
    by_cases hstate : (s.dispatcher seat).state = .halted
    · exact ⟨_, .halted hstate, fun _ => by simpa using hload _ _⟩
    · obtain ⟨actions, hactions, hkinds⟩ := Machine.Confined.exists_performs (h seat) room
        (h seat entry (trigger.platform.resolve s.machine) (trigger.load s.machine)) (some .handling)
      exact ⟨_, .trap hstate hactions, fun _ => List.forall_mem_cons.mpr ⟨hload _ _, hkinds⟩⟩
  | invoke hand callee trigger =>
    have hcallee : Machine.ConfinedHandler kind (callee.resolve s) := by
      cases callee with
      | handler handler => exact hop
      | entry place => exact h .own place
    have hroutine := hcallee (trigger.platform.resolve s.machine) (trigger.load s.machine)
    cases hand with
    | none =>
      obtain ⟨actions, hactions, hkinds⟩ :=
        Machine.Confined.exists_performs (h .own) 0 hroutine none
      exact ⟨_, .invokeAlone hactions, fun _ => List.forall_mem_cons.mpr ⟨hload _ _, hkinds⟩⟩
    | some seat =>
      obtain ⟨actions, hactions, hkinds⟩ := Machine.Confined.exists_performs (h seat) room
        hroutine (some (s.dispatcher seat).state)
      exact ⟨_, .invoke hactions, fun _ => List.forall_mem_cons.mpr ⟨hload _ _, hkinds⟩⟩

/-- A session whose dispatchers have proper handlers only. -/
def Proper (s : Session n) : Prop :=
  ∀ seat entry, Machine.ProperHandler ((s.dispatcher seat).table entry)

theorem proper_start (devices : Vector Device n) : (start devices).Proper :=
  only_start Machine.properHandler_standard devices

theorem Proper.perform (room : Nat) {s : Session n} (h : s.Proper) {op : Op n}
    (hop : op.Proper) : (s.perform room op).2.Proper :=
  Only.perform room h (Op.only_properHandler.mpr hop)

theorem Proper.exists_performs (room : Nat) {s : Session n} (h : s.Proper) {op : Op n}
    (hop : op.Proper) : ∃ actions, s.Performs room op actions := by
  have hconfined : s.Only (Machine.ConfinedHandler fun _ => True) :=
    fun seat entry => (h seat entry).confined
  obtain ⟨actions, hactions, -⟩ := hconfined.exists_performs (fun _ => trivial)
    (fun _ _ => trivial) room ((Op.only_properHandler.mpr hop).imp fun _ => Machine.ProperHandler.confined)
  exact ⟨actions, hactions⟩

/-- A session at the beginning of a step, whose events are yet to come. -/
def fresh (s : Session n) : Session n :=
  { s with machine := { s.machine with events := [] } }

/-- The session that a sequence of operations leaves. -/
def run (room : Nat) (s : Session n) (ops : List (Op n)) : Session n :=
  ops.foldl (fun s op => (s.step room op).after) s

theorem Only.run {p : Machine.Handler n → Prop} (room : Nat) {s : Session n} (h : s.Only p)
    {ops : List (Op n)} (hops : ∀ op ∈ ops, op.Only p) : (s.run room ops).Only p := by
  induction ops generalizing s with
  | nil => exact h
  | cons op ops ih =>
    obtain ⟨hop, hrest⟩ := List.forall_mem_cons.mp hops
    have hfresh : s.fresh.Only p := h
    exact ih (hfresh.perform room hop) hrest

/-- All that happens in a sequence of operations. -/
def events (room : Nat) (s : Session n) (ops : List (Op n)) : List (Event n) :=
  (s.steps room ops).flatMap fun step => step.after.machine.events

/-- The actions that a sequence of operations performs, in order. -/
inductive Runs (room : Nat) : Session n → List (Op n) → List (Action n) → Prop where
  | nil (s : Session n) : Runs room s [] []
  | cons {s : Session n} {op : Op n} {ops : List (Op n)} {first rest : List (Action n)}
      (hfirst : s.fresh.Performs room op first)
      (hrest : Runs room (s.step room op).after ops rest) :
      Runs room s (op :: ops) (first ++ rest)

theorem Proper.exists_runs (room : Nat) {s : Session n} (h : s.Proper) {ops : List (Op n)}
    (hops : ∀ op ∈ ops, op.Proper) : ∃ actions, Runs room s ops actions := by
  induction ops generalizing s with
  | nil => exact ⟨[], .nil s⟩
  | cons op ops ih =>
    obtain ⟨hop, hrest⟩ := List.forall_mem_cons.mp hops
    have hfresh : s.fresh.Proper := h
    obtain ⟨first, hfirst⟩ := hfresh.exists_performs room hop
    obtain ⟨rest, hruns⟩ := ih (hfresh.perform room hop) hrest
    exact ⟨first ++ rest, .cons hfirst hruns⟩

/-- The actions of a session lead to its machine, and from one step to the next nothing that
    happened is lost. -/
theorem Runs.acts {room : Nat} {s : Session n} {ops : List (Op n)} {actions : List (Action n)}
    (h : s.Runs room ops actions) (past : List (Event n)) :
    Machine.acts { s.machine with events := past } actions =
      { (s.run room ops).machine with events := past ++ s.events room ops } := by
  induction h generalizing past with
  | nil s => simp [run, events, steps]
  | @cons s op ops first rest hfirst _ ih =>
    have hmachine : s.fresh.machine.acts first = (s.step room op).after.machine :=
      hfirst.machine.symm
    have hpast : ({ s.machine with events := past } : Machine n) = s.fresh.machine.prepend past := by
      simp [Machine.prepend, fresh]
    rw [Machine.acts_append, hpast, Machine.acts_prepend, hmachine]
    have hrest := ih (past ++ (s.step room op).after.machine.events)
    rw [List.append_assoc] at hrest
    exact hrest

end Session

end HartRuntime
