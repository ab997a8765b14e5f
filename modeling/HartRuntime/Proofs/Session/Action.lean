import HartRuntime.Machine.Call
import HartRuntime.Machine.Handler
import HartRuntime.Proofs.Machine.Output

namespace HartRuntime

open Trap (Entry)

/-- One thing that happens to a machine. Software calls the runtime or one of its standard
    handlers, uses the trap registers, notes something down, arms a timer, or writes to the
    registers of a device itself; the hardware loads the trap registers or moves a counter. -/
inductive Action (n : Nat) where
  | call (call : Call n)
  | handle (entry : Entry) (device : Option (Fin n))
  | note (note : Note)
  | readCause
  | readReturn
  | writeReturn (address : UInt64)
  | enableTimer
  | enableInterrupts
  | arm (device : Fin n) (period : UInt64)
  | poke (device : Fin n) (timer : Timer) (cell : UInt64)
  | load (cause returnAddress : Option UInt64)
  | setCounter (device : Fin n) (value : UInt64)
  | reachDeadline (device : Fin n)

namespace Machine

variable {n : Nat}

def act (action : Action n) (m : Machine n) : Machine n :=
  match action with
  | .call call => (m.perform call).2
  | .handle entry device => ((m.record (.entered entry device)).handle entry device).2
  | .note note => m.record (.noted note)
  | .readCause => m.record .readCause
  | .readReturn => m.record .readReturn
  | .writeReturn address => { m.record (.wroteReturn address) with returnAddress := address }
  | .enableTimer => m.record .enabledTimer
  | .enableInterrupts => m.record .enabledInterrupts
  | .arm i period => m.arm i period
  | .poke i timer cell =>
    m.updateDevice i fun device => { device with timer := timer, uart := { device.uart with cell := cell } }
  | .load cause returnAddress =>
    { m with cause := cause.getD m.cause, returnAddress := returnAddress.getD m.returnAddress }
  | .setCounter i value => m.setCounter i value
  | .reachDeadline i => m.reachDeadline i

/-- What a sequence of actions makes of a machine. -/
def acts (m : Machine n) (actions : List (Action n)) : Machine n :=
  actions.foldl (fun m action => m.act action) m

@[simp] theorem acts_nil (m : Machine n) : m.acts [] = m :=
  rfl

@[simp] theorem acts_cons (m : Machine n) (action : Action n) (rest : List (Action n)) :
    m.acts (action :: rest) = (m.act action).acts rest :=
  rfl

theorem acts_append (m : Machine n) (first second : List (Action n)) :
    m.acts (first ++ second) = (m.acts first).acts second :=
  List.foldl_append

end Machine

variable {n : Nat}

/-- The bytes that a call prints under a filter. -/
def Call.printed (filter : Log.Filter) : Call n → List UInt8
  | .consoleChar byte => [byte]
  | .consoleText text => utf8 text
  | .printf format args => Format.output format args
  | .puts bytes => Format.beforeNul bytes
  | .putchar byte => [byte]
  | .print text => utf8 text
  | .printLine text => utf8 text ++ utf8 "\n"
  | .log level text => Machine.recorded filter level text
  | .write _ buffer => buffer
  | _ => []

/-- The bytes that an action prints. A standard handler that halts says why, unless it is that
    of the exceptions, and a handled tick logs its number. -/
def Action.printed (m : Machine n) : Action n → List UInt8
  | .call made => made.printed m.filter
  | .handle .nmi _ => Machine.reported m.filter "unexpected non-maskable interrupt"
  | .handle .software _ => Machine.reported m.filter "unexpected machine software interrupt"
  | .handle .timer none => Machine.reported m.filter "timer interrupt without a platform"
  | .handle .timer (some _) =>
    Machine.recorded m.filter .trace
      ("tick " ++ Numeral.text 10 (UInt64.ofNat (m.ticks.toNat + 1)).toNat)
  | .handle .external _ => Machine.reported m.filter "unexpected machine external interrupt"
  | _ => []

namespace Machine

/-- What a call does besides printing. -/
def settleCall (call : Call n) (m : Machine n) : Machine n :=
  match call with
  | .registerConsole console => m.registerConsole console
  | .setFilter setting => { m with filter := Log.Filter.ofSetting setting }
  | .registerPlatform i => m.registerPlatform i
  | .armTimeout period => m.armTimeout period
  | .startTicking i => m.startTicking i
  | _ => m

/-- What an action does before it prints. -/
def settle (action : Action n) (m : Machine n) : Machine n :=
  match action with
  | .call call => m.settleCall call
  | .handle .exception device => ((m.record (.entered .exception device)).handleException).2
  | .handle .timer (some i) =>
    { (m.record (.entered .timer (some i))).arm i (m.device i).period with
      ticks := UInt64.ofNat (m.ticks.toNat + 1) }
  | .handle entry device => m.record (.entered entry device)
  | other => m.act other

theorem perform_eq_emit (call : Call n) (m : Machine n) :
    (m.perform call).2 = (m.settleCall call).emit (call.printed m.filter) := by
  cases call with
  | consoleChar | consoleText | printf | puts | putchar | print | write => rfl
  | printLine text => exact (emit_append _ _ m).symm
  | log level text => exact log_eq_emit level text m
  | _ => exact (emit_nil _).symm

/-- Every action prints last. -/
theorem act_eq_emit (action : Action n) (m : Machine n) :
    m.act action = (m.settle action).emit (action.printed m) := by
  cases action with
  | call call => exact perform_eq_emit call m
  | handle entry device =>
    cases entry with
    | exception => exact (emit_nil _).symm
    | nmi | software | external => exact report_eq_emit _ _
    | timer =>
      cases device with
      | none => exact report_eq_emit _ _
      | some i => exact log_eq_emit _ _ _
  | _ => exact (emit_nil _).symm

/-- The same machine with more events in its past. -/
def prepend (events : List (Event n)) (m : Machine n) : Machine n :=
  { m with events := events ++ m.events }

theorem record_prepend (events : List (Event n)) (event : Event n) (m : Machine n) :
    (m.prepend events).record event = (m.record event).prepend events := by
  simp [record, prepend]

theorem emit_prepend (events : List (Event n)) (bytes : List UInt8) (m : Machine n) :
    (m.prepend events).emit bytes = (m.emit bytes).prepend events := by
  obtain ⟨devices, console, platform, filter, cause, returnAddress, ticks, past⟩ := m
  cases console with
  | none => rfl
  | some console => cases console <;> simp [emit, prepend, transmit, updateDevice, device]

theorem arm_prepend (events : List (Event n)) (i : Fin n) (period : UInt64) (m : Machine n) :
    (m.prepend events).arm i period = (m.arm i period).prepend events := by
  rw [arm, arm, ← record_prepend]
  rfl

theorem handleException_snd (m : Machine n) :
    (m.handleException).2 =
      if Trap.Cause.ofBits m.cause = .exception .machineEnvCall then
        let address := m.returnAddress + callWidth
        { ((m.record .readCause).record .readReturn).record (.wroteReturn address) with
          returnAddress := address }
      else m.record .readCause := by
  have hcause : (m.record .readCause).cause = m.cause := rfl
  simp only [handleException, hcause]
  cases Trap.Cause.ofBits m.cause with
  | unknown bits => rfl
  | exception exception => cases exception <;> rfl

theorem settle_prepend (events : List (Event n)) (action : Action n) (m : Machine n) :
    (m.prepend events).settle action = (m.settle action).prepend events := by
  cases action with
  | call call =>
    cases call with
    | armTimeout period =>
      obtain ⟨devices, console, platform, filter, cause, returnAddress, ticks, past⟩ := m
      cases platform with
      | none => rfl
      | some i => exact arm_prepend events i period _
    | startTicking i =>
      simp only [settle, settleCall, startTicking, ← record_prepend, ← arm_prepend]
      rfl
    | _ => rfl
  | handle entry device =>
    cases entry with
    | exception =>
      simp only [settle, record_prepend, handleException_snd]
      show (if Trap.Cause.ofBits m.cause = _ then _ else _) = prepend events (if Trap.Cause.ofBits m.cause = _ then _ else _)
      split <;> rfl
    | nmi | software | external => exact record_prepend events _ m
    | timer =>
      cases device with
      | none => exact record_prepend events _ m
      | some i =>
        simp only [settle, record_prepend, arm_prepend]
        rfl
  | arm i period => exact arm_prepend events i period m
  | poke i timer cell => rfl
  | load cause returnAddress => rfl
  | setCounter i value => rfl
  | reachDeadline i => rfl
  | writeReturn address =>
    simp only [settle, act, record_prepend]
    rfl
  | _ => exact record_prepend events _ m

theorem printed_prepend (events : List (Event n)) (action : Action n) (m : Machine n) :
    action.printed (m.prepend events) = action.printed m :=
  rfl

/-- What has happened before makes no difference to an action. -/
theorem act_prepend (events : List (Event n)) (action : Action n) (m : Machine n) :
    (m.prepend events).act action = (m.act action).prepend events := by
  rw [act_eq_emit, settle_prepend, printed_prepend, emit_prepend, ← act_eq_emit]

/-- What has happened before stays on record. -/
theorem events_act (action : Action n) (m : Machine n) :
    (m.act action).events = m.events ++ (act action { m with events := [] }).events := by
  have hpast : ({ m with events := [] } : Machine n).prepend m.events = m := by
    simp [prepend]
  have hact := act_prepend m.events action { m with events := [] }
  rw [hpast] at hact
  exact congrArg events hact

theorem acts_prepend (events : List (Event n)) (actions : List (Action n)) (m : Machine n) :
    (m.prepend events).acts actions = (m.acts actions).prepend events := by
  induction actions generalizing m with
  | nil => rfl
  | cons action rest ih => rw [acts_cons, act_prepend, ih, acts_cons]

end Machine

/-- The console that an action asks to register. -/
def Action.console? : Action n → Option (Console n)
  | .call (.registerConsole console) => some console
  | _ => none

/-- The platform that an action asks to register. -/
def Action.platform? : Action n → Option (Fin n)
  | .call (.registerPlatform i) => some i
  | _ => none

namespace Machine

/-- A change that no console takes notice of, and that registers nothing. -/
structure Silent (m after : Machine n) : Prop where
  console : after.console = m.console
  platform : after.platform = m.platform
  received (console : Console n) : received console after.events = received console m.events
  uart (i : Fin n) : (after.device i).uart = (m.device i).uart

theorem Silent.trans {m between after : Machine n} (h : Silent m between)
    (hafter : Silent between after) : Silent m after where
  console := hafter.console.trans h.console
  platform := hafter.platform.trans h.platform
  received console := (hafter.received console).trans (h.received console)
  uart i := (hafter.uart i).trans (h.uart i)

theorem silent_record (event : Event n) (h : ∀ console, received console [event] = [])
    (m : Machine n) : Silent m (m.record event) where
  console := rfl
  platform := rfl
  received console := by
    rw [record, received_append, h, List.append_nil]
  uart _ := rfl

theorem silent_updateTimer (timer : Device → Timer) (i : Fin n) (m : Machine n) :
    Silent m (m.updateDevice i fun device => { device with timer := timer device }) where
  console := rfl
  platform := rfl
  received _ := rfl
  uart j := by
    rw [device_updateDevice]
    split
    · next h => rw [h]
    · rfl

theorem silent_arm (i : Fin n) (period : UInt64) (m : Machine n) : Silent m (m.arm i period) :=
  (silent_updateTimer (fun device => device.timer.arm period) i m).trans
    (silent_record _ (fun _ => rfl) _)

/-- What an action does before it prints: it may register a console or a platform, or write to
    the register of a UART if it is meant to. -/
structure Settled (action : Action n) (m after : Machine n) : Prop where
  console : after.console = m.console.or action.console?
  platform : after.platform = m.platform.or action.platform?
  received (console : Console n) : received console after.events = received console m.events
  uart {i : Fin n} (h : ∀ timer cell, action ≠ .poke i timer cell) :
    (after.device i).uart = (m.device i).uart

theorem Silent.settled {action : Action n} {m after : Machine n} (h : Silent m after)
    (hconsole : action.console? = none) (hplatform : action.platform? = none) :
    Settled action m after where
  console := by rw [h.console, hconsole, Option.or_none]
  platform := by rw [h.platform, hplatform, Option.or_none]
  received := h.received
  uart _ := h.uart _

theorem settled_settle (action : Action n) (m : Machine n) :
    Settled action m (m.settle action) := by
  cases action with
  | call call =>
    cases call with
    | registerConsole console => exact ⟨rfl, Option.or_none.symm, fun _ => rfl, fun _ => rfl⟩
    | registerPlatform i => exact ⟨Option.or_none.symm, rfl, fun _ => rfl, fun _ => rfl⟩
    | armTimeout period =>
      have hsilent : Silent m (m.armTimeout period) := by
        unfold armTimeout
        cases m.platform with
        | none => exact ⟨rfl, rfl, fun _ => rfl, fun _ => rfl⟩
        | some i => exact silent_arm i period m
      exact hsilent.settled rfl rfl
    | startTicking i =>
      have htimer := (silent_arm i (m.device i).period m).trans
        (silent_record .enabledTimer (fun _ => rfl) _)
      have hinterrupts := htimer.trans (silent_record .enabledInterrupts (fun _ => rfl) _)
      exact hinterrupts.settled rfl rfl
    | _ => exact Silent.settled ⟨rfl, rfl, fun _ => rfl, fun _ => rfl⟩ rfl rfl
  | handle entry device =>
    have hentered := silent_record (.entered entry device) (fun _ => rfl) m
    cases entry with
    | exception =>
      have hhandled : Silent (m.record (.entered .exception device))
          (m.record (.entered .exception device)).handleException.2 := by
        rw [handleException_snd]
        have hcause := silent_record .readCause (fun _ => rfl) (m.record (.entered .exception device))
        split
        · have hreturn := (hcause.trans (silent_record .readReturn (fun _ => rfl) _)).trans
            (silent_record (.wroteReturn (m.returnAddress + callWidth)) (fun _ => rfl) _)
          exact hreturn.trans ⟨rfl, rfl, fun _ => rfl, fun _ => rfl⟩
        · exact hcause
      exact Silent.settled (hentered.trans hhandled) rfl rfl
    | timer =>
      cases device with
      | none => exact hentered.settled rfl rfl
      | some i =>
        have harmed := hentered.trans (silent_arm i (m.device i).period _)
        refine Silent.settled (harmed.trans ?_) rfl rfl
        exact ⟨rfl, rfl, fun _ => rfl, fun _ => rfl⟩
    | nmi | software | external => exact hentered.settled rfl rfl
  | note | readCause | readReturn | enableTimer | enableInterrupts =>
    exact Silent.settled (silent_record _ (fun _ => rfl) m) rfl rfl
  | writeReturn address =>
    have hwrote := silent_record (.wroteReturn address) (fun _ => rfl) m
    refine Silent.settled (hwrote.trans ?_) rfl rfl
    exact ⟨rfl, rfl, fun _ => rfl, fun _ => rfl⟩
  | arm i period => exact Silent.settled (silent_arm i period m) rfl rfl
  | poke i timer cell =>
    refine ⟨Option.or_none.symm, Option.or_none.symm, fun _ => rfl, fun {j} hother => ?_⟩
    have hne : i ≠ j := fun hij => hother timer cell (by rw [hij])
    simp only [settle, act]
    rw [device_updateDevice, if_neg hne]
  | load cause returnAddress => exact Silent.settled ⟨rfl, rfl, fun _ => rfl, fun _ => rfl⟩ rfl rfl
  | setCounter i value =>
    exact Silent.settled
      (silent_updateTimer (fun device => { device.timer with mtime := value }) i m) rfl rfl
  | reachDeadline i =>
    exact Silent.settled
      (silent_updateTimer (fun device => { device.timer with mtime := device.timer.mtimecmp }) i m)
      rfl rfl

theorem console_act (action : Action n) (m : Machine n) :
    (m.act action).console = m.console.or action.console? := by
  rw [act_eq_emit, console_emit, (settled_settle action m).console]

/-- Whatever happens, the first registration counts. -/
theorem console_acts (actions : List (Action n)) (m : Machine n) :
    (m.acts actions).console = m.console.or (actions.findSome? Action.console?) := by
  induction actions generalizing m with
  | nil => exact Option.or_none.symm
  | cons action rest ih =>
    rw [acts_cons, ih, console_act, Option.or_assoc, List.findSome?_cons]
    cases action.console? <;> rfl

end Machine

end HartRuntime
