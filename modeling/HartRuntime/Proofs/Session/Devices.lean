import HartRuntime.Proofs.Session.Output

namespace HartRuntime

open Trap

variable {n : Nat}

/-- An action that leaves the registers of all devices to the runtime and its standard
    handlers. -/
def Action.Remote : Action n → Prop
  | .arm _ _ => False
  | .poke _ _ _ => False
  | .setCounter _ _ => False
  | .reachDeadline _ => False
  | _ => True

/-- The period for which an action has the runtime arm the timer of a device, if it does: a
    timeout is for the platform that is registered by then, and a tick for its own device. -/
def Action.arming (m : Machine n) (i : Fin n) : Action n → Option UInt64
  | .call (.armTimeout period) => if m.platform = some i then some period else none
  | .call (.startTicking j) => if j = i then some (m.device j).period else none
  | .handle .timer (some j) => if j = i then some (m.device j).period else none
  | _ => none

namespace Machine

theorem device_settle {action : Action n} (h : action.Remote) (m : Machine n) (i : Fin n) :
    (m.settle action).device i =
      { m.device i with
        timer :=
          { (m.device i).timer with
            mtimecmp := (action.arming m i).elim (m.device i).timer.mtimecmp
              fun period => (m.device i).timer.mtime + period } } := by
  cases action with
  | call call =>
    cases call with
    | armTimeout period =>
      simp only [settle, settleCall, armTimeout, Action.arming]
      cases m.platform with
      | none => rfl
      | some j =>
        simp only [Option.elim_some, Option.some.injEq]
        exact device_arm_eq_elim j i period m
    | startTicking j => exact device_arm_eq_elim j i (m.device j).period m
    | _ => rfl
  | handle entry device =>
    cases entry with
    | exception =>
      simp only [settle, handleException_snd]
      split <;> rfl
    | nmi | software | external => rfl
    | timer =>
      cases device with
      | none => rfl
      | some j =>
        exact device_arm_eq_elim j i (m.device j).period (m.record (.entered .timer (some j)))
  | arm | poke | setCounter | reachDeadline => exact absurd h id
  | _ => rfl

/-- An action does no more to a device than to arm its timer, if it arms it, and to send it
    what it prints, if the device is the console. -/
theorem device_act {action : Action n} (h : action.Remote) (m : Machine n) (i : Fin n) :
    (m.act action).device i =
      { m.device i with
        timer :=
          { (m.device i).timer with
            mtimecmp := (action.arming m i).elim (m.device i).timer.mtimecmp
              fun period => (m.device i).timer.mtime + period }
        uart := (m.device i).uart.transmit
          (if m.console = some (.uart i) then action.printed m else []) } := by
  rw [act_eq_emit, device_emit, ite_console_settle, device_settle h]

/-- The periods for which a sequence of actions arms the timer of a device. -/
def armings (i : Fin n) (m : Machine n) : List (Action n) → List UInt64
  | [] => []
  | action :: rest => (action.arming m i).toList ++ (m.act action).armings i rest

/-- The last arming counts: the deadline lies that period behind the counter, modulo 2^64. The
    counter stays. -/
theorem timer_acts {actions : List (Action n)} (h : ∀ action ∈ actions, action.Remote)
    (m : Machine n) (i : Fin n) :
    ((m.acts actions).device i).timer =
      { (m.device i).timer with
        mtimecmp := (m.armings i actions).getLast?.elim (m.device i).timer.mtimecmp
          fun period => (m.device i).timer.mtime + period } := by
  induction actions generalizing m with
  | nil => rfl
  | cons action rest ih =>
    obtain ⟨hnow, hrest⟩ := List.forall_mem_cons.mp h
    rw [acts_cons, ih hrest, device_act hnow, armings, List.getLast?_append]
    cases action.arming m i with
    | none => simp
    | some period =>
      cases ((m.act action).armings i rest).getLast? with
      | none => rfl
      | some later => rfl

theorem period_acts {actions : List (Action n)} (h : ∀ action ∈ actions, action.Remote)
    (m : Machine n) (i : Fin n) : ((m.acts actions).device i).period = (m.device i).period := by
  induction actions generalizing m with
  | nil => rfl
  | cons action rest ih =>
    obtain ⟨hnow, hrest⟩ := List.forall_mem_cons.mp h
    rw [acts_cons, ih hrest, device_act hnow]

/-- What a sequence of actions makes of the devices, at every moment and as a whole. The
    deadline of a timer lies the last period asked for behind its counter, modulo 2^64, and a
    UART transmits what it receives as the console. -/
structure Tended (before : Machine n) (actions : List (Action n)) (after : Machine n) : Prop where
  moment : ∀ k action, actions[k]? = some action → ∀ i,
    let now := before.acts (actions.take k)
    (now.act action).device i =
      { now.device i with
        timer :=
          { (now.device i).timer with
            mtimecmp := (action.arming now i).elim (now.device i).timer.mtimecmp
              fun period => (now.device i).timer.mtime + period }
        uart := (now.device i).uart.transmit
          (if now.console = some (.uart i) then action.printed now else []) }
  device : ∀ i, after.device i =
    { before.device i with
      timer :=
        { (before.device i).timer with
          mtimecmp := (before.armings i actions).getLast?.elim (before.device i).timer.mtimecmp
            fun period => (before.device i).timer.mtime + period }
      uart := (before.device i).uart.transmit (received (.uart i) after.events) }
  silent : ∀ i, after.console ≠ some (.uart i) → received (.uart i) after.events = []

theorem tended_acts {actions : List (Action n)} (h : ∀ action ∈ actions, action.Remote)
    {m : Machine n} (hevents : m.events = []) : Tended m actions (m.acts actions) where
  moment _ _ hk i := device_act (h _ (List.mem_of_getElem? hk)) _ i
  device i := by
    have hpoke : ∀ timer cell, .poke i timer cell ∉ actions := fun timer cell hmem => h _ hmem
    obtain ⟨bytes, hreceived, huart⟩ := uart_acts hpoke m
    rw [hevents] at hreceived
    have hbytes : received (.uart i) (m.acts actions).events = bytes := hreceived
    have htimer := timer_acts h m i
    have hperiod := period_acts h m i
    show _ = Device.mk _ _ (m.device i).period
    rw [hbytes, ← huart, ← htimer, ← hperiod]
  silent i hconsole := by
    rw [received_acts_of_other hconsole, hevents]
    rfl

end Machine

namespace Session

/-- In every session whose handlers leave the registers of the devices to the runtime, however
    deep its traps nest, software never changes a counter. It changes a deadline only by arming
    that timer, and what a UART shows only by printing to it as the console. The hardware changes
    only the counter that it moves. -/
theorem tended_step (room : Nat) (devices : Vector Device n) {ops : List (Op n)}
    (hops : ∀ op ∈ ops, op.Only (Machine.ConfinedHandler Action.Remote)) {op : Op n}
    (hop : op.Only (Machine.ConfinedHandler Action.Remote)) :
    let s := (start devices).run room ops
    (op.Software →
      (∃ actions, s.fresh.Performs room op actions ∧ ∀ action ∈ actions, action.Remote) ∧
        ∀ actions, s.fresh.Performs room op actions → (∀ action ∈ actions, action.Remote) →
          s.fresh.machine.Tended actions (s.step room op).after.machine) ∧
      ∀ i j,
        (∀ value, (s.step room (.setCounter i value)).after.machine.device j =
          if i = j then
            { s.machine.device i with timer := { (s.machine.device i).timer with mtime := value } }
          else s.machine.device j) ∧
        (s.step room (.reachDeadline i)).after.machine.device j =
          if i = j then
            { s.machine.device i with
              timer :=
                { (s.machine.device i).timer with mtime := (s.machine.device i).timer.mtimecmp } }
          else s.machine.device j := by
  intro s
  have honly : s.fresh.Only (Machine.ConfinedHandler Action.Remote) :=
    (only_start (fun _ => Machine.confinedHandler_standard fun _ => trivial) devices).run room hops
  refine ⟨fun hsoftware => ⟨?_, ?_⟩, fun i j => ⟨fun value => ?_, ?_⟩⟩
  · obtain ⟨actions, hactions, hremote⟩ := honly.exists_performs (fun _ => trivial)
      (fun _ _ => trivial) room hop
    exact ⟨actions, hactions, hremote hsoftware⟩
  · intro actions hactions hremote
    have hmachine : (s.step room op).after.machine = s.fresh.machine.acts actions := hactions.machine
    rw [hmachine]
    exact Machine.tended_acts hremote rfl
  · exact Machine.device_updateDevice i j _ s.fresh.machine
  · exact Machine.device_updateDevice i j _ s.fresh.machine

/-- A session with one device for the registered platform, one that ticks, and one for the
    console. -/
def apart : List (Op 3) :=
  [.call (.registerConsole (.uart 2)), .call (.registerPlatform 0), .call (.setFilter none),
    .setCounter 1 1000]

theorem performs_tick (room : Nat) (devices : Vector Device 3) :
    ((start devices).run room apart).fresh.Performs room (.trap .own .timer ⟨.device 1, none, none⟩)
      [.load none none, .handle .timer (some 1)] :=
  .trap nofun (Machine.performs_standard _ _ _ _ _ _)

/-- The tick arms the timer of its device alone, and is logged on the console's alone. -/
theorem tended_step_tick :
    let devices : Vector Device 3 :=
      #v[⟨⟨0, 0⟩, ⟨.byte, 0⟩, 500⟩, ⟨⟨0, 0⟩, ⟨.byte, 0⟩, 500⟩, ⟨⟨0, 0⟩, ⟨.byte, 0⟩, 500⟩]
    let s := (start devices).run 3 apart
    let after := (s.step 3 (.trap .own .timer ⟨.device 1, none, none⟩)).after.machine
    (∀ op ∈ apart, op.Only (Machine.ConfinedHandler Action.Remote)) ∧
      (after.device 1).timer = ⟨1000, 1500⟩ ∧ (after.device 0).timer = ⟨0, 0⟩ ∧
      (after.device 2).timer = ⟨0, 0⟩ ∧ (after.device 0).uart = ⟨.byte, 0⟩ ∧
      (after.device 1).uart = ⟨.byte, 0⟩ ∧
      (after.device 2).uart = Uart.transmit ⟨.byte, 0⟩ (received (.uart 2) after.events) := by
  intro devices s after
  have hops : ∀ op ∈ apart, op.Only (Machine.ConfinedHandler Action.Remote) := by
    simp [apart, Op.Only]
  have hop : (Op.trap .own .timer ⟨.device 1, none, none⟩ : Op 3).Only
      (Machine.ConfinedHandler Action.Remote) := trivial
  obtain ⟨hsoftware, -⟩ := tended_step 3 devices hops hop
  obtain ⟨-, htended⟩ := hsoftware trivial
  have h := htended _ (performs_tick 3 devices) (by simp [Action.Remote])
  have hconsole : after.console = some (.uart 2) := rfl
  have hsilent (i : Fin 3) (hi : i ≠ 2) : received (.uart i) after.events = [] :=
    h.silent i (by rw [hconsole]; simpa using hi.symm)
  refine ⟨hops, ?_, ?_, ?_, ?_, ?_, ?_⟩
  · rw [h.device 1]
    rfl
  · rw [h.device 0]
    rfl
  · rw [h.device 2]
    rfl
  · rw [h.device 0, hsilent 0 (by decide)]
    rfl
  · rw [h.device 1, hsilent 1 (by decide)]
    rfl
  · rw [h.device 2]
    rfl

end Session

end HartRuntime
