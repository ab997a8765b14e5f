import HartRuntime.Proofs.Machine.Cadence
import HartRuntime.Proofs.Numeral.Conversion
import HartRuntime.Proofs.Session.Devices

namespace HartRuntime

open Trap

variable {n : Nat}

/-- A run of the standard handler for the timer's interrupt that has a device to arm. -/
def Action.isTick : Action n → Bool
  | .handle .timer (some _) => true
  | _ => false

namespace Machine

theorem ticks_settle (action : Action n) (m : Machine n) :
    (m.settle action).ticks = m.ticks + if action.isTick then 1 else 0 := by
  have hkept : m.ticks = m.ticks + 0 := (UInt64.add_zero m.ticks).symm
  cases action with
  | call call =>
    cases call with
    | armTimeout period =>
      simp only [settle, settleCall, armTimeout]
      cases m.platform <;> exact hkept
    | _ => exact hkept
  | handle entry device =>
    cases entry with
    | exception =>
      simp only [settle, handleException_snd]
      split <;> exact hkept
    | nmi | software | external => exact hkept
    | timer =>
      cases device with
      | none => exact hkept
      | some i =>
        show UInt64.ofNat (m.ticks.toNat + 1) = m.ticks + 1
        rw [UInt64.ofNat_add, UInt64.ofNat_toNat]
        rfl
  | _ => exact hkept

theorem ticks_act (action : Action n) (m : Machine n) :
    (m.act action).ticks = m.ticks + if action.isTick then 1 else 0 := by
  rw [act_eq_emit, ticks_emit, ticks_settle]

/-- Ticks are counted whatever lies between them. -/
theorem ticks_acts (actions : List (Action n)) (m : Machine n) :
    (m.acts actions).ticks = m.ticks + UInt64.ofNat (actions.countP Action.isTick) := by
  induction actions generalizing m with
  | nil => exact (UInt64.add_zero m.ticks).symm
  | cons action rest ih =>
    rw [acts_cons, ih, ticks_act, List.countP_cons, UInt64.ofNat_add, UInt64.add_assoc,
      UInt64.add_comm (if action.isTick then 1 else 0)]
    cases action.isTick <;> rfl

theorem toNat_ticks_acts {actions : List (Action n)}
    (hcount : actions.countP Action.isTick < 2 ^ 64) {m : Machine n} (hticks : m.ticks = 0) :
    (m.acts actions).ticks.toNat = actions.countP Action.isTick := by
  rw [ticks_acts, hticks, UInt64.zero_add, UInt64.toNat_ofNat', Nat.mod_eq_of_lt hcount]

/-- The numbers that the ticks among a sequence of actions bear, in order. -/
def tickNumbers (m : Machine n) : List (Action n) → List Nat
  | [] => []
  | action :: rest =>
    (if action.isTick then [(m.act action).ticks.toNat] else []) ++ (m.act action).tickNumbers rest

/-- No number is left out and none is used twice. -/
theorem tickNumbers_eq_range {actions : List (Action n)} {m : Machine n}
    (h : m.ticks.toNat + actions.countP Action.isTick < 2 ^ 64) :
    m.tickNumbers actions = List.range' (m.ticks.toNat + 1) (actions.countP Action.isTick) := by
  induction actions generalizing m with
  | nil => rfl
  | cons action rest ih =>
    have hticks := ticks_act action m
    rw [List.countP_cons] at h
    rw [tickNumbers, List.countP_cons]
    cases htick : action.isTick with
    | false =>
      rw [htick, if_neg Bool.false_ne_true, UInt64.add_zero] at hticks
      rw [htick] at h
      rw [ih (by rw [hticks]; exact h), hticks]
      rfl
    | true =>
      rw [htick, if_pos rfl] at hticks
      rw [htick, if_pos rfl] at h
      have hnumber : (m.act action).ticks.toNat = m.ticks.toNat + 1 := by
        rw [hticks, UInt64.toNat_add]
        exact Nat.mod_eq_of_lt (by show m.ticks.toNat + 1 < 2 ^ 64; omega)
      rw [ih (by rw [hnumber]; omega), hnumber, if_pos rfl, if_pos rfl, List.range'_succ]
      rfl

/-- A tick on a device that becomes the one with the given number: however it was reached, its
    handler goes on, sets the deadline of its own device alone, one of the device's periods behind
    the counter, and logs its number where trace records are let through. -/
structure Tick (m : Machine n) (i : Fin n) (number : Nat) : Prop where
  outcome : ∀ room nested state, (standard .timer (some i)).run room nested state m =
    (.resume, m.act (.handle .timer (some i)))
  ticks : (m.act (.handle .timer (some i))).ticks.toNat = number
  timer : ∀ j, ((m.act (.handle .timer (some i))).device j).timer =
    if i = j then
      { (m.device j).timer with mtimecmp := (m.device j).timer.mtime + (m.device j).period }
    else (m.device j).timer
  line : ∀ console, m.console = some console → m.filter = .upTo .trace →
    (m.act (.handle .timer (some i))).events =
      m.events ++ .entered .timer (some i) ::
        .armed i ((m.device i).timer.mtime + (m.device i).period) ::
          (Log.lineBytes .trace ("tick " ++ toString number)).map (.sent console)

theorem tick_of_lt {m : Machine n} (h : m.ticks.toNat + 1 < 2 ^ 64) (i : Fin n) :
    m.Tick i (m.ticks.toNat + 1) where
  outcome _ _ _ := rfl
  ticks := by
    rw [ticks_act, Action.isTick, if_pos rfl, UInt64.toNat_add]
    exact Nat.mod_eq_of_lt h
  timer j := by
    have hremote : (Action.handle .timer (some i)).Remote := trivial
    rw [device_act hremote, Action.arming]
    by_cases hij : i = j
    · subst hij
      simp
    · simp [hij]
  line console hconsole hfilter := by
    have hnumber : (UInt64.ofNat (m.ticks.toNat + 1)).toNat = m.ticks.toNat + 1 := by
      rw [UInt64.toNat_ofNat', Nat.mod_eq_of_lt h]
    have hprinted : (Action.handle .timer (some i)).printed m =
        Log.lineBytes .trace ("tick " ++ toString (m.ticks.toNat + 1)) := by
      rw [Action.printed, hnumber, Numeral.text_ten, hfilter]
      rfl
    have hsettled : (m.settle (.handle .timer (some i))).events =
        m.events ++ [.entered .timer (some i)] ++
          [.armed i ((m.device i).timer.mtime + (m.device i).period)] := rfl
    have hheard : (m.settle (.handle .timer (some i))).console = some console := hconsole
    rw [act_eq_emit, events_emit, hprinted, hsettled, hheard]
    simp [deliveries]

theorem toNat_ticks_acts_take {actions : List (Action n)}
    (hcount : actions.countP Action.isTick < 2 ^ 64) {m : Machine n} (hticks : m.ticks = 0)
    (k : Nat) :
    (m.acts (actions.take k)).ticks.toNat = (actions.take k).countP Action.isTick := by
  have hbefore : (actions.take k).countP Action.isTick ≤ actions.countP Action.isTick :=
    (List.take_sublist k actions).countP_le
  exact toNat_ticks_acts (Nat.lt_of_le_of_lt hbefore hcount) hticks

/-- A tick bears the number that follows that of the ticks before it. -/
theorem tick_acts_take {actions : List (Action n)} (hcount : actions.countP Action.isTick < 2 ^ 64)
    {m : Machine n} (hticks : m.ticks = 0) {k : Nat} {i : Fin n}
    (hk : actions[k]? = some (.handle .timer (some i))) :
    (m.acts (actions.take k)).Tick i ((actions.take k).countP Action.isTick + 1) := by
  have hthis : (actions.take (k + 1)).countP Action.isTick =
      (actions.take k).countP Action.isTick + 1 := by
    rw [List.take_add_one, hk, List.countP_append]
    rfl
  have hthrough : (actions.take (k + 1)).countP Action.isTick ≤ actions.countP Action.isTick :=
    (List.take_sublist (k + 1) actions).countP_le
  have hnow := toNat_ticks_acts_take hcount hticks k
  have hroom : (m.acts (actions.take k)).ticks.toNat + 1 < 2 ^ 64 := by
    rw [hnow]
    omega
  have htick := tick_of_lt hroom i
  rwa [hnow] at htick

end Machine

namespace Session

theorem ticks_step {room : Nat} {s : Session n} {op : Op n} {actions : List (Action n)}
    (h : s.fresh.Performs room op actions) :
    (s.step room op).after.machine.ticks =
      s.machine.ticks + UInt64.ofNat (actions.countP Action.isTick) := by
  have hmachine : (s.step room op).after.machine = s.fresh.machine.acts actions := h.machine
  rw [hmachine, Machine.ticks_acts]
  rfl

/-- What counts as a tick in a session: traps and calls that run the standard handler for the
    timer's interrupt with a device to arm. -/
structure CountsTicks (room : Nat) (s : Session n) : Prop where
  trap : ∀ seat trigger i, (s.dispatcher seat).state ≠ .halted →
    (s.dispatcher seat).table .timer = Machine.standard .timer →
      trigger.platform.resolve s.machine = some i →
        (s.step room (.trap seat .timer trigger)).answer = .taken .resume .idle ∧
          (s.step room (.trap seat .timer trigger)).after.machine.ticks = s.machine.ticks + 1
  invoke : ∀ hand callee trigger i, callee.resolve s = Machine.standard .timer →
    trigger.platform.resolve s.machine = some i →
      (s.step room (.invoke hand callee trigger)).answer = .outcome .resume ∧
        (s.step room (.invoke hand callee trigger)).after.machine.ticks = s.machine.ticks + 1
  halted : ∀ seat entry trigger, (s.dispatcher seat).state = .halted →
    (s.step room (.trap seat entry trigger)).after.machine.ticks = s.machine.ticks
  withoutPlatform : ∀ seat trigger, (s.dispatcher seat).table .timer = Machine.standard .timer →
    trigger.platform.resolve s.machine = none →
      (s.step room (.trap seat .timer trigger)).after.machine.ticks = s.machine.ticks
  custom : ∀ seat entry trigger, (∀ device, ((s.dispatcher seat).table entry device).Flat) →
    Machine.ConfinedHandler (fun action => action.isTick = false) ((s.dispatcher seat).table entry) →
      (s.step room (.trap seat entry trigger)).after.machine.ticks = s.machine.ticks
  call : ∀ call, (s.step room (.call call)).after.machine.ticks = s.machine.ticks

theorem countsTicks (room : Nat) (s : Session n) : s.CountsTicks room := by
  have hhalted (seat : Seat) (entry : Entry) (trigger : Trigger n)
      (hstate : (s.dispatcher seat).state = .halted) :
      (s.step room (.trap seat entry trigger)).after.machine.ticks = s.machine.ticks :=
    (ticks_step (Performs.halted hstate)).trans (UInt64.add_zero _)
  refine
    { trap := ?trap
      invoke := ?invoke
      halted := hhalted
      withoutPlatform := ?withoutPlatform
      custom := ?custom
      call := fun call => (ticks_step (Performs.call call)).trans (UInt64.add_zero _) }
  case trap =>
    intro seat trigger i hstate htable hplatform
    have hperforms : s.fresh.Performs room (.trap seat .timer trigger) _ :=
      performs_trap_standard (s := s.fresh) hstate htable trigger
    have hticks := ticks_step hperforms
    have hresolve : trigger.platform.resolve s.fresh.machine = some i := hplatform
    rw [hresolve] at hticks
    refine ⟨?_, hticks⟩
    have hdispatch := dispatch_of_ne_halted (s.dispatcher seat).table room .timer
      (trigger.platform.resolve s.fresh.machine) hstate (trigger.load s.fresh.machine)
    have hanswer : (s.step room (.trap seat .timer trigger)).answer =
        let ended := dispatch (s.dispatcher seat).table room .timer
          (trigger.platform.resolve s.fresh.machine) (s.dispatcher seat).state
          (trigger.load s.fresh.machine)
        .taken ended.outcome ended.state := rfl
    rw [hanswer, hdispatch, htable, hresolve]
    rfl
  case invoke =>
    intro hand callee trigger i hcallee hplatform
    have hresolve : trigger.platform.resolve s.fresh.machine = some i := hplatform
    have hfresh : callee.resolve s.fresh = Machine.standard .timer := hcallee
    have hperforms : s.fresh.Performs room (.invoke hand callee trigger) _ :=
      performs_invoke_standard (s := s.fresh) hfresh hand trigger
    rw [hresolve] at hperforms
    refine ⟨?_, ticks_step hperforms⟩
    cases hand with
    | none =>
      have hanswer : (s.step room (.invoke none callee trigger)).answer =
          .outcome ((callee.resolve s.fresh).call (trigger.platform.resolve s.fresh.machine)
            (trigger.load s.fresh.machine)).1 := rfl
      rw [hanswer, hfresh, hresolve]
      rfl
    | some seat =>
      have hanswer : (s.step room (.invoke (some seat) callee trigger)).answer =
          .outcome ((s.dispatcher seat).call room (callee.resolve s.fresh)
            (trigger.platform.resolve s.fresh.machine) (trigger.load s.fresh.machine)).1 := rfl
      rw [hanswer, hfresh, hresolve]
      rfl
  case withoutPlatform =>
    intro seat trigger htable hplatform
    by_cases hstate : (s.dispatcher seat).state = .halted
    · exact hhalted seat .timer trigger hstate
    · have hperforms : s.fresh.Performs room (.trap seat .timer trigger) _ :=
        performs_trap_standard (s := s.fresh) hstate htable trigger
      have hticks := ticks_step hperforms
      have hresolve : trigger.platform.resolve s.fresh.machine = none := hplatform
      rw [hresolve] at hticks
      exact hticks.trans (UInt64.add_zero _)
  case custom =>
    intro seat entry trigger hflat hconfined
    by_cases hstate : (s.dispatcher seat).state = .halted
    · exact hhalted seat entry trigger hstate
    · obtain ⟨actions, hactions, hkinds⟩ := Machine.Confined.exists_performs_of_flat
        (s.dispatcher seat).table room
        (hconfined (trigger.platform.resolve s.machine) (trigger.load s.fresh.machine)) (hflat _)
        (some .handling)
      have hcount : actions.countP Action.isTick = 0 := by
        rw [List.countP_eq_zero]
        exact fun action haction => by simp [hkinds action haction]
      have hticks := ticks_step (Performs.trap (s := s.fresh) hstate hactions)
      rw [List.countP_cons_of_neg (by simp [Action.isTick]), hcount] at hticks
      exact hticks.trans (UInt64.add_zero _)

/-- In every session, however deep its traps nest, the ticks are counted one by one as long as the
    counter does not wrap: it shows how many there were, and each of them bears the next number. -/
theorem ticks_run (room : Nat) (devices : Vector Device n) {ops : List (Op n)}
    (hops : ∀ op ∈ ops, op.Proper) :
    let s := (start devices).run room ops
    (∃ actions, (start devices).Runs room ops actions) ∧
      (∀ actions, (start devices).Runs room ops actions → actions.countP Action.isTick < 2 ^ 64 →
        s.machine.ticks.toNat = actions.countP Action.isTick ∧
          (Machine.start devices).tickNumbers actions =
            List.range' 1 (actions.countP Action.isTick) ∧
          ∀ k,
            let now := (Machine.start devices).acts (actions.take k)
            let count := (actions.take k).countP Action.isTick
            now.ticks.toNat = count ∧
              ∀ i, actions[k]? = some (.handle .timer (some i)) → now.Tick i (count + 1)) ∧
      s.CountsTicks room := by
  refine ⟨(proper_start devices).exists_runs room hops, fun actions hruns hcount => ?_,
    countsTicks room _⟩
  have hacts := hruns.acts []
  have hnone : (Machine.start devices).ticks = 0 := rfl
  have hticks := Machine.toNat_ticks_acts hcount hnone
  have hnumbers : (Machine.start devices).tickNumbers actions = List.range' (0 + 1) _ :=
    Machine.tickNumbers_eq_range ((Nat.zero_add _).trans_lt hcount)
  refine ⟨(congrArg (fun m => m.ticks.toNat) hacts).symm.trans hticks, hnumbers, fun k => ?_⟩
  exact ⟨Machine.toNat_ticks_acts_take hcount hnone k, fun i hi =>
    Machine.tick_acts_take hcount hnone hi⟩

/-- A session with a tick through the dispatcher for the traps of the hardware, a timer's
    interrupt that halts the own dispatcher, one that is refused, a tick by a direct call, and one
    that a handler called directly takes on the dispatcher at its hand. -/
def ticking (i j : Fin n) : List (Op n) :=
  [.call (.registerConsole (.recorder 0)), .call (.setFilter none), .call (.registerPlatform i),
    .call (.startTicking i), .trap .shared .timer ⟨.registered, none, none⟩,
    .call (.armTimeout 7), .trap .own .timer ⟨.absent, none, none⟩,
    .trap .own .timer ⟨.device j, none, none⟩,
    .invoke none (.entry .timer) ⟨.device j, none, none⟩,
    .invoke (some .shared) (.handler (Machine.nesting .timer .halt)) ⟨.registered, none, none⟩]

/-- What its operations perform, one after the other. -/
def tickingActions (i j : Fin n) : List (Action n) :=
  List.flatten [[.call (.registerConsole (.recorder 0))], [.call (.setFilter none)],
    [.call (.registerPlatform i)], [.call (.startTicking i)],
    [.load none none, .handle .timer (some i)], [.call (.armTimeout 7)],
    [.load none none, .handle .timer none], [.load none none],
    [.load none none, .handle .timer (some j)],
    [.load none none, .note (.nesting .timer (some .idle)), .handle .timer (some i),
      .note (.nested .resume (some .idle))]]

theorem runs_ticking (devices : Vector Device n) (i j : Fin n) :
    (start devices).Runs 1 (ticking i j) (tickingActions i j) := by
  refine .cons (.call _) (.cons (.call _) (.cons (.call _) (.cons (.call _) ?_)))
  refine .cons (.trap nofun (Machine.performs_standard _ _ _ _ _ _)) ?_
  refine .cons (.call _) ?_
  refine .cons (.trap nofun (Machine.performs_standard _ _ _ _ _ _)) ?_
  refine .cons (.halted rfl) ?_
  refine .cons (.invokeAlone (Machine.performs_standard _ _ _ _ _ _)) ?_
  have hidle : State.idle ≠ .halted := nofun
  exact .cons (.invoke (Machine.performs_nesting hidle _ (Machine.performs_standard _ _ _ _ _ _)))
    (.nil _)

/-- The tick by a direct call is counted and logged as the second one, and the one that nests in a
    direct call as the third. -/
theorem ticks_run_ticking :
    let devices : Vector Device 2 :=
      #v[⟨⟨0, 0⟩, ⟨.byte, 0⟩, 500⟩, ⟨⟨1000, 0⟩, ⟨.word, 0⟩, 500⟩]
    let before := (Machine.start devices).acts ((tickingActions 0 1).take 11)
    let later := (Machine.start devices).acts ((tickingActions 0 1).take 14)
    (∀ op ∈ (ticking 0 1 : List (Op 2)), op.Proper) ∧
      (tickingActions 0 1 : List (Action 2)).countP Action.isTick < 2 ^ 64 ∧
      ((start devices).run 1 (ticking 0 1)).machine.ticks.toNat = 3 ∧
      (before.act (.handle .timer (some 1))).events =
        before.events ++ .entered .timer (some 1) :: .armed 1 1500 ::
          (Log.lineBytes .trace ("tick " ++ toString 2)).map (.sent (.recorder 0)) ∧
      ((later.act (.handle .timer (some 0))).device 0).timer = ⟨0, 500⟩ := by
  intro devices before later
  have hproper : ∀ op ∈ (ticking 0 1 : List (Op 2)), op.Proper := by
    simpa [ticking, Op.Proper] using Machine.properHandler_nesting _ _
  have hcount : (tickingActions 0 1 : List (Action 2)).countP Action.isTick < 2 ^ 64 := by decide
  obtain ⟨-, hall, -⟩ := ticks_run 1 devices hproper
  obtain ⟨hticks, -, hmoment⟩ := hall _ (runs_ticking devices 0 1) hcount
  obtain ⟨-, htick⟩ := hmoment 11
  obtain ⟨-, hlater⟩ := hmoment 14
  exact ⟨hproper, hcount, hticks, (htick 1 rfl).line (.recorder 0) rfl rfl, (hlater 0 rfl).timer 0⟩

end Session

end HartRuntime
