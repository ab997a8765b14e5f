import Mathlib.Data.UInt
import HartRuntime.Machine.Handler
import HartRuntime.Proofs.Machine.Output
import HartRuntime.Proofs.Trap.Dispatch

namespace HartRuntime.Machine

open Trap

variable {n : Nat}

/-- A trap that a dispatcher with the standard handlers does not refuse is handled at once. -/
theorem dispatch_standard (room : Nat) (entry : Entry) (device : Option (Fin n)) {state : State}
    (hstate : state ≠ .halted) (m : Machine n) :
    dispatch standard room entry device state m =
      let handled := (m.record (.entered entry device)).handle entry device
      ⟨handled.1, .after handled.1, handled.2⟩ := by
  rw [dispatch_of_ne_halted _ _ _ _ hstate]
  rfl

theorem device_arm (i : Fin n) (period : UInt64) (m : Machine n) :
    (m.arm i period).device i =
      { m.device i with timer := (m.device i).timer.arm period } := by
  rw [device_arm_eq_elim, if_pos rfl]
  rfl

theorem device_setCounter (i : Fin n) (value : UInt64) (m : Machine n) :
    (m.setCounter i value).device i =
      { m.device i with timer := { (m.device i).timer with mtime := value } } := by
  have hdevice := device_updateDevice i i
    (fun device => { device with timer := { device.timer with mtime := value } }) m
  rw [if_pos rfl] at hdevice
  exact hdevice

/-- The timer's interrupt comes when the counter of a device has run past the deadline by
    some latency. -/
def lateTick (i : Fin n) (latency : UInt64) : Arrival (Option (Fin n)) (Machine n) where
  since m := m.setCounter i ((m.device i).timer.mtimecmp + latency)
  entry := .timer
  context := some i

/-- What has become of a machine that started to tick, after one timer interrupt for each
    latency. Only the latencies make its deadlines drift away from the multiples of the period. -/
structure Ticked (m : Machine n) (i : Fin n) (latencies : List UInt64) (after : Machine n) : Prop where
  deadline : (after.device i).timer.mtimecmp =
    (m.device i).timer.mtime + UInt64.ofNat (latencies.length + 1) * (m.device i).period +
      latencies.sum
  period : (after.device i).period = (m.device i).period
  ticks : after.ticks = UInt64.ofNat (m.ticks.toNat + latencies.length)
  returnAddress : after.returnAddress = m.returnAddress
  events : ∃ later, after.events = m.events ++
      .armed i ((m.device i).timer.mtime + (m.device i).period) ::
        .enabledTimer :: .enabledInterrupts :: later ∧
    .enabledTimer ∉ later ∧ .enabledInterrupts ∉ later

theorem ticked_startTicking (m : Machine n) (i : Fin n) : Ticked m i [] (m.startTicking i) where
  deadline := by
    have hdevice : (m.startTicking i).device i = (m.arm i (m.device i).period).device i := rfl
    rw [hdevice, device_arm]
    simp [Timer.arm, Timer.deadlineAfter]
  period := by
    have hdevice : (m.startTicking i).device i = (m.arm i (m.device i).period).device i := rfl
    rw [hdevice, device_arm]
  ticks := by
    show m.ticks = _
    simp
  returnAddress := rfl
  events := ⟨[], by simp [startTicking, arm, record, updateDevice, Timer.deadlineAfter], by simp, by simp⟩

theorem handleTick_eq (i : Fin n) (m : Machine n) :
    m.handleTick i =
      let count := UInt64.ofNat (m.ticks.toNat + 1)
      (.resume, emit (recorded m.filter .trace ("tick " ++ Numeral.text 10 count.toNat))
        { m.arm i (m.device i).period with ticks := count }) := by
  rw [handleTick, log_eq_emit]
  rfl

/-- Of the events of a tick only the new deadline is none that a console receives. -/
theorem events_handleTick (i : Fin n) (m : Machine n) :
    ∃ deadline sent, (m.handleTick i).2.events = m.events ++ .armed i deadline :: sent ∧
      ∀ event ∈ sent, ∃ console byte, event = .sent console byte := by
  rw [handleTick_eq, events_emit]
  refine ⟨(m.device i).timer.deadlineAfter (m.device i).period, deliveries _ _,
    List.append_assoc _ _ _, ?_⟩
  intro event hevent
  exact exists_sent_of_mem_deliveries hevent

/-- One late interrupt is handled, and the next deadline is armed from where the counter is. -/
theorem Ticked.next {m before : Machine n} {i : Fin n} {latencies : List UInt64}
    (h : Ticked m i latencies before) (latency : UInt64) :
    let found := (lateTick i latency).since before
    let handled := (found.record (.entered .timer (some i))).handle .timer (some i)
    handled.1 = .resume ∧ Ticked m i (latencies ++ [latency]) handled.2 := by
  intro found handled
  have hfound : found.device i =
      { before.device i with
        timer := { (before.device i).timer with mtime := (before.device i).timer.mtimecmp + latency } } :=
    device_setCounter i _ before
  have hperiod : (found.device i).period = (m.device i).period := by
    rw [hfound, h.period]
  have hhandled : handled = (found.record (.entered .timer (some i))).handleTick i := rfl
  rw [handleTick_eq] at hhandled
  rw [hhandled]
  refine ⟨rfl, ?_, ?_, ?_, ?_, ?_⟩
  · rw [timer_emit]
    show ((found.arm i (found.device i).period).device i).timer.mtimecmp = _
    rw [device_arm, hperiod, hfound]
    simp only [Timer.arm, Timer.deadlineAfter]
    rw [h.deadline, List.length_append, List.sum_append, List.length_singleton, List.sum_singleton,
      UInt64.ofNat_add (latencies.length + 1) 1]
    grind
  · rw [period_emit]
    show ((found.arm i (found.device i).period).device i).period = _
    rw [device_arm, hperiod]
  · rw [ticks_emit]
    show UInt64.ofNat (before.ticks.toNat + 1) = _
    rw [UInt64.ofNat_add, UInt64.ofNat_toNat, h.ticks, ← UInt64.ofNat_add, List.length_append,
      List.length_singleton, Nat.add_assoc]
  · rw [returnAddress_emit]
    exact h.returnAddress
  · obtain ⟨later, hlater, htimer, hinterrupts⟩ := h.events
    obtain ⟨deadline, sent, hevents, hsent⟩ :=
      events_handleTick i (found.record (.entered .timer (some i)))
    refine ⟨later ++ .entered .timer (some i) :: .armed i deadline :: sent, ?_, ?_, ?_⟩
    · have hrecorded : (found.record (.entered .timer (some i))).events =
          before.events ++ [.entered .timer (some i)] := rfl
      rw [← handleTick_eq, hevents, hrecorded, hlater]
      simp
    · have hother : .enabledTimer ∉ sent := fun hmem => by
        obtain ⟨_, _, h⟩ := hsent _ hmem
        cases h
      simp [htimer, hother]
    · have hother : .enabledInterrupts ∉ sent := fun hmem => by
        obtain ⟨_, _, h⟩ := hsent _ hmem
        cases h
      simp [hinterrupts, hother]

/-- The rest of a run in which a device has been ticking for a while. -/
theorem Ticked.takeAll {m before : Machine n} {i : Fin n} {done : List UInt64}
    (h : Ticked m i done before) {state : State} (hstate : state ≠ .halted) (room : Nat)
    (latencies : List UInt64) :
    ∀ k taken, (Dispatcher.takeAll ⟨standard, state⟩ room before
        (latencies.map (lateTick i)))[k]? = some taken →
      taken.outcome = .resume ∧ taken.state = .idle ∧
        Ticked m i (done ++ latencies.take (k + 1)) taken.left := by
  induction latencies generalizing before done state with
  | nil =>
    intro k taken htaken
    cases htaken
  | cons latency rest ih =>
    intro k taken htaken
    obtain ⟨hresume, hnext⟩ := h.next latency
    have hdispatch := dispatch_standard room .timer (some i) hstate ((lateTick i latency).since before)
    rw [List.map_cons, Dispatcher.takeAll_cons] at htaken
    cases k with
    | zero =>
      obtain rfl := Option.some.inj htaken
      simp only [lateTick] at hdispatch hresume hnext ⊢
      rw [hdispatch, hresume]
      exact ⟨rfl, rfl, hnext⟩
    | succ k =>
      rw [List.getElem?_cons_succ] at htaken
      simp only [lateTick] at hdispatch hresume hnext htaken
      rw [hdispatch, hresume] at htaken
      have hrest := ih hnext (show State.idle ≠ .halted by decide) k taken htaken
      rwa [List.append_assoc, List.singleton_append, ← List.take_succ_cons] at hrest

/-- However late its interrupts come, a machine that started to tick on a device handles each
    of them and goes on ticking: after the last of any number of interrupts it has come to what
    their latencies make of it. -/
theorem takeAll_lateTick (m : Machine n) (i : Fin n) (latencies : List UInt64) (room : Nat) :
    let takens := (Dispatcher.ofTable standard).takeAll room (m.startTicking i)
      (latencies.map (lateTick i))
    Ticked m i [] (m.startTicking i) ∧ takens.length = latencies.length ∧
      ∀ k taken, takens[k]? = some taken →
        taken.outcome = .resume ∧ taken.state = .idle ∧
          Ticked m i (latencies.take (k + 1)) taken.left := by
  refine ⟨ticked_startTicking m i, by rw [length_takeAll, List.length_map], ?_⟩
  exact (ticked_startTicking m i).takeAll (by decide) room latencies

end HartRuntime.Machine
