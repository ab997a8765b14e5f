import HartRuntime.Machine.Output
import HartRuntime.Proofs.Log.Line

namespace HartRuntime

variable {n : Nat}

/-- The bytes that a console receives, in the order in which it does. -/
def received (console : Console n) (events : List (Event n)) : List UInt8 :=
  events.filterMap fun
    | .sent other byte => if other = console then some byte else none
    | _ => none

theorem received_append (console : Console n) (first second : List (Event n)) :
    received console (first ++ second) = received console first ++ received console second :=
  List.filterMap_append

theorem Uart.transmit_append (uart : Uart) (first second : List UInt8) :
    uart.transmit (first ++ second) = (uart.transmit first).transmit second := by
  simp [transmit, stores]

namespace Machine

theorem device_updateDevice (i j : Fin n) (f : Device → Device) (m : Machine n) :
    (m.updateDevice i f).device j = if i = j then f (m.device i) else m.device j := by
  have hget (devices : Vector Device n) (k : Fin n) : devices.get k = devices[k.val] := rfl
  by_cases h : i = j
  · subst h
    rw [if_pos rfl, updateDevice, device, hget, Vector.getElem_set_self]
  · have hne : i.val ≠ j.val := fun hval => h (Fin.ext hval)
    rw [if_neg h, updateDevice, device, hget, Vector.getElem_set_ne _ _ hne]
    rfl

/-- Arming is for one timer, whose deadline it sets to lie a period behind the counter, and leaves
    everything else on the devices alone. -/
theorem device_arm_eq_elim (j i : Fin n) (period : UInt64) (m : Machine n) :
    (m.arm j period).device i =
      { m.device i with
        timer :=
          { (m.device i).timer with
            mtimecmp := (if j = i then some period else none).elim (m.device i).timer.mtimecmp
              fun period => (m.device i).timer.mtime + period } } := by
  have hdevice := device_updateDevice j i
    (fun device => { device with timer := device.timer.arm period }) m
  by_cases hij : j = i
  · subst hij
    rw [if_pos rfl] at hdevice ⊢
    exact hdevice
  · rw [if_neg hij] at hdevice ⊢
    exact hdevice

/-- What a console receives of bytes that are sent to it; nobody receives them without one. -/
def deliveries (console : Option (Console n)) (bytes : List UInt8) : List (Event n) :=
  match console with
  | none => []
  | some console => bytes.map (.sent console)

theorem exists_sent_of_mem_deliveries {console : Option (Console n)} {bytes : List UInt8}
    {event : Event n} (h : event ∈ deliveries console bytes) :
    ∃ console byte, event = .sent console byte := by
  cases console with
  | none => cases h
  | some console =>
    obtain ⟨byte, -, rfl⟩ := List.mem_map.mp h
    exact ⟨console, byte, rfl⟩

theorem received_deliveries (console : Console n) (registered : Option (Console n))
    (bytes : List UInt8) :
    received console (deliveries registered bytes) =
      if registered = some console then bytes else [] := by
  cases registered with
  | none => rfl
  | some other =>
    by_cases h : other = console
    · have hheard (byte : UInt8) : (if other = console then some byte else none) = some byte :=
        if_pos h
      rw [if_pos (congrArg some h), received, deliveries, List.filterMap_map]
      exact (congrArg (List.filterMap · bytes) (funext hheard)).trans List.filterMap_some
    · have hother : some other ≠ some console := fun heq => h (Option.some.inj heq)
      rw [if_neg hother]
      simp [received, deliveries, h]

/-- Sending bytes touches nothing but the UARTs and the events. -/
theorem emit_eq (bytes : List UInt8) (m : Machine n) :
    m.emit bytes =
      { m with
        devices := (m.emit bytes).devices
        events := m.events ++ deliveries m.console bytes } := by
  obtain ⟨devices, console, platform, filter, cause, returnAddress, ticks, events⟩ := m
  cases console with
  | none => simp [emit, deliveries]
  | some console => cases console <;> rfl

@[simp] theorem events_emit (bytes : List UInt8) (m : Machine n) :
    (m.emit bytes).events = m.events ++ deliveries m.console bytes := by
  rw [emit_eq]

@[simp] theorem console_emit (bytes : List UInt8) (m : Machine n) :
    (m.emit bytes).console = m.console := by
  rw [emit_eq]

@[simp] theorem filter_emit (bytes : List UInt8) (m : Machine n) :
    (m.emit bytes).filter = m.filter := by
  rw [emit_eq]

@[simp] theorem ticks_emit (bytes : List UInt8) (m : Machine n) :
    (m.emit bytes).ticks = m.ticks := by
  rw [emit_eq]

@[simp] theorem returnAddress_emit (bytes : List UInt8) (m : Machine n) :
    (m.emit bytes).returnAddress = m.returnAddress := by
  rw [emit_eq]

/-- The UART that is the console transmits the bytes; no other part of a device takes part. -/
theorem device_emit (bytes : List UInt8) (m : Machine n) (i : Fin n) :
    (m.emit bytes).device i =
      { m.device i with
        uart := (m.device i).uart.transmit (if m.console = some (.uart i) then bytes else []) } := by
  unfold emit
  cases hconsole : m.console with
  | none => rfl
  | some console =>
    cases console with
    | recorder id => rfl
    | uart j =>
      have hdevice := device_updateDevice j i
        (fun device => { device with uart := device.uart.transmit bytes }) m
      by_cases hij : j = i
      · subst hij
        rw [if_pos rfl] at hdevice ⊢
        exact hdevice
      · rw [if_neg hij] at hdevice
        rw [if_neg (by simpa using hij)]
        exact hdevice

@[simp] theorem timer_emit (bytes : List UInt8) (m : Machine n) (i : Fin n) :
    ((m.emit bytes).device i).timer = (m.device i).timer := by
  rw [device_emit]

@[simp] theorem period_emit (bytes : List UInt8) (m : Machine n) (i : Fin n) :
    ((m.emit bytes).device i).period = (m.device i).period := by
  rw [device_emit]

theorem updateDevice_device (i : Fin n) (m : Machine n) (f : Device → Device)
    (h : f (m.device i) = m.device i) : m.updateDevice i f = m := by
  have hset : m.devices.set i (m.device i) = m.devices := Vector.set_getElem_self i.isLt
  rw [updateDevice, h, hset]

theorem updateDevice_updateDevice (i : Fin n) (f g : Device → Device) (m : Machine n) :
    (m.updateDevice i f).updateDevice i g = m.updateDevice i fun device => g (f device) := by
  have hdevice := device_updateDevice i i f m
  rw [if_pos rfl] at hdevice
  rw [updateDevice, hdevice]
  simp only [updateDevice, Vector.set_set]

theorem transmit_append (console : Console n) (first second : List UInt8) (m : Machine n) :
    m.transmit console (first ++ second) = (m.transmit console first).transmit console second := by
  cases console with
  | recorder id => rfl
  | uart i =>
    simp only [transmit, updateDevice_updateDevice, Uart.transmit_append]

theorem emit_nil (m : Machine n) : m.emit [] = m := by
  obtain ⟨devices, console, platform, filter, cause, returnAddress, ticks, events⟩ := m
  cases console with
  | none => rfl
  | some console =>
    cases console with
    | recorder id => simp [emit, transmit]
    | uart i =>
      simp only [emit, transmit, List.map_nil, List.append_nil]
      rw [updateDevice_device i _ _ rfl]

theorem emit_append (first second : List UInt8) (m : Machine n) :
    m.emit (first ++ second) = (m.emit first).emit second := by
  obtain ⟨devices, console, platform, filter, cause, returnAddress, ticks, events⟩ := m
  cases console with
  | none => rfl
  | some console =>
    simp only [emit, transmit_append, List.map_append, ← List.append_assoc]
    cases console <;> rfl

/-- The bytes of a record, if the filter admits it. -/
def recorded (filter : Log.Filter) (level : Log.Level) (text : String) : List UInt8 :=
  if filter.admits level then Log.lineBytes level text else []

/-- The bytes of a report, which no filter holds back. -/
def reported (filter : Log.Filter) (message : String) : List UInt8 :=
  match filter with
  | .off => utf8 message ++ [10]
  | .upTo _ => Log.lineBytes .error message

theorem log_eq_emit (level : Log.Level) (text : String) (m : Machine n) :
    m.log level text = m.emit (recorded m.filter level text) := by
  unfold log recorded
  split
  · rw [Log.utf8_line]
  · exact (emit_nil m).symm

theorem report_eq_emit (message : String) (m : Machine n) :
    m.report message = m.emit (reported m.filter message) := by
  unfold report reported
  cases hfilter : m.filter with
  | off =>
    have hend : utf8 "\n" = [10] := by decide +kernel
    rw [if_pos rfl, utf8_append, hend]
  | upTo level =>
    have hadmits : m.filter.admits .error := by
      rw [hfilter]
      cases level <;> rfl
    rw [if_neg (by simp), log, if_pos hadmits, Log.utf8_line]

end Machine

end HartRuntime
