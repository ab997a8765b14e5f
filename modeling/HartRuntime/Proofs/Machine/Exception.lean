import HartRuntime.Proofs.Machine.Cadence

namespace HartRuntime

namespace Trap

/-- An exception is found by its own number and by no other. -/
theorem Exception.ofCode_eq_ok_iff {bits : UInt64} {known : Exception} :
    ofCode bits = .ok known ↔ known.code = bits := by
  constructor
  · intro h
    unfold ofCode at h
    split at h
    · next found hfound =>
      obtain rfl := Except.ok.inj h
      simpa using List.find?_some hfound
    · cases h
  · rintro rfl
    cases known <;> rfl

theorem Exception.code_lt_interruptBit (known : Exception) :
    known.code < Cause.interruptBit := by
  cases known <;> decide

/-- A cause word is a known exception if it is the number of one. An interrupt never is. -/
theorem Cause.ofBits_eq_exception_iff {bits : UInt64} {known : Exception} :
    ofBits bits = .exception known ↔ known.code = bits := by
  unfold ofBits
  by_cases hinterrupt : interruptBit ≤ bits
  · rw [if_pos hinterrupt]
    constructor
    · nofun
    · rintro rfl
      exact absurd known.code_lt_interruptBit (UInt64.not_lt.mpr hinterrupt)
  · rw [if_neg hinterrupt, ← Exception.ofCode_eq_ok_iff]
    cases hcode : Exception.ofCode bits with
    | ok found => simp
    | error => simp

theorem Cause.ofBits_eq_unknown_iff {bits raw : UInt64} :
    ofBits bits = .unknown raw ↔ raw = bits ∧ ∀ known : Exception, known.code ≠ bits := by
  have hknown (known : Exception) : known.code ≠ bits ↔ ofBits bits ≠ .exception known :=
    not_congr ofBits_eq_exception_iff.symm
  simp only [hknown]
  unfold ofBits
  split
  · simp [eq_comm]
  · split <;> simp [eq_comm]

/-- The known exceptions bear the numbers up to seven, and eleven. -/
theorem Exception.exists_code_eq_iff {bits : UInt64} :
    (∃ known : Exception, known.code = bits) ↔ bits ≤ 7 ∨ bits = 11 := by
  constructor
  · rintro ⟨known, rfl⟩
    cases known <;> decide
  · rintro (hfault | rfl)
    · have hsmall : bits.toNat < 8 := Nat.lt_succ_of_le (UInt64.le_iff_toNat_le.mp hfault)
      have hcodes : ∀ i : Fin 8, (all.map code)[i.val]? = some (UInt64.ofNat i) := by decide
      have hmem := List.mem_of_getElem? (hcodes ⟨bits.toNat, hsmall⟩)
      rw [UInt64.ofNat_toNat] at hmem
      obtain ⟨known, -, hknown⟩ := List.mem_map.mp hmem
      exact ⟨known, hknown⟩
    · exact ⟨.machineEnvCall, rfl⟩

/-- The world that a sequence of traps leaves. -/
def leaves {World : Type} (world : World) (takens : List (Taken World)) : World :=
  takens.getLast?.elim world Taken.left

theorem leaves_cons {World : Type} (world : World) (taken : Taken World)
    (rest : List (Taken World)) : leaves world (taken :: rest) = leaves taken.left rest := by
  unfold leaves
  cases rest with
  | nil => rfl
  | cons next rest => rw [List.getLast?_cons_cons]; rfl

end Trap

namespace Machine

open Trap

variable {n : Nat}

/-- How the standard handler ends an exception. Whatever else the machine is like, it reads the
    cause once; only for a call of the environment does it touch the return address, and only
    the return address. -/
structure Excepted (m : Machine n) (device : Option (Fin n)) (ended : Outcome × Machine n) :
    Prop where
  call : m.cause = 11 → ended = (.resume, { m with
    returnAddress := m.returnAddress + 4
    events := m.events ++ [.entered .exception device, .readCause, .readReturn,
      .wroteReturn (m.returnAddress + 4)] })
  fault : m.cause ≤ 7 → ended = (.resume, { m with
    events := m.events ++ [.entered .exception device, .readCause] })
  unknown : 7 < m.cause → m.cause ≠ 11 → ended = (.halt, { m with
    events := m.events ++ [.entered .exception device, .readCause] })

theorem excepted_handle (m : Machine n) (device : Option (Fin n)) :
    Excepted m device ((m.record (.entered .exception device)).handle .exception device) := by
  refine ⟨fun hcall => ?_, fun hfault => ?_, fun hhigh hother => ?_⟩
  · have hcause : Cause.ofBits m.cause = .exception .machineEnvCall :=
      Cause.ofBits_eq_exception_iff.mpr hcall.symm
    simp [handle, handleException, record, hcause, callWidth]
  · obtain ⟨known, hknown⟩ := Exception.exists_code_eq_iff.mpr (.inl hfault)
    have hcause := Cause.ofBits_eq_exception_iff.mpr hknown
    rw [← hknown] at hfault
    cases known with
    | machineEnvCall => exact absurd hfault (by decide)
    | _ => simp [handle, handleException, record, hcause]
  · have hnone : ∀ known : Exception, known.code ≠ m.cause := by
      intro known hknown
      rcases Exception.exists_code_eq_iff.mp ⟨known, hknown⟩ with hfault | hcall
      · exact absurd hhigh (UInt64.not_lt.mpr hfault)
      · exact hother hcall
    have hcause := Cause.ofBits_eq_unknown_iff.mpr ⟨rfl, hnone⟩
    simp [handle, handleException, record, hcause]

/-- Whether the program goes on after an exception. -/
def resumes (cause : UInt64) : Bool :=
  cause ≤ 7 || cause == 11

namespace Excepted

variable {m : Machine n} {device : Option (Fin n)} {ended : Outcome × Machine n}

theorem outcome_eq (h : Excepted m device ended) :
    ended.1 = if resumes m.cause then .resume else .halt := by
  by_cases hcall : m.cause = 11
  · rw [h.call hcall, if_pos (by simp [resumes, hcall])]
  · by_cases hfault : m.cause ≤ 7
    · rw [h.fault hfault, if_pos (by simp [resumes, hfault])]
    · rw [h.unknown (UInt64.not_le.mp hfault) hcall, if_neg (by simp [resumes, hfault, hcall])]

theorem returnAddress_eq (h : Excepted m device ended) :
    ended.2.returnAddress = m.returnAddress + if m.cause = 11 then 4 else 0 := by
  by_cases hcall : m.cause = 11
  · rw [h.call hcall, if_pos hcall]
  · rw [if_neg hcall, UInt64.add_zero]
    by_cases hfault : m.cause ≤ 7
    · rw [h.fault hfault]
    · rw [h.unknown (UInt64.not_le.mp hfault) hcall]

end Excepted

/-- The hardware takes an exception: it loads the cause first. -/
def exception (cause : UInt64) (device : Option (Fin n)) : Arrival (Option (Fin n)) (Machine n) where
  since m := { m with cause := cause }
  entry := .exception
  context := device

theorem dispatch_exception (room : Nat) {state : State} (hstate : state ≠ .halted) (cause : UInt64)
    (device : Option (Fin n)) (m : Machine n) :
    ∃ after : Machine n,
      after.returnAddress = m.returnAddress + (if cause = 11 then 4 else 0) ∧
      dispatch standard room (exception cause device).entry (exception cause device).context state
        ((exception cause device).since m) =
          if resumes cause then ⟨.resume, .idle, after⟩ else ⟨.halt, .halted, after⟩ := by
  have hexcepted := excepted_handle ((exception cause device).since m) device
  have houtcome : _ = if resumes cause then Outcome.resume else .halt := hexcepted.outcome_eq
  refine ⟨_, hexcepted.returnAddress_eq, (dispatch_standard room .exception device hstate _).trans ?_⟩
  dsimp only
  rw [houtcome]
  cases resumes cause <;> rfl

/-- Exceptions that a halted dispatcher refuses leave the return address alone. -/
theorem returnAddress_leaves_of_halted (room : Nat) (traps : List (UInt64 × Option (Fin n)))
    (m : Machine n) :
    (leaves m (Dispatcher.takeAll ⟨standard, .halted⟩ room m
      (traps.map fun trap => exception trap.1 trap.2))).returnAddress = m.returnAddress := by
  induction traps generalizing m with
  | nil => rfl
  | cons trap rest ih =>
    rw [List.map_cons, Dispatcher.takeAll_cons, leaves_cons, dispatch_of_halted]
    exact ih _

/-- Every call of the environment moves the return address behind one more instruction, until
    an exception halts the dispatcher. -/
theorem returnAddress_leaves (room : Nat) (traps : List (UInt64 × Option (Fin n))) {state : State}
    (hstate : state ≠ .halted) (m : Machine n) :
    (leaves m (Dispatcher.takeAll ⟨standard, state⟩ room m
      (traps.map fun trap => exception trap.1 trap.2))).returnAddress =
      m.returnAddress + UInt64.ofNat (4 * ((traps.map Prod.fst).takeWhile resumes).count 11) := by
  induction traps generalizing state m with
  | nil => exact (UInt64.add_zero _).symm
  | cons trap rest ih =>
    obtain ⟨after, haddress, hdispatch⟩ := dispatch_exception room hstate trap.1 trap.2 m
    rw [List.map_cons, Dispatcher.takeAll_cons, leaves_cons, hdispatch, List.map_cons]
    by_cases hresumes : resumes trap.1
    · -- The dispatcher is idle again, which is no less than the induction asks for.
      have hidle : State.idle ≠ .halted := nofun
      rw [if_pos hresumes, ih hidle after, haddress, List.takeWhile_cons_of_pos hresumes,
        List.count_cons, UInt64.add_assoc, Nat.mul_add, UInt64.ofNat_add, UInt64.add_comm (UInt64.ofNat _)]
      by_cases hcall : trap.1 = 11 <;> simp [hcall]
    · have hother : trap.1 ≠ 11 := by
        intro hcall
        exact hresumes (by rw [hcall]; rfl)
      rw [if_neg hresumes, returnAddress_leaves_of_halted, haddress, if_neg hother,
        List.takeWhile_cons_of_neg hresumes]
      rfl

/-- No interrupt is taken for an exception to go on from. -/
theorem resumes_eq_false_of_interrupt {cause : UInt64} (h : Cause.interruptBit ≤ cause) :
    resumes cause = false := by
  have hbit : Cause.interruptBit.toNat ≤ cause.toNat := UInt64.le_iff_toNat_le.mp h
  have hfault : ¬ cause ≤ 7 := fun hle =>
    absurd (hbit.trans (UInt64.le_iff_toNat_le.mp hle)) (by decide)
  have hcall : cause ≠ 11 := by
    rintro rfl
    exact absurd hbit (by decide)
  simp [resumes, hfault, hcall]

/-- Wherever the standard handler of exceptions runs, the cause decides what it does, and it
    does nothing else; how it ends and where the program goes on depend on the cause and the
    return address alone. A dispatcher that takes nothing but exceptions therefore moves the
    return address by one instruction for each call of the environment before the first
    exception that halts it, or for all of them if none does. -/
theorem excepted_standard (m : Machine n) :
    (∀ room nested state device,
      Excepted m device ((standard .exception device).run room nested state m)) ∧
    (Cause.interruptBit ≤ m.cause → ∀ room nested state device,
      ((standard .exception device).run room nested state m).1 = .halt) ∧
    (∀ (k : Nat) (other : Machine k), other.cause = m.cause →
      other.returnAddress = m.returnAddress →
        ∀ room nested state device room' nested' state' device',
          let ended := (standard .exception device).run room nested state m
          let ended' := (standard .exception device').run room' nested' state' other
          ended'.1 = ended.1 ∧ ended'.2.returnAddress = ended.2.returnAddress) ∧
    ∀ room (traps : List (UInt64 × Option (Fin n))),
      (leaves m ((Dispatcher.ofTable standard).takeAll room m
        (traps.map fun trap => exception trap.1 trap.2))).returnAddress.toNat =
        (m.returnAddress.toNat +
          4 * ((traps.map Prod.fst).takeWhile resumes).count 11) % 2 ^ 64 := by
  refine ⟨fun _ _ _ device => excepted_handle m device, ?_, ?_, ?_⟩
  · intro hinterrupt _ _ _ device
    have houtcome := (excepted_handle m device).outcome_eq
    rw [resumes_eq_false_of_interrupt hinterrupt] at houtcome
    exact houtcome
  · intro k other hcause haddress _ _ _ device _ _ _ device' ended ended'
    have hended : Excepted m device ended := excepted_handle m device
    have hended' : Excepted other device' ended' := excepted_handle other device'
    constructor
    · rw [hended.outcome_eq, hended'.outcome_eq, hcause]
    · rw [hended.returnAddress_eq, hended'.returnAddress_eq, hcause, haddress]
  · intro room traps
    have hidle : State.idle ≠ .halted := nofun
    have hleaves := returnAddress_leaves room traps hidle m
    rw [Dispatcher.ofTable, hleaves, UInt64.toNat_add, UInt64.toNat_ofNat', Nat.add_mod_mod]

end Machine

end HartRuntime
