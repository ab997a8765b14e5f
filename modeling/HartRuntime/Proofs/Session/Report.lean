import HartRuntime.Proofs.Machine.Cadence
import HartRuntime.Proofs.Session.Output
import HartRuntime.Proofs.Trap.Sequence

namespace HartRuntime

namespace Trap

variable {Context World : Type}

/-- The trap of a sequence after which the dispatcher is halted for the first time, if there is
    one, and what came of it. -/
def firstHalt (arrivals : List (Arrival Context World)) (takens : List (Taken World)) :
    Option (Arrival Context World × Taken World) :=
  (arrivals.zip takens).find? fun trap => trap.2.state = .halted

theorem firstHalt_cons_of_halted {taken : Taken World} (h : taken.state = .halted)
    (arrival : Arrival Context World) (arrivals : List (Arrival Context World))
    (takens : List (Taken World)) :
    firstHalt (arrival :: arrivals) (taken :: takens) = some (arrival, taken) :=
  List.find?_cons_of_pos (decide_eq_true h)

theorem firstHalt_cons_of_ne_halted {taken : Taken World} (h : taken.state ≠ .halted)
    (arrival : Arrival Context World) (arrivals : List (Arrival Context World))
    (takens : List (Taken World)) :
    firstHalt (arrival :: arrivals) (taken :: takens) = firstHalt arrivals takens :=
  List.find?_cons_of_neg (by simpa using h)

end Trap

namespace Machine

open Trap

variable {n : Nat}

/-- Why the standard handler of an entry gives up, with a platform or without one. The
    exceptions say nothing, and with a platform the timer does not give up. -/
def complaint : (entry : Entry) → (hasPlatform : Bool) → Option String
  | .nmi, _ => some "unexpected non-maskable interrupt"
  | .exception, _ => none
  | .software, _ => some "unexpected machine software interrupt"
  | .timer, false => some "timer interrupt without a platform"
  | .timer, true => none
  | .external, _ => some "unexpected machine external interrupt"

theorem handle_of_complaint {entry : Entry} {device : Option (Fin n)} {message : String}
    (h : complaint entry device.isSome = some message) (m : Machine n) :
    m.handle entry device = (.halt, m.report message) := by
  cases entry with
  | exception => cases h
  | timer =>
    cases device with
    | none =>
      obtain rfl := Option.some.inj h
      rfl
    | some i => cases h
  | nmi | software | external =>
    obtain rfl := Option.some.inj h
    rfl

/-- Only the handler of the exceptions gives up without a word. -/
theorem exists_complaint_of_halt {entry : Entry} {device : Option (Fin n)} {m : Machine n}
    (hhalt : (m.handle entry device).1 = .halt) (hentry : entry ≠ .exception) :
    ∃ message, complaint entry device.isSome = some message := by
  cases entry with
  | exception => exact absurd rfl hentry
  | timer =>
    cases device with
    | none => exact ⟨_, rfl⟩
    | some i => cases hhalt
  | nmi | software | external => exact ⟨_, rfl⟩

/-- The bytes of a report: that of some standard handler, bare or as an error's record. -/
def IsReport (bytes : List UInt8) : Prop :=
  ∃ entry hasPlatform message filter,
    complaint entry hasPlatform = some message ∧ bytes = reported filter message

theorem reported_ne_nil (filter : Log.Filter) (message : String) : reported filter message ≠ [] := by
  cases filter with
  | off => exact List.append_ne_nil_of_right_ne_nil _ (List.cons_ne_nil _ _)
  | upTo level => exact List.append_ne_nil_of_right_ne_nil _ (List.cons_ne_nil _ _)

/-- How a standard handler gives up: it halts, and all that it does besides is to say why, once
    and on the console, as a line by itself while the filter is off and as an error's record
    otherwise. -/
structure GivesUp (m : Machine n) (entry : Entry) (device : Option (Fin n)) (message : String)
    (ended : Outcome × Machine n) : Prop where
  outcome : ended.1 = .halt
  bare (console : Console n) : m.console = some console → m.filter = .off →
    ended.2.events =
      m.events ++ .entered entry device :: (utf8 message ++ [10]).map (.sent console)
  logged (console : Console n) : m.console = some console → m.filter ≠ .off →
    ended.2.events =
      m.events ++ .entered entry device :: (Log.lineBytes .error message).map (.sent console)
  unheard : m.console = none → ended.2 = m.record (.entered entry device)

theorem givesUp_handle {entry : Entry} {device : Option (Fin n)} {message : String}
    (h : complaint entry device.isSome = some message) (m : Machine n) :
    GivesUp m entry device message ((m.record (.entered entry device)).handle entry device) := by
  have hevents : ((m.record (.entered entry device)).report message).events =
      m.events ++ [.entered entry device] ++ deliveries m.console (reported m.filter message) := by
    rw [report_eq_emit, events_emit]
    rfl
  rw [handle_of_complaint h]
  refine ⟨rfl, ?_, ?_, ?_⟩
  · intro console hconsole hfilter
    rw [hevents, hconsole, hfilter, List.append_assoc]
    rfl
  · intro console hconsole hfilter
    cases hlevel : m.filter with
    | off => exact absurd hlevel hfilter
    | upTo level =>
      rw [hevents, hconsole, hlevel, List.append_assoc]
      rfl
  · intro hconsole
    have hnobody : (m.record (.entered entry device)).console = none := hconsole
    rw [report_eq_emit, emit, hnobody]

/-- Below the level of the ticks nothing is printed but complaints. -/
theorem printed_handle {m : Machine n} (h : m.filter.rank ≤ Log.Level.debug.rank) (entry : Entry)
    (device : Option (Fin n)) :
    Action.printed m (.handle entry device) =
      (complaint entry device.isSome).elim [] (reported m.filter) := by
  cases entry with
  | timer =>
    cases device with
    | none => rfl
    | some i =>
      have hlow : m.filter.admits .trace = false :=
        decide_eq_false (Nat.not_le.mpr (Nat.lt_succ_of_le h))
      exact if_neg (by rw [hlow]; exact Bool.false_ne_true)
  | nmi | exception | software | external => rfl

/-- The bytes that a console receives in the course of one dispatch. -/
def heard (console : Console n) (taken : Taken (Machine n)) : List UInt8 :=
  received console (taken.left.events.drop taken.found.events.length)

theorem heard_of_refused (console : Console n) {taken : Taken (Machine n)}
    (h : taken.left = taken.found) : heard console taken = [] := by
  rw [heard, h, List.drop_length]
  rfl

theorem heard_of_act (console : Console n) {taken : Taken (Machine n)} {action : Action n}
    (h : taken.left = taken.found.act action) :
    heard console taken =
      if taken.found.console = some console then action.printed taken.found else [] := by
  have hevents := events_act action taken.found
  have hreceived := received_act console action taken.found
  rw [hevents, received_append] at hreceived
  rw [heard, h, hevents, List.drop_left]
  exact List.append_cancel_left hreceived

/-- The first trap of a sequence is handled, unless the dispatcher is halted. -/
theorem takeAll_standard_cons (room : Nat) {state : State} (hstate : state ≠ .halted)
    (arrival : Arrival (Option (Fin n)) (Machine n))
    (rest : List (Arrival (Option (Fin n)) (Machine n))) (m : Machine n) :
    ∃ taken : Taken (Machine n),
      Dispatcher.takeAll ⟨standard, state⟩ room m (arrival :: rest) =
        taken :: Dispatcher.takeAll ⟨standard, taken.state⟩ room taken.left rest ∧
      taken.left = taken.found.act (.handle arrival.entry arrival.context) ∧
      taken.state = .after ((taken.found.record (.entered arrival.entry arrival.context)).handle
        arrival.entry arrival.context).1 := by
  rw [Dispatcher.takeAll_cons, dispatch_standard room _ _ hstate]
  exact ⟨_, rfl, rfl, rfl⟩

/-- A dispatch with the standard handlers is refused or comes to the handler of its entry. -/
theorem left_takeAll_standard (room : Nat) (state : State)
    (arrivals : List (Arrival (Option (Fin n)) (Machine n))) (m : Machine n) :
    ∀ taken ∈ Dispatcher.takeAll ⟨standard, state⟩ room m arrivals,
      taken.left = taken.found ∨
        ∃ entry device, taken.left = taken.found.act (.handle entry device) := by
  induction arrivals generalizing state m with
  | nil => simp [Dispatcher.takeAll]
  | cons arrival rest ih =>
    by_cases hstate : state = .halted
    · intro taken htaken
      rw [hstate] at htaken
      exact .inl (takeAll_of_halted standard room _ m taken htaken).2.2
    · obtain ⟨first, htakens, hleft, -⟩ := takeAll_standard_cons room hstate arrival rest m
      rw [htakens]
      exact List.forall_mem_cons.mpr ⟨.inr ⟨_, _, hleft⟩, ih _ _⟩

/-- What the console hears of a sequence of traps: why the dispatcher halted, unless it did not
    or it was an exception that halted it. -/
structure Told (console : Console n) (arrivals : List (Arrival (Option (Fin n)) (Machine n)))
    (takens : List (Taken (Machine n))) : Prop where
  unhalted : firstHalt arrivals takens = none → takens.flatMap (heard console) = []
  exception (arrival : Arrival (Option (Fin n)) (Machine n)) (taken : Taken (Machine n)) :
    firstHalt arrivals takens = some (arrival, taken) → arrival.entry = .exception →
      takens.flatMap (heard console) = []
  report (arrival : Arrival (Option (Fin n)) (Machine n)) (taken : Taken (Machine n)) :
    firstHalt arrivals takens = some (arrival, taken) → arrival.entry ≠ .exception →
      ∃ message, complaint arrival.entry arrival.context.isSome = some message ∧
        takens.flatMap (heard console) = reported taken.found.filter message

variable {console : Console n} {arrival : Arrival (Option (Fin n)) (Machine n)}
  {rest : List (Arrival (Option (Fin n)) (Machine n))} {taken : Taken (Machine n)}
  {takens : List (Taken (Machine n))}

theorem told_nil : Told console ([] : List (Arrival (Option (Fin n)) (Machine n))) [] where
  unhalted _ := rfl
  exception _ _ hsome := by cases hsome
  report _ _ hsome := by cases hsome

/-- A trap that neither halts the dispatcher nor is heard of changes nothing. -/
theorem Told.cons (h : Told console rest takens) (hstate : taken.state ≠ .halted)
    (hheard : heard console taken = []) : Told console (arrival :: rest) (taken :: takens) := by
  have hfirst := firstHalt_cons_of_ne_halted hstate arrival rest takens
  have hall : (taken :: takens).flatMap (heard console) = takens.flatMap (heard console) := by
    rw [List.flatMap_cons, hheard, List.nil_append]
  refine ⟨?_, ?_, ?_⟩
  · rw [hfirst, hall]
    exact h.unhalted
  · rw [hfirst, hall]
    exact h.exception
  · rw [hfirst, hall]
    exact h.report

/-- Behind the trap that halts the dispatcher there is nothing to be heard. -/
theorem told_of_halted (hstate : taken.state = .halted)
    (hrest : ∀ later ∈ takens, heard console later = [])
    (hheard : heard console taken =
      (complaint arrival.entry arrival.context.isSome).elim [] (reported taken.found.filter))
    (hmessage : arrival.entry ≠ .exception →
      ∃ message, complaint arrival.entry arrival.context.isSome = some message) :
    Told console (arrival :: rest) (taken :: takens) := by
  have hfirst := firstHalt_cons_of_halted hstate arrival rest takens
  have hall : (taken :: takens).flatMap (heard console) =
      (complaint arrival.entry arrival.context.isSome).elim [] (reported taken.found.filter) := by
    rw [List.flatMap_cons, List.flatMap_eq_nil_iff.mpr hrest, List.append_nil, hheard]
  refine ⟨?_, ?_, ?_⟩
  · intro hnone
    rw [hfirst] at hnone
    cases hnone
  · intro _ _ hsome hentry
    rw [hfirst] at hsome
    cases hsome
    rw [hall, hentry]
    rfl
  · intro _ _ hsome hentry
    rw [hfirst] at hsome
    cases hsome
    obtain ⟨message, hcomplaint⟩ := hmessage hentry
    refine ⟨message, hcomplaint, ?_⟩
    rw [hall, hcomplaint, Option.elim_some]

theorem told_takeAll (room : Nat) {state : State} (hstate : state ≠ .halted)
    (arrivals : List (Arrival (Option (Fin n)) (Machine n))) (m : Machine n)
    (hregistered : ∀ taken ∈ Dispatcher.takeAll ⟨standard, state⟩ room m arrivals,
      taken.found.console = some console)
    (hquiet : ∀ taken ∈ Dispatcher.takeAll ⟨standard, state⟩ room m arrivals,
      taken.found.filter.rank ≤ Log.Level.debug.rank) :
    Told console arrivals (Dispatcher.takeAll ⟨standard, state⟩ room m arrivals) := by
  induction arrivals generalizing state m with
  | nil => exact told_nil
  | cons arrival rest ih =>
    obtain ⟨taken, htakens, hleft, hafter⟩ := takeAll_standard_cons room hstate arrival rest m
    rw [htakens] at hregistered hquiet ⊢
    obtain ⟨hconsole, hregistered⟩ := List.forall_mem_cons.mp hregistered
    obtain ⟨hfilter, hquiet⟩ := List.forall_mem_cons.mp hquiet
    have hheard : heard console taken =
        (complaint arrival.entry arrival.context.isSome).elim [] (reported taken.found.filter) := by
      rw [heard_of_act console hleft, if_pos hconsole, printed_handle hfilter]
    by_cases hhalted : taken.state = .halted
    · -- From here on every trap is refused.
      rw [hhalted]
      refine told_of_halted hhalted (fun later hlater => ?_) hheard (fun hentry => ?_)
      · exact heard_of_refused console (takeAll_of_halted standard room rest _ later hlater).2.2
      · rw [hafter, State.after_eq_halted] at hhalted
        exact exists_complaint_of_halt hhalted hentry
    · -- Whoever complains has halted the dispatcher, so that there was no complaint.
      have hnothing : complaint arrival.entry arrival.context.isSome = none := by
        cases hcomplaint : complaint arrival.entry arrival.context.isSome with
        | none => rfl
        | some message =>
          rw [hafter, handle_of_complaint hcomplaint] at hhalted
          exact absurd rfl hhalted
      rw [hnothing] at hheard
      exact (ih hhalted taken.left hregistered hquiet).cons hhalted hheard

theorem Told.nil_or_isReport {arrivals : List (Arrival (Option (Fin n)) (Machine n))}
    (h : Told console arrivals takens) :
    takens.flatMap (heard console) = [] ∨ IsReport (takens.flatMap (heard console)) := by
  cases hfirst : firstHalt arrivals takens with
  | none => exact .inl (h.unhalted hfirst)
  | some trap =>
    obtain ⟨arrival, taken⟩ := trap
    by_cases hentry : arrival.entry = .exception
    · exact .inl (h.exception arrival taken hfirst hentry)
    · obtain ⟨message, hcomplaint, hreport⟩ := h.report arrival taken hfirst hentry
      exact .inr ⟨_, _, message, _, hcomplaint, hreport⟩

theorem Told.isReport_iff {arrivals : List (Arrival (Option (Fin n)) (Machine n))}
    (h : Told console arrivals takens) :
    IsReport (takens.flatMap (heard console)) ↔
      ∃ arrival taken, firstHalt arrivals takens = some (arrival, taken) ∧
        arrival.entry ≠ .exception := by
  constructor
  · rintro ⟨_, _, message, filter, -, hreport⟩
    have hsome : takens.flatMap (heard console) ≠ [] := by
      rw [hreport]
      exact reported_ne_nil filter message
    cases hfirst : firstHalt arrivals takens with
    | none => exact absurd (h.unhalted hfirst) hsome
    | some trap =>
      refine ⟨trap.1, trap.2, rfl, fun hentry => hsome ?_⟩
      exact h.exception trap.1 trap.2 hfirst hentry
  · rintro ⟨arrival, taken, hfirst, hentry⟩
    obtain ⟨message, hcomplaint, hreport⟩ := h.report arrival taken hfirst hentry
    exact ⟨_, _, message, _, hcomplaint, hreport⟩

/-- A standard handler that gives up with a message says it in one report, however the console
    and the filter have come to be what they are. While there is a console, and ticks are not
    logged, a dispatcher with the standard handlers is heard of at most once: when anything but
    an exception halts it. -/
theorem reports_standard (m : Machine n) :
    (∀ entry (device : Option (Fin n)) message, complaint entry device.isSome = some message →
      ∀ room nested state,
        GivesUp m entry device message ((standard entry device).run room nested state m)) ∧
    ∀ room arrivals console,
      let takens := (Dispatcher.ofTable standard).takeAll room m arrivals
      let output := takens.flatMap (heard console)
      (∀ taken ∈ takens, taken.found.console = some console ∧
        taken.found.filter.rank ≤ Log.Level.debug.rank) →
          (output = [] ∨ IsReport output) ∧
          (IsReport output ↔ ∃ arrival taken, firstHalt arrivals takens = some (arrival, taken) ∧
            arrival.entry ≠ .exception) ∧
          Told console arrivals takens ∧
          (∀ other, other ≠ console → takens.flatMap (heard other) = []) ∧
          ∀ taken ∈ takens, taken.found.events <+: taken.left.events := by
  refine ⟨fun _ _ _ hcomplaint _ _ _ => givesUp_handle hcomplaint m, ?_⟩
  intro room arrivals console takens output htakens
  have hidle : State.idle ≠ .halted := nofun
  have htold : Told console arrivals takens := told_takeAll room hidle arrivals m
    (fun taken htaken => (htakens taken htaken).1) (fun taken htaken => (htakens taken htaken).2)
  have hleft : ∀ taken ∈ takens, taken.left = taken.found ∨
      ∃ entry device, taken.left = taken.found.act (.handle entry device) :=
    left_takeAll_standard room .idle arrivals m
  refine ⟨htold.nil_or_isReport, htold.isReport_iff, htold, ?_, ?_⟩
  · intro other hother
    refine List.flatMap_eq_nil_iff.mpr fun taken htaken => ?_
    rcases hleft taken htaken with hrefused | ⟨entry, device, hhandled⟩
    · exact heard_of_refused other hrefused
    · have hconsole : taken.found.console ≠ some other := by
        rw [(htakens taken htaken).1]
        exact fun h => hother (Option.some.inj h).symm
      rw [heard_of_act other hhandled, if_neg hconsole]
  · intro taken htaken
    rcases hleft taken htaken with hrefused | ⟨entry, device, hhandled⟩
    · rw [hrefused]
    · rw [hhandled, events_act]
      exact List.prefix_append _ _

/-- After an exception that is retried and a tick, the first interrupt that halts is reported with
    the colour of an error, and what comes later is refused in silence. With the filter off the
    report is bare. -/
theorem reports_standard_halted :
    let console : Console 1 := .recorder 0
    let m : Machine 1 :=
      { start #v[⟨⟨0, 0⟩, ⟨.byte, 0⟩, 500⟩] with console := some console, filter := .upTo .warn }
    let arrivals : List (Arrival (Option (Fin 1)) (Machine 1)) :=
      [⟨id, .exception, none⟩, ⟨id, .timer, some 0⟩, ⟨id, .software, none⟩, ⟨id, .nmi, none⟩]
    let takens := (Dispatcher.ofTable standard).takeAll 2 m arrivals
    (∀ taken ∈ takens, taken.found.console = some console ∧
        taken.found.filter.rank ≤ Log.Level.debug.rank) ∧
      takens.flatMap (heard console) =
        [27, 91] ++ utf8 Log.Level.error.colour ++ utf8 "m[ERROR] " ++
          utf8 "unexpected machine software interrupt" ++ [27, 91, 48, 109, 10] ∧
      complaint .timer (none : Option (Fin 1)).isSome = some "timer interrupt without a platform" ∧
      ((standard .timer none).run 2 .refused none { m with filter := .off }).2.events =
        .entered .timer none :: (utf8 "timer interrupt without a platform\n").map (.sent console) := by
  intro console m arrivals takens
  have htakens : ∀ taken ∈ takens, taken.found.console = some console ∧
      taken.found.filter.rank ≤ Log.Level.debug.rank := by
    refine List.forall_mem_cons.mpr ⟨⟨rfl, by decide⟩, List.forall_mem_cons.mpr ⟨⟨rfl, by decide⟩,
      List.forall_mem_cons.mpr ⟨⟨rfl, by decide⟩, List.forall_mem_cons.mpr ⟨⟨rfl, by decide⟩, ?_⟩⟩⟩⟩
    exact List.forall_mem_nil _
  have hcomplaint : complaint .timer (none : Option (Fin 1)).isSome =
      some "timer interrupt without a platform" := rfl
  obtain ⟨-, -, htold, -⟩ := (reports_standard m).2 2 arrivals console htakens
  obtain ⟨message, hmessage, houtput⟩ := htold.report _ _ rfl nofun
  obtain rfl := Option.some.inj hmessage
  have hbare := (reports_standard { m with filter := .off }).1 .timer none _ hcomplaint 2 .refused none
  refine ⟨htakens, houtput.trans (by decide +kernel), hcomplaint, ?_⟩
  exact (hbare.bare console rfl rfl).trans (by decide +kernel)

end Machine

end HartRuntime
