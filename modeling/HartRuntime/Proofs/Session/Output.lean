import HartRuntime.Proofs.Session.Run

namespace HartRuntime

open Trap

variable {n : Nat}

/-- The calls that answer how many bytes the console received. -/
inductive Call.Counts : Call n → Prop where
  | printf (format : List UInt8) (args : List Format.Arg) : Counts (.printf format args)
  | puts (bytes : List UInt8) : Counts (.puts bytes)
  | putchar (byte : UInt8) : Counts (.putchar byte)

namespace Machine

/-- Whoever asks to be the console prints nothing in doing so, so that what an action prints
    goes to the console that there was before it. -/
theorem printed_of_console? {action : Action n} (h : action.console? ≠ none) (m : Machine n) :
    action.printed m = [] := by
  cases action with
  | call call =>
    cases call with
    | registerConsole console => rfl
    | _ => exact absurd rfl h
  | _ => exact absurd rfl h

theorem ite_console_settle (console : Console n) (action : Action n) (m : Machine n) :
    (if (m.settle action).console = some console then action.printed m else []) =
      if m.console = some console then action.printed m else [] := by
  rw [(settled_settle action m).console]
  by_cases hquiet : action.console? = none
  · rw [hquiet, Option.or_none]
  · rw [printed_of_console? hquiet, ite_self, ite_self]

theorem received_act (console : Console n) (action : Action n) (m : Machine n) :
    received console (m.act action).events =
      received console m.events ++ if m.console = some console then action.printed m else [] := by
  rw [act_eq_emit, events_emit, received_append, (settled_settle action m).received, received_deliveries,
    ite_console_settle]

/-- The bytes that a sequence of actions prints, whether or not there is a console. -/
def printed (m : Machine n) : List (Action n) → List UInt8
  | [] => []
  | action :: rest => action.printed m ++ (m.act action).printed rest

theorem received_acts_of_registered {console : Console n} {m : Machine n}
    (h : m.console = some console) (actions : List (Action n)) :
    received console (m.acts actions).events = received console m.events ++ m.printed actions := by
  induction actions generalizing m with
  | nil => exact (List.append_nil _).symm
  | cons action rest ih =>
    have hnext : (m.act action).console = some console := by
      rw [console_act, h]
      rfl
    rw [acts_cons, ih hnext, received_act, if_pos h, List.append_assoc]
    rfl

theorem received_acts_of_other {console : Console n} {m : Machine n} {actions : List (Action n)}
    (h : (m.acts actions).console ≠ some console) :
    received console (m.acts actions).events = received console m.events := by
  induction actions generalizing m with
  | nil => rfl
  | cons action rest ih =>
    have hnow : m.console ≠ some console := by
      intro hconsole
      apply h
      rw [console_acts, hconsole]
      rfl
    rw [acts_cons] at h
    rw [acts_cons, ih h, received_act, if_neg hnow, List.append_nil]

/-- The first console to be registered receives what is printed from then on. -/
theorem received_acts_of_first (m : Machine n) (h : m.console = none) {before : List (Action n)}
    (hbefore : before.findSome? Action.console? = none) (console : Console n)
    (after : List (Action n)) :
    received console (m.acts (before ++ .call (.registerConsole console) :: after)).events =
      received console m.events ++
        (m.acts (before ++ [.call (.registerConsole console)])).printed after := by
  have hsilent : (m.acts before).console = none := by
    rw [console_acts, h, hbefore]
    rfl
  have hearlier : (m.acts before).console ≠ some console := by
    rw [hsilent]
    exact nofun
  have hregistered : ((m.acts before).registerConsole console).console = some console := by
    rw [registerConsole, hsilent]
    rfl
  rw [acts_append, acts_append, acts_cons, ← received_acts_of_other hearlier]
  exact received_acts_of_registered hregistered after

/-- The UART of a device transmits what it receives as a console, and nothing besides unless
    software writes to its register directly. -/
theorem uart_acts {i : Fin n} {actions : List (Action n)}
    (h : ∀ timer cell, .poke i timer cell ∉ actions) (m : Machine n) :
    ∃ bytes, received (.uart i) (m.acts actions).events = received (.uart i) m.events ++ bytes ∧
      ((m.acts actions).device i).uart = (m.device i).uart.transmit bytes := by
  induction actions generalizing m with
  | nil => exact ⟨[], (List.append_nil _).symm, rfl⟩
  | cons action rest ih =>
    have hnow : ∀ timer cell, action ≠ .poke i timer cell := by
      rintro timer cell rfl
      exact h timer cell List.mem_cons_self
    have hrest : ∀ timer cell, .poke i timer cell ∉ rest :=
      fun timer cell hmem => h timer cell (List.mem_cons_of_mem _ hmem)
    obtain ⟨later, hreceived, huart⟩ := ih hrest (m.act action)
    let now := if m.console = some (.uart i) then action.printed m else []
    have hact : ((m.act action).device i).uart = (m.device i).uart.transmit now := by
      rw [act_eq_emit, device_emit, ite_console_settle, (settled_settle action m).uart hnow]
    refine ⟨now ++ later, ?_, ?_⟩
    · rw [acts_cons, hreceived, received_act, List.append_assoc]
    · rw [acts_cons, huart, hact, Uart.transmit_append]

end Machine

namespace Session

theorem step_call (room : Nat) (s : Session n) (call : Call n) :
    s.step room (.call call) = ⟨(s.fresh.machine.perform call).1,
      { s with machine := s.fresh.machine.act (.call call) }⟩ :=
  rfl

theorem received_step_call (room : Nat) (console : Console n) (s : Session n) (call : Call n) :
    received console (s.step room (.call call)).after.machine.events =
      if s.machine.console = some console then call.printed s.machine.filter else [] := by
  rw [step_call]
  exact Machine.received_act console (.call call) s.fresh.machine

theorem answer_of_counts (room : Nat) {call : Call n} (h : call.Counts) (s : Session n) :
    (s.step room (.call call)).answer =
      .count (UInt64.ofNat (s.machine.console.elim 0 fun console =>
        (received console (s.step room (.call call)).after.machine.events).length)) := by
  have hanswer : (s.step room (.call call)).answer = .count
      (if s.machine.console.isSome then Format.count (call.printed s.machine.filter) else 0) := by
    cases h <;> rfl
  rw [hanswer]
  cases hconsole : s.machine.console with
  | none => rfl
  | some console =>
    rw [Option.elim_some, received_step_call, if_pos hconsole]
    rfl

/-- In every session, however deep its traps nest, the console that is registered first receives
    what is printed after its registration, all of it and in order, and no other console receives
    anything. A UART transmits what it receives as a console. Printing a format, a string or a
    character counts the bytes received; writing to a file counts those given. -/
theorem first_console_receives (room : Nat) (devices : Vector Device n) {ops : List (Op n)}
    (hops : ∀ op ∈ ops, op.Proper) :
    (∃ actions, (start devices).Runs room ops actions) ∧
      ∀ actions, (start devices).Runs room ops actions →
        let s := (start devices).run room ops
        let events := (start devices).events room ops
        let first := actions.findSome? Action.console?
        (∀ console, first ≠ some console → received console events = []) ∧
        (∀ before console after, actions = before ++ .call (.registerConsole console) :: after →
          before.findSome? Action.console? = none →
            received console events =
              ((Machine.start devices).acts (before ++ [.call (.registerConsole console)])).printed after) ∧
        (∀ i, (∀ timer cell, .poke i timer cell ∉ actions) →
          (s.machine.device i).uart = (devices.get i).uart.transmit (received (.uart i) events)) ∧
        (∀ call : Call n, call.Counts →
          (s.step room (.call call)).answer = .count (UInt64.ofNat (first.elim 0 fun console =>
            (received console (s.step room (.call call)).after.machine.events).length))) ∧
        ∀ fd buffer,
          (s.step room (.call (.write fd buffer))).answer = .count (UInt64.ofNat buffer.length) ∧
          ∀ console, first = some console →
            received console (s.step room (.call (.write fd buffer))).after.machine.events =
              buffer := by
  refine ⟨(proper_start devices).exists_runs room hops, fun actions hruns => ?_⟩
  intro s events first
  have hacts : (Machine.start devices).acts actions = { s.machine with events := events } :=
    hruns.acts []
  have hfirst : s.machine.console = first := by
    have hconsole := Machine.console_acts actions (Machine.start devices)
    rw [hacts] at hconsole
    exact hconsole
  have hevents : ((Machine.start devices).acts actions).events = events := congrArg Machine.events hacts
  refine ⟨?_, ?_, ?_, ?_, ?_⟩
  · intro console hother
    have hconsole : ((Machine.start devices).acts actions).console ≠ some console := by
      rw [hacts]
      exact fun hconsole => hother (hfirst.symm.trans hconsole)
    rw [← hevents, Machine.received_acts_of_other hconsole]
    rfl
  · intro before console after hactions hbefore
    rw [← hevents, hactions]
    exact Machine.received_acts_of_first (Machine.start devices) rfl hbefore console after
  · intro i hpoke
    obtain ⟨bytes, hbytes, huart⟩ := Machine.uart_acts hpoke (Machine.start devices)
    rw [hacts] at hbytes huart
    have hreceived : received (.uart i) events = bytes := hbytes
    rw [hreceived]
    exact huart
  · intro call hcounts
    rw [← hfirst]
    exact answer_of_counts room hcounts s
  · intro fd buffer
    refine ⟨rfl, fun console hconsole => ?_⟩
    rw [received_step_call, if_pos (hfirst.trans hconsole)]
    rfl

/-- A table in which four traps nest inside an exception, the innermost with a handler of its
    own. -/
def nestingTable (innermost : Machine.Handler n) : Table (Machine.Handler n)
  | .exception => Machine.nesting .software .resume
  | .software => Machine.nesting .timer .resume
  | .timer => Machine.nesting .external .resume
  | .external => Machine.nesting .nmi .resume
  | .nmi => innermost

theorem properHandler_nestingTable {innermost : Machine.Handler n}
    (h : Machine.ProperHandler innermost) (entry : Entry) :
    Machine.ProperHandler (nestingTable innermost entry) := by
  cases entry with
  | nmi => exact h
  | exception | software | timer | external => exact Machine.properHandler_nesting _ _

/-- On the way to the innermost handler and back there are notes only. -/
theorem performs_nestingTable {innermost : Machine.Handler n} {device : Option (Fin n)}
    {m : Machine n} {actions : List (Action n)} {outcome : Outcome} :
    let inward := [Entry.software, .timer, .external, .nmi].map fun entry =>
      Action.note (.nesting entry (some .handling))
    let outward := [outcome, .resume, .resume, .resume].map fun outcome =>
      Action.note (.nested outcome (some (.after outcome)))
    Machine.Performs (nestingTable innermost) 0 (innermost device) (some .handling) (m.acts inward)
      actions →
    ((innermost device).run 0 .refused (some .handling) (m.acts inward)).1 = outcome →
      Machine.Performs (nestingTable innermost) 4 (nestingTable innermost .exception device)
        (some .handling) m (inward ++ (actions ++ outward)) := by
  intro inward outward h houtcome
  subst houtcome
  have hhandling : State.handling ≠ .halted := nofun
  have hexternal : Machine.Performs (nestingTable innermost) 1
      (nestingTable innermost .external device) (some .handling) (m.acts (inward.take 3)) _ :=
    Machine.performs_nesting hhandling .resume h
  have htimer : Machine.Performs (nestingTable innermost) 2
      (nestingTable innermost .timer device) (some .handling) (m.acts (inward.take 2)) _ :=
    Machine.performs_nesting hhandling .resume hexternal
  have hsoftware : Machine.Performs (nestingTable innermost) 3
      (nestingTable innermost .software device) (some .handling) (m.acts (inward.take 1)) _ :=
    Machine.performs_nesting hhandling .resume htimer
  have hexception : Machine.Performs (nestingTable innermost) 4
      (nestingTable innermost .exception device) (some .handling) m _ :=
    Machine.performs_nesting hhandling .resume hsoftware
  simp only [List.cons_append, List.append_assoc, List.nil_append] at hexception
  exact hexception

/-- A session that prints before it has a console, tries to change the console, and prints a
    format and, deep inside an exception, a report. -/
def rebinding : List (Op 1) :=
  [.call (.putchar 63), .call (.registerConsole (.recorder 0)), .call (.registerConsole (.uart 0)),
    .call (.puts [104, 105, 0, 33]), .call (.printf (utf8 "%d/%s") [.int (-7), .text [120]]),
    .renew (nestingTable (Machine.standard .nmi)), .trap .own .exception ⟨.absent, none, none⟩]

theorem first_console_receives_rebinding :
    let s := start #v[⟨⟨0, 0⟩, ⟨.byte, 0⟩, 500⟩]
    let printf := Call.printf (utf8 "%d/%s") [.int (-7), .text [120]]
    (∀ op ∈ rebinding, op.Proper) ∧
      received (.recorder 0) (s.events 4 rebinding) =
        [104, 105] ++ utf8 "-7/x" ++ utf8 "unexpected non-maskable interrupt\n" ∧
      received (.uart 0) (s.events 4 rebinding) = [] ∧
      ((s.run 4 rebinding).step 4 (.call printf)).answer = .count 4 ∧
      ((s.run 4 rebinding).step 4 (.call (.write 1 [0, 1]))).answer = .count 2 := by
  intro s printf
  have hproper : ∀ op ∈ rebinding, op.Proper := by
    simpa [rebinding, Op.Proper] using
      properHandler_nestingTable (Machine.properHandler_standard .nmi)
  have hruns : s.Runs 4 rebinding _ :=
    .cons (.call _) <| .cons (.call _) <| .cons (.call _) <| .cons (.call _) <| .cons (.call _) <|
      .cons (.renew _) <| .cons (.trap nofun <|
        performs_nestingTable (Machine.performs_standard _ _ _ _ _ _) rfl) <| .nil _
  obtain ⟨-, hall⟩ := first_console_receives 4 #v[⟨⟨0, 0⟩, ⟨.byte, 0⟩, 500⟩] hproper
  obtain ⟨hother, hfirst, -, hcounts, hwrite⟩ := hall _ hruns
  refine ⟨hproper, ?_, hother (.uart 0) nofun, ?_, (hwrite 1 [0, 1]).1⟩
  · exact (hfirst [.call (.putchar 63)] (.recorder 0) _ rfl rfl).trans (by decide +kernel)
  · exact (hcounts printf (.printf _ _)).trans (by decide +kernel)

end Session

end HartRuntime
