import Mathlib.Data.List.Induction
import HartRuntime.Proofs.Log.Setting
import HartRuntime.Proofs.Session.Output

namespace HartRuntime

open Trap

variable {n : Nat}

/-- The setting by which an action asks for a filter. -/
def Action.setting? : Action n → Option (Option String)
  | .call (.setFilter setting) => some setting
  | _ => none

/-- The setting that was asked for last. -/
def lastSetting (actions : List (Action n)) : Option (Option String) :=
  actions.reverse.findSome? Action.setting?

theorem lastSetting_concat (past : List (Action n)) (action : Action n) :
    lastSetting (past ++ [action]) = action.setting?.or (lastSetting past) := by
  rw [lastSetting, List.reverse_concat, List.findSome?_cons, lastSetting]
  cases action.setting? <;> rfl

namespace Machine

/-- Only a setting changes the filter. -/
theorem filter_act (action : Action n) (m : Machine n) :
    (m.act action).filter = action.setting?.elim m.filter Log.Filter.ofSetting := by
  rw [act_eq_emit, filter_emit]
  cases action with
  | call call =>
    cases call with
    | armTimeout period =>
      simp only [settle, settleCall, armTimeout, Action.setting?]
      cases m.platform <;> rfl
    | _ => rfl
  | handle entry device =>
    cases entry with
    | exception =>
      simp only [settle, handleException_snd, Action.setting?]
      split <;> rfl
    | timer => cases device <;> rfl
    | nmi | software | external => rfl
  | _ => rfl

theorem filter_acts (actions : List (Action n)) (m : Machine n) :
    (m.acts actions).filter = (lastSetting actions).elim m.filter Log.Filter.ofSetting := by
  induction actions using List.reverseRecOn with
  | nil => rfl
  | append_singleton past action ih =>
    rw [acts_append, acts_cons, acts_nil, filter_act, ih, lastSetting_concat]
    cases action.setting? <;> rfl

/-- Whether a filter lets records of a level through: those at least as serious as the least
    serious level that it names, and none if it names none. -/
def Passes (filter : Log.Filter) (level : Log.Level) : Prop :=
  ∃ least, filter = .upTo least ∧ level.rank ≤ least.rank

theorem admits_iff_passes (filter : Log.Filter) (level : Log.Level) :
    filter.admits level ↔ Passes filter level := by
  cases filter with
  | off => cases level <;> simp [Log.Filter.admits, Log.Filter.rank, Log.Level.rank, Passes]
  | upTo least =>
    rw [Log.Filter.admits, Log.Filter.rank, decide_eq_true_iff]
    constructor
    · exact fun hle => ⟨least, rfl, hle⟩
    · rintro ⟨_, hfilter, hle⟩
      obtain rfl := Log.Filter.upTo.inj hfilter
      exact hle

/-- What becomes of a record: the registered console receives it once, as a line with the colour
    of its own level, if the filter lets it through, and otherwise nothing happens. -/
structure Recorded (m : Machine n) (level : Log.Level) (text : String) (after : Machine n) :
    Prop where
  heard (console : Console n) : m.console = some console → Passes m.filter level →
    after.events = m.events ++ (Log.lineBytes level text).map (.sent console)
  unheard : m.console = none ∨ ¬ Passes m.filter level → after = m
  heard_iff : after.events ≠ m.events ↔ m.console.isSome ∧ Passes m.filter level

theorem recorded_act (m : Machine n) (level : Log.Level) (text : String) :
    Recorded m level text (m.act (.call (.log level text))) := by
  have hact : m.act (.call (.log level text)) = m.emit (recorded m.filter level text) :=
    log_eq_emit level text m
  have hheard (console : Console n) (hconsole : m.console = some console)
      (hpasses : Passes m.filter level) : (m.act (.call (.log level text))).events =
        m.events ++ (Log.lineBytes level text).map (.sent console) := by
    have hadmits := (admits_iff_passes m.filter level).mpr hpasses
    rw [hact, events_emit, hconsole, recorded, if_pos hadmits, deliveries]
  have hunheard (hnone : m.console = none ∨ ¬ Passes m.filter level) :
      m.act (.call (.log level text)) = m := by
    rw [hact]
    rcases hnone with hconsole | hpasses
    · rw [emit, hconsole]
    · have hadmits := fun h => hpasses ((admits_iff_passes m.filter level).mp h)
      rw [recorded, if_neg hadmits, emit_nil]
  refine ⟨hheard, hunheard, ?_⟩
  constructor
  · intro hchanged
    by_contra hnone
    apply hchanged
    rw [hunheard]
    by_cases hpasses : Passes m.filter level
    · exact .inl (by simpa [hpasses] using hnone)
    · exact .inr hpasses
  · rintro ⟨hsome, hpasses⟩ hsame
    obtain ⟨console, hconsole⟩ := Option.isSome_iff_exists.mp hsome
    rw [hheard console hconsole hpasses, List.append_right_eq_self, List.map_eq_nil_iff] at hsame
    simp [Log.lineBytes] at hsame

/-- How records and settings are heeded after some actions: the filter is off until there is a
    setting, and then the one that the last setting asks for. -/
structure Heeded (actions : List (Action n)) (now : Machine n) : Prop where
  console : now.console = actions.findSome? Action.console?
  unset : lastSetting actions = none → now.filter = .off
  set (setting : Option String) : lastSetting actions = some setting →
    Log.Chosen setting now.filter
  record (level : Log.Level) (text : String) :
    Recorded now level text (now.act (.call (.log level text)))

theorem heeded_of_filter_eq {actions : List (Action n)} {now : Machine n}
    (hconsole : now.console = actions.findSome? Action.console?)
    (hfilter : now.filter = (lastSetting actions).elim .off Log.Filter.ofSetting) :
    Heeded actions now where
  console := hconsole
  unset hnone := by rw [hfilter, hnone, Option.elim_none]
  set setting hlast := by
    rw [hfilter, hlast, Option.elim_some]
    exact Log.chosen_ofSetting setting
  record := recorded_act now

theorem heeded_acts (devices : Vector Device n) (actions : List (Action n)) :
    Heeded actions ((start devices).acts actions) :=
  heeded_of_filter_eq (console_acts actions (start devices)) (filter_acts actions (start devices))

end Machine

namespace Session

/-- In every session, however deep its traps nest, the filter is off before the first setting and
    then, until the next one, what the last setting asks for: the level of its word in letters of
    either case, and everything for all other settings. At every moment a record is received by the
    console that is registered by then if the filter lets it through, and by nobody otherwise. No
    two levels have the same colour. -/
theorem heeded_run (room : Nat) (devices : Vector Device n) {ops : List (Op n)}
    (hops : ∀ op ∈ ops, op.Proper) :
    (∃ actions, (start devices).Runs room ops actions) ∧ Function.Injective Log.Level.colour ∧
      ∀ actions, (start devices).Runs room ops actions →
        let s := (start devices).run room ops
        (Machine.start devices).acts actions =
            { s.machine with events := (start devices).events room ops } ∧
          (∀ k, Machine.Heeded (actions.take k) ((Machine.start devices).acts (actions.take k))) ∧
          Machine.Heeded actions s.machine ∧
          (s.step room (.call .filter)).answer = .filter s.machine.filter ∧
          (∀ setting, let after := (s.step room (.call (.setFilter setting))).after.machine
            (s.step room (.call (.setFilter setting))).answer = .filter after.filter ∧
              Log.Chosen setting after.filter) ∧
          ∀ level text, Machine.Recorded s.fresh.machine level text
            (s.step room (.call (.log level text))).after.machine := by
  refine ⟨(proper_start devices).exists_runs room hops, Log.colour_injective, fun actions hruns => ?_⟩
  intro s
  have hacts : (Machine.start devices).acts actions =
      { s.machine with events := (start devices).events room ops } := hruns.acts []
  have hall := Machine.heeded_acts devices actions
  have hconsole : s.machine.console = actions.findSome? Action.console? := by
    rw [← hall.console, hacts]
  have hfilter : s.machine.filter = (lastSetting actions).elim .off Log.Filter.ofSetting := by
    have hlast := Machine.filter_acts actions (Machine.start devices)
    rw [hacts] at hlast
    exact hlast
  refine ⟨hacts, fun k => Machine.heeded_acts devices _,
    Machine.heeded_of_filter_eq hconsole hfilter, rfl, fun setting => ⟨rfl, ?_⟩, fun level text => ?_⟩
  · exact Log.chosen_ofSetting setting
  · exact Machine.recorded_act s.fresh.machine level text

/-- A handler that asks for a filter. -/
def filtering (word : String) : Machine.Handler n :=
  fun _ => .change (Machine.act (.call (.setFilter (some word)))) (.done .resume)

/-- A session with a record too early to be heard, and a setting by the innermost of five handlers,
    before there is a console. -/
def settingDeep : List (Op 1) :=
  [.call (.log .error "early"), .renew (nestingTable (filtering "wArN")),
    .trap .own .exception ⟨.absent, none, none⟩, .call (.registerConsole (.recorder 0))]

theorem heeded_run_settingDeep :
    let s := (start #v[⟨⟨0, 0⟩, ⟨.byte, 0⟩, 500⟩]).run 4 settingDeep
    (∀ op ∈ settingDeep, op.Proper) ∧ s.machine.filter = .upTo .warn ∧
      (s.step 4 (.call (.log .error "late"))).after.machine.events =
        (Log.lineBytes .error "late").map (.sent (.recorder 0)) ∧
      (s.step 4 (.call (.log .info "late"))).after.machine = s.fresh.machine := by
  intro s
  have hfiltering : Machine.ProperHandler (filtering "wArN" : Machine.Handler 1) :=
    fun _ _ => .change (.call (.setFilter (some "wArN"))) rfl (.done _ _)
  have hproper : ∀ op ∈ settingDeep, op.Proper := by
    simpa [settingDeep, Op.Proper] using properHandler_nestingTable hfiltering
  have hidle : State.idle ≠ .halted := by decide
  have hruns : (start #v[⟨⟨0, 0⟩, ⟨.byte, 0⟩, 500⟩]).Runs 4 settingDeep _ :=
    .cons (.call _) <| .cons (.renew _) <| .cons (.trap hidle <|
      performs_nestingTable (.change (.call (.setFilter (some "wArN"))) rfl (.done _)) rfl) <|
        .cons (.call _) <| .nil _
  obtain ⟨-, -, hall⟩ := heeded_run 4 #v[⟨⟨0, 0⟩, ⟨.byte, 0⟩, 500⟩] hproper
  obtain ⟨-, -, hheeded, -, -, hrecorded⟩ := hall _ hruns
  have hword : Log.SameWord "wArN" "warn" := by
    simp [Log.SameWord, Log.SameLetter, Char.isUpper]
  have hfilter : s.machine.filter = .upTo .warn :=
    ((hheeded.set (some "wArN") rfl).word (.upTo .warn) "warn" rfl).mpr ⟨_, rfl, hword⟩
  have hhears : Machine.Passes s.fresh.machine.filter .error := ⟨.warn, hfilter, by decide⟩
  have hmisses : ¬ Machine.Passes s.fresh.machine.filter .info := by
    rintro ⟨least, hleast, hle⟩
    obtain rfl := Log.Filter.upTo.inj (hfilter.symm.trans hleast)
    exact absurd hle (by decide)
  exact ⟨hproper, hfilter, (hrecorded .error "late").heard (.recorder 0) hheeded.console hhears,
    (hrecorded .info "late").unheard (.inr hmisses)⟩

end Session

end HartRuntime
