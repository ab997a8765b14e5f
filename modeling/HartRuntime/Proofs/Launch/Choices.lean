import Mathlib.Data.List.Perm.Basic
import HartRuntime.Proofs.Launch.Calls

namespace HartRuntime.Launch

/-- What a word says, in whichever way it is spelled. -/
inductive Saying where
  | release
  | value (setting : Setting) (text : String)
  deriving DecidableEq

def Saying.subject : Saying → Option Setting
  | .release => none
  | .value setting _ => some setting

namespace Word

def saying : Word → Saying
  | .release => .release
  | .joined setting value | .separate setting value => .value setting value

theorem subject_saying (word : Word) : word.saying.subject = word.subject := by
  cases word <;> rfl

theorem saying_eq_value_iff {word : Word} {setting : Setting} {text : String} :
    word.saying = .value setting text ↔ word.value? setting = some text := by
  cases word <;> simp [saying, value?]

end Word

/-- How the firmware is to be compiled. -/
structure Choice where
  platform : String
  log : Option String
  release : Bool
  deriving DecidableEq

/-- The call that compiles as chosen. -/
def Choice.compilation (tools : Tools) (choice : Choice) : Invocation :=
  compile tools choice.platform choice.log choice.release

/-- The choice that a call shows by its variables and its arguments. -/
def Invocation.choice? (call : Invocation) : Option Choice :=
  (call.env.lookup "PLATFORM").map fun platform =>
    ⟨platform, call.env.lookup "LOG", decide ("--release" ∈ call.args)⟩

/-- What has to be said for a choice, with or without the name of the platform. -/
def Choice.sayings (choice : Choice) (named : Bool) : List Saying :=
  (if named then [.value .platform choice.platform] else []) ++
    (choice.log.map (.value .log)).toList ++ (if choice.release then [.release] else [])

/-- The platform of a command that names none. -/
def Command.unnamed : Command → String
  | .build => "newlib"
  | .qemu => "qemu"

/-- Words that make a choice, in any order and each in either spelling. Only a build may name
    its platform, and it may leave out the one that it has without a name. -/
structure Choice.Written (choice : Choice) (command : Command) (words : List Word) : Prop where
  plain : ∀ word ∈ words, word.Plain
  exists_perm : ∃ named, (words.map Word.saying).Perm (choice.sayings named) ∧
    if named then command = .build else choice.platform = command.unnamed

/-- The command line that consists of a command and its words. -/
def Command.line (command : Command) (words : List Word) : List String :=
  command.name :: words.flatMap Word.args

/-- The compilations to which a command line leads, whatever becomes of them. -/
def compilations (reading : Reading) (tools : Tools) (project : String) (code : Invocation → UInt8)
    (line : List String) : List Invocation :=
  ((reading.line line).report tools project code).calls.filter (·.program = "cargo")

theorem choice?_compilation {tools : Tools} (h : tools.Documented) (choice : Choice) :
    (choice.compilation tools).choice? = some choice := by
  obtain ⟨platform, log, release⟩ := choice
  obtain ⟨-, -, hplatform, hlog⟩ := compile_spec h platform log release
  rw [Choice.compilation, Invocation.choice?, hplatform, hlog]
  simp [release_mem_compile h]

theorem compilation_injective {tools : Tools} (h : tools.Documented) :
    Function.Injective (Choice.compilation tools) := by
  intro choice other hsame
  apply Option.some.inj
  rw [← choice?_compilation h choice, hsame, choice?_compilation h other]

namespace Choice

variable {choice : Choice}

theorem value_mem_sayings_iff {named : Bool} {setting : Setting} {text : String} :
    .value setting text ∈ choice.sayings named ↔
      match setting with
      | .platform => named = true ∧ text = choice.platform
      | .log => choice.log = some text := by
  cases setting <;> simp [sayings, Option.mem_toList]

theorem release_mem_sayings_iff {named : Bool} :
    .release ∈ choice.sayings named ↔ choice.release = true := by
  simp [sayings, Option.mem_toList]

theorem nodup_subject_sayings (named : Bool) :
    ((choice.sayings named).map Saying.subject).Nodup := by
  obtain ⟨platform, log, release⟩ := choice
  cases named <;> cases log <;> cases release <;> simp [sayings, Saying.subject]

end Choice

theorem map_subject (words : List Word) :
    words.map Word.subject = (words.map Word.saying).map Saying.subject := by
  rw [List.map_map]
  exact List.map_congr_left fun word _ => word.subject_saying.symm

/-- Where nothing is said twice, it does not matter which of the words comes first. -/
theorem given_eq_some_iff {words : List Word} (honce : (words.map Word.subject).Nodup)
    {setting : Setting} {text : String} :
    given setting words = some text ↔ .value setting text ∈ words.map Word.saying := by
  have hsaid {text : String} (hgiven : given setting words = some text) :
      .value setting text ∈ words.map Word.saying := by
    obtain ⟨word, hword, hvalue⟩ := List.exists_of_findSome?_eq_some hgiven
    exact List.mem_map.mpr ⟨word, hword, Word.saying_eq_value_iff.mpr hvalue⟩
  refine ⟨hsaid, fun hmem => ?_⟩
  have hsubject : some setting ∈ words.map Word.subject := by
    rw [map_subject]
    exact List.mem_map_of_mem hmem
  cases hgiven : given setting words with
  | none => exact absurd hsubject (given_eq_none_iff.mp hgiven)
  | some other =>
    rw [map_subject] at honce
    have hsame := List.inj_on_of_nodup_map honce (hsaid hgiven) hmem rfl
    cases hsame
    rfl

namespace Choice.Written

variable {choice : Choice} {command : Command} {words : List Word}

theorem once (h : choice.Written command words) : (words.map Word.subject).Nodup := by
  obtain ⟨named, hperm, -⟩ := h.exists_perm
  rw [map_subject, (hperm.map Saying.subject).nodup_iff]
  exact nodup_subject_sayings named

theorem fits (h : choice.Written command words) : ∀ word ∈ words, word.Fits command := by
  obtain ⟨named, hperm, hnamed⟩ := h.exists_perm
  intro word hword
  refine ⟨h.plain word hword, fun setting hsubject => ?_⟩
  cases setting with
  | log => cases command <;> decide
  | platform =>
    have hsaying : word.saying ∈ choice.sayings named :=
      hperm.mem_iff.mp (List.mem_map_of_mem hword)
    obtain ⟨text, hvalue⟩ : ∃ text, word.saying = .value .platform text := by
      cases word <;> simp_all [Word.subject, Word.saying]
    rw [hvalue, value_mem_sayings_iff] at hsaying
    rw [if_pos hsaying.1] at hnamed
    subst hnamed
    decide

theorem given_log (h : choice.Written command words) : given .log words = choice.log := by
  obtain ⟨named, hperm, -⟩ := h.exists_perm
  apply Option.ext
  intro text
  rw [given_eq_some_iff h.once, hperm.mem_iff, value_mem_sayings_iff]

theorem platform_eq (h : choice.Written command words) :
    command.platform words = choice.platform := by
  obtain ⟨named, hperm, hnamed⟩ := h.exists_perm
  have hgiven (text : String) :
      given .platform words = some text ↔ named = true ∧ text = choice.platform := by
    rw [given_eq_some_iff h.once, hperm.mem_iff, value_mem_sayings_iff]
  cases named with
  | true =>
    rw [if_pos rfl] at hnamed
    rw [hnamed, Command.platform, (hgiven choice.platform).mpr ⟨rfl, rfl⟩, Option.getD_some]
  | false =>
    have hnone : given .platform words = none := by
      apply Option.eq_none_iff_forall_ne_some.mpr
      intro text hsome
      exact Bool.false_ne_true ((hgiven text).mp hsome).1
    rw [if_neg Bool.false_ne_true] at hnamed
    rw [hnamed]
    cases command with
    | build => rw [Command.platform, hnone, Option.getD_none, Command.unnamed]
    | qemu => rfl

theorem release_eq (h : choice.Written command words) :
    decide (Word.release ∈ words) = choice.release := by
  obtain ⟨named, hperm, -⟩ := h.exists_perm
  have hsaid : Word.release ∈ words ↔ Saying.release ∈ words.map Word.saying := by
    rw [List.mem_map]
    constructor
    · exact fun hmem => ⟨_, hmem, rfl⟩
    · rintro ⟨word, hword, hsaying⟩
      cases word <;> simp_all [Word.saying]
  rw [hperm.mem_iff, release_mem_sayings_iff] at hsaid
  simp [hsaid]

theorem compilation_eq (h : choice.Written command words) (tools : Tools) :
    command.compilation tools words = choice.compilation tools := by
  rw [Command.compilation, h.platform_eq, h.given_log, h.release_eq, Choice.compilation]

/-- The words are read, and of the calls that follow only the first compiles. -/
theorem compilations_eq (h : choice.Written command words) {reading : Reading}
    (hreading : reading.Documented) {tools : Tools} (htools : tools.Documented) (project : String)
    (code : Invocation → UInt8) :
    compilations reading tools project code (command.line words) = [choice.compilation tools] := by
  have hwrites : Writes (command.line words) command words := ⟨.inl rfl, h.fits, h.once⟩
  have hrun := (line_eq_run_iff hreading).mpr ⟨words, hwrites, rfl⟩
  have hcarried := carried_run htools project code command words
  obtain ⟨later, hcalls, hlater⟩ := hcarried.first
  have hnone : later.filter (·.program = "cargo") = [] := by
    apply List.filter_eq_nil_iff.mpr
    simpa using hlater
  rw [compilations, hrun, hcalls, List.filter_cons_of_pos (by simpa using hcarried.program), hnone,
    h.compilation_eq]

end Choice.Written

/-- What is said as a word, with its value behind an equals sign. -/
def Saying.joined : Saying → Word
  | .release => .release
  | .value setting text => .joined setting text

/-- Every choice can be written that a command leaves open. -/
theorem exists_written {choice : Choice} {command : Command}
    (hplatform : command = .qemu → choice.platform = "qemu") :
    ∃ words, choice.Written command words := by
  have hplain (saying : Saying) : saying.joined.Plain := by
    cases saying <;> exact trivial
  have hsaying : Word.saying ∘ Saying.joined = id := by
    funext saying
    cases saying <;> rfl
  let named := decide (command = .build)
  refine ⟨(choice.sayings named).map Saying.joined, ?_, named, ?_, ?_⟩
  · intro word hword
    obtain ⟨saying, -, rfl⟩ := List.mem_map.mp hword
    exact hplain saying
  · rw [List.map_map, hsaying, List.map_id]
  · cases command with
    | build => rfl
    | qemu => exact hplatform rfl

/-- The first word that the command does not take, or that was said before, ends the reading. -/
theorem options_of_wrong {reading : Reading} (h : reading.Documented) {command : Command}
    {before words : List Word} (hplain : ∀ word ∈ words, word.Plain)
    (honce : (before.map Word.subject).Nodup)
    (hwrong : (∀ word ∈ words, word.Fits command) →
      ¬ ((before ++ words).map Word.subject).Nodup) (rest : List String) :
    reading.options command (.ofWords before) (words.flatMap Word.args ++ rest) = .stopped 2 := by
  induction words generalizing before with
  | nil =>
    rw [List.append_nil] at hwrong
    exact absurd honce (hwrong (by simp))
  | cons word words ih =>
    rw [List.flatMap_cons, List.append_assoc]
    by_cases hfits : word.Fits command
    · rw [h.word hfits, add?_ofWords]
      by_cases hsaid : word.subject ∈ before.map Word.subject
      · rw [if_pos hsaid]
        rfl
      · rw [if_neg hsaid]
        refine ih (fun other hother => hplain other (by simp [hother])) ?_ fun hrest => ?_
        · simpa using honce.concat hsaid
        · have hall := hwrong (by simpa [hfits] using hrest)
          rwa [List.append_cons] at hall
    · exact h.foreign (hplain word (by simp)) hfits _ _

theorem report_of_wrong {reading : Reading} (h : reading.Documented) (tools : Tools)
    (project : String) (code : Invocation → UInt8) {command : Command} {words : List Word}
    (hplain : ∀ word ∈ words, word.Plain)
    (hwrong : ¬ (words.map Word.subject).Nodup ∨
      command = .qemu ∧ some .platform ∈ words.map Word.subject) :
    (reading.line (command.line words)).report tools project code = ⟨[], 2, "", none⟩ := by
  have hstopped :
      reading.options command (.ofWords []) (words.flatMap Word.args ++ []) = .stopped 2 := by
    apply options_of_wrong h hplain
    · exact List.nodup_nil
    · intro hfits
      refine hwrong.resolve_right ?_
      rintro ⟨rfl, hplatform⟩
      obtain ⟨word, hword, hsubject⟩ := List.mem_map.mp hplatform
      have hmem := (hfits word hword).2 _ hsubject
      simp [Command.settings] at hmem
  rw [ofWords_nil, List.append_nil] at hstopped
  rw [Command.line, h.command, hstopped]
  rfl

/-- A line that makes a choice leads to one compilation, and that compilation shows the choice:
    it is the same for two lines exactly if their choices are. A line that says something twice,
    or names a platform to run on, leads to nothing. -/
theorem compilations_eq_iff {reading : Reading} (hreading : reading.Documented) {tools : Tools}
    (htools : tools.Documented) (project : String) (code : Invocation → UInt8) (command : Command) :
    (∀ choice : Choice, (command = .qemu → choice.platform = "qemu") →
        ∃ words, choice.Written command words) ∧
      (∀ (choice : Choice) (words : List Word), choice.Written command words →
        compilations reading tools project code (command.line words) =
            [choice.compilation tools] ∧
          (choice.compilation tools).choice? = some choice) ∧
      (∀ (choice other : Choice) (words others : List Word), choice.Written command words →
        other.Written command others →
          (compilations reading tools project code (command.line words) =
            compilations reading tools project code (command.line others) ↔ choice = other)) ∧
      ∀ words : List Word, (∀ word ∈ words, word.Plain) →
        ¬ (words.map Word.subject).Nodup ∨
            command = .qemu ∧ some .platform ∈ words.map Word.subject →
          (reading.line (command.line words)).report tools project code = ⟨[], 2, "", none⟩ := by
  refine ⟨fun _ => exists_written, fun choice words hwritten => ?_,
    fun choice other words others hwritten hother => ?_,
    fun words hplain hwrong => report_of_wrong hreading tools project code hplain hwrong⟩
  · exact ⟨hwritten.compilations_eq hreading htools project code,
      choice?_compilation htools choice⟩
  · rw [hwritten.compilations_eq hreading htools, hother.compilations_eq hreading htools,
      List.singleton_inj]
    exact (compilation_injective htools).eq_iff

/-- A platform with an equals sign in its name and a log level that is a minus sign, each in both
    spellings. -/
theorem compilations_eq_iff_respelled :
    let choice : Choice := ⟨"a=b", some "-", true⟩
    let words : List Word := [.separate .log "-", .release, .joined .platform "a=b"]
    let others : List Word := [.separate .platform "a=b", .joined .log "-", .release]
    Launch.reading.Documented ∧ Launch.tools.Documented ∧
      Command.build.line words = ["build", "--log", "-", "--release", "--platform=a=b"] ∧
      choice.Written .build words ∧ choice.Written .build others ∧
      compilations Launch.reading Launch.tools "." (fun _ => 0) (Command.build.line words) =
        compilations Launch.reading Launch.tools "." (fun _ => 0) (Command.build.line others) ∧
      (Launch.reading.line ["qemu", "--platform=qemu"]).report Launch.tools "." (fun _ => 0) =
        ⟨[], 2, "", none⟩ := by
  intro choice words others
  have hwritten : choice.Written .build words :=
    ⟨by decide, true, by decide, rfl⟩
  have hrespelled : choice.Written .build others :=
    ⟨by decide, true, by decide, rfl⟩
  obtain ⟨-, -, hsame, -⟩ :=
    compilations_eq_iff documented_reading documented_tools "." (fun _ => 0) .build
  obtain ⟨-, -, -, hstopped⟩ :=
    compilations_eq_iff documented_reading documented_tools "." (fun _ => 0) .qemu
  refine ⟨documented_reading, documented_tools, by decide, hwritten, hrespelled, ?_, ?_⟩
  · exact (hsame choice choice words others hwritten hrespelled).mpr rfl
  · exact hstopped [.joined .platform "qemu"] (by decide) (.inr ⟨rfl, by decide⟩)

end HartRuntime.Launch
