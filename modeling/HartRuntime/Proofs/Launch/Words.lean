import Mathlib.Data.List.Nodup
import HartRuntime.Launch.Plan

namespace HartRuntime.Launch

/-- One option as it is written on a command line, with its value behind an equals sign or
    as an argument of its own. -/
inductive Word where
  | release
  | joined (setting : Setting) (value : String)
  | separate (setting : Setting) (value : String)
  deriving DecidableEq

/-- The arguments that a word takes up. -/
def Word.args : Word → List String
  | .release => ["--release"]
  | .joined setting value => [setting.name ++ "=" ++ value]
  | .separate setting value => [setting.name, value]

/-- What a word is about, which may be said once. -/
def Word.subject : Word → Option Setting
  | .release => none
  | .joined setting _ | .separate setting _ => some setting

/-- The value that a word gives to an option. -/
def Word.value? (setting : Setting) : Word → Option String
  | .release => none
  | .joined other value | .separate other value => if other = setting then some value else none

/-- An argument that is no option: a minus sign, or one that does not start with it. -/
def Independent (arg : String) : Prop :=
  arg = "-" ∨ arg.toList.head? ≠ some '-'

instance (arg : String) : Decidable (Independent arg) :=
  inferInstanceAs (Decidable (_ ∨ _))

/-- A value that is an argument of its own is no option, even if the command does not take the
    word. -/
def Word.Plain : Word → Prop
  | .release | .joined _ _ => True
  | .separate _ value => Independent value

instance (word : Word) : Decidable word.Plain :=
  match word with
  | .release | .joined _ _ => .isTrue trivial
  | .separate _ value => inferInstanceAs (Decidable (Independent value))

/-- A command takes its own options only. -/
def Word.Fits (command : Command) (word : Word) : Prop :=
  word.Plain ∧ ∀ setting, word.subject = some setting → setting ∈ command.settings

/-- The value that an option is given somewhere. -/
def given (setting : Setting) (words : List Word) : Option String :=
  words.findSome? (Word.value? setting)

def Options.ofWords (words : List Word) : Options :=
  ⟨given .platform words, given .log words, decide (Word.release ∈ words)⟩

/-- A command line that consists of the name of a command and then options, none of them
    twice. The end of options may be marked. -/
structure Writes (args : List String) (command : Command) (words : List Word) : Prop where
  line : args = command.name :: words.flatMap Word.args ∨
    args = command.name :: (words.flatMap Word.args ++ ["--"])
  fits : ∀ word ∈ words, word.Fits command
  once : (words.map Word.subject).Nodup

/-- Adds what a word says to what was said before, unless that was said already. -/
def Options.add? (options : Options) : Word → Option Options
  | .release => if options.release then .none else some { options with release := true }
  | .joined setting value | .separate setting value => options.set? setting value

/-- How command lines are read: a whole line, and what is left of it behind a command and what its
    options have said so far. -/
structure Reading where
  line : Reader
  options (command : Command) (said : Options) (rest : List String) : Request

/-- What is documented of the library that reads command lines, one argument or option at a time.
    Nothing is said of requests for help, nor of other lines that are no command's. -/
structure Reading.Documented (reading : Reading) : Prop where
  /-- A command is called by its name, and its options stand behind. -/
  command (command : Command) (rest : List String) :
    reading.line (command.name :: rest) = reading.options command .none rest
  /-- There is no default command, and there are no options before one. -/
  commandFirst {args : List String} {command : Command} {options : Options} :
    reading.line args = .run command options →
      ∃ (named : Command) (rest : List String), args = named.name :: rest
  /-- No option is required. -/
  done (command : Command) (said : Options) : reading.options command said [] = .run command said
  /-- Two minus signs mark the end of options. -/
  mark (command : Command) (said : Options) :
    reading.options command said ["--"] = .run command said
  /-- A flag is its name. An option's value stands behind an equals sign, or is the next argument
      if that starts with no minus sign or is one. Each may be given once; an error exits with
      2. -/
  word {command : Command} {word : Word} : word.Fits command → ∀ said rest,
    reading.options command said (word.args ++ rest) =
      (said.add? word).elim (.stopped 2) (reading.options command · rest)
  /-- An option that the command does not have is an error. -/
  foreign {command : Command} {word : Word} : word.Plain → ¬ word.Fits command → ∀ said rest,
    reading.options command said (word.args ++ rest) = .stopped 2
  /-- There are no arguments but options. -/
  wordFirst {command run : Command} {said read : Options} {arg : String} {rest : List String} :
    reading.options command said (arg :: rest) = .run run read →
      (arg = "--" ∧ rest = []) ∨ ∃ (word : Word) (tail : List String), word.Fits command ∧
        arg :: rest = word.args ++ tail

theorem given_eq_none_iff {setting : Setting} {words : List Word} :
    given setting words = none ↔ some setting ∉ words.map Word.subject := by
  rw [given, List.findSome?_eq_none_iff, List.mem_map]
  constructor
  · rintro hnone ⟨word, hword, hsubject⟩
    have := hnone word hword
    cases word <;> simp_all [Word.value?, Word.subject]
  · intro hnone word hword
    cases word with
    | release => rfl
    | joined other value => exact if_neg fun heq => hnone ⟨_, hword, congrArg some heq⟩
    | separate other value => exact if_neg fun heq => hnone ⟨_, hword, congrArg some heq⟩

theorem release_mem_iff {words : List Word} :
    Word.release ∈ words ↔ none ∈ words.map Word.subject := by
  rw [List.mem_map]
  constructor
  · exact fun hmem => ⟨_, hmem, rfl⟩
  · rintro ⟨word, hword, hsubject⟩
    cases word <;> simp_all [Word.subject]

theorem given_concat (setting : Setting) (before : List Word) (word : Word) :
    given setting (before ++ [word]) = (given setting before).or (word.value? setting) := by
  simp [given, List.findSome?_append]

theorem set?_ofWords {before : List Word} {word : Word} {setting : Setting} {value : String}
    (hvalue : ∀ other, word.value? other = if setting = other then some value else none)
    (hword : word ≠ .release) :
    (Options.ofWords before).set? setting value =
      if some setting ∈ before.map Word.subject then none
      else some (Options.ofWords (before ++ [word])) := by
  have hnew : given setting before = none ↔ some setting ∉ before.map Word.subject :=
    given_eq_none_iff
  by_cases hmem : some setting ∈ before.map Word.subject
  · have hsome : given setting before ≠ none := fun hnone => hnew.mp hnone hmem
    rw [if_pos hmem]
    cases setting <;> simp [Options.set?, Options.ofWords, hsome]
  · rw [if_neg hmem]
    have hnone := hnew.mpr hmem
    cases setting <;>
      simp [Options.set?, Options.ofWords, hnone, given_concat, hvalue, hword.symm]

/-- What one more word says is added, unless there was a word about it before. -/
theorem add?_ofWords (before : List Word) (word : Word) :
    (Options.ofWords before).add? word =
      if word.subject ∈ before.map Word.subject then none
      else some (Options.ofWords (before ++ [word])) := by
  cases word with
  | release =>
    have hsaid : Word.release ∈ before ↔ Word.release.subject ∈ before.map Word.subject :=
      release_mem_iff
    by_cases hmem : Word.release ∈ before
    · rw [if_pos (hsaid.mp hmem)]
      simp [Options.add?, Options.ofWords, hmem]
    · rw [if_neg (hsaid.not.mp hmem)]
      simp [Options.add?, Options.ofWords, hmem, given_concat, Word.value?]
  | joined setting value => exact set?_ofWords (fun other => rfl) (by simp)
  | separate setting value => exact set?_ofWords (fun other => rfl) (by simp)

theorem ofWords_nil : Options.ofWords [] = .none := rfl

section

variable {reading : Reading} (h : reading.Documented)
include h

theorem options_words {command : Command} {before words : List Word}
    (hfits : ∀ word ∈ words, word.Fits command)
    (honce : ((before ++ words).map Word.subject).Nodup) (rest : List String) :
    reading.options command (.ofWords before) (words.flatMap Word.args ++ rest) =
      reading.options command (.ofWords (before ++ words)) rest := by
  induction words generalizing before with
  | nil => simp
  | cons word words ih =>
    have hsplit : before ++ word :: words = before ++ [word] ++ words := by simp
    rw [hsplit] at honce ⊢
    have hnew : word.subject ∉ before.map Word.subject := by
      have hfront := honce
      rw [List.map_append, List.map_append, List.append_assoc] at hfront
      exact fun hmem => (List.disjoint_of_nodup_append hfront) hmem (by simp)
    rw [List.flatMap_cons, List.append_assoc, h.word (hfits word (by simp)), add?_ofWords,
      if_neg hnew]
    exact ih (fun other hother => hfits other (by simp [hother])) honce

theorem exists_words_of_options {command run : Command} {before : List Word} {args : List String}
    {read : Options} (hrun : reading.options command (.ofWords before) args = .run run read)
    (honce : (before.map Word.subject).Nodup) :
    run = command ∧ ∃ words, (args = words.flatMap Word.args ∨
        args = words.flatMap Word.args ++ ["--"]) ∧
      (∀ word ∈ words, word.Fits command) ∧ ((before ++ words).map Word.subject).Nodup ∧
      read = .ofWords (before ++ words) := by
  induction hlength : args.length using Nat.strongRecOn generalizing args before with
  | ind length ih =>
    cases args with
    | nil =>
      rw [h.done] at hrun
      cases hrun
      exact ⟨rfl, [], .inl rfl, by simp, by simpa using honce, by simp⟩
    | cons arg rest =>
      obtain ⟨rfl, rfl⟩ | ⟨word, tail, hfits, hargs⟩ := h.wordFirst hrun
      · rw [h.mark] at hrun
        cases hrun
        exact ⟨rfl, [], .inr rfl, by simp, by simpa using honce, by simp⟩
      · rw [hargs, h.word hfits, add?_ofWords] at hrun
        split at hrun
        · cases hrun
        rename_i hnew
        have hword : 0 < word.args.length := by cases word <;> simp [Word.args]
        have hshort : tail.length < length := by
          have := congrArg List.length hargs
          simp only [List.length_append] at this
          omega
        have honce' : ((before ++ [word]).map Word.subject).Nodup := by
          rw [List.map_append]
          exact honce.append (by simp) (by simpa using hnew)
        obtain ⟨hcommand, words, hline, hwords, hnodup, hread⟩ := ih _ hshort hrun honce' rfl
        refine ⟨hcommand, word :: words, ?_, ?_, by simpa using hnodup, by simpa using hread⟩
        · rw [hargs, List.flatMap_cons, List.append_assoc]
          exact hline.imp (congrArg _) (congrArg _)
        · simpa [hfits] using hwords

/-- The lines that are carried out are those that name a command and then its options, in any
    order and spelling, with nothing said twice. -/
theorem line_eq_run_iff {args : List String} {command : Command} {options : Options} :
    reading.line args = .run command options ↔
      ∃ words, Writes args command words ∧ options = .ofWords words := by
  constructor
  · intro hrun
    obtain ⟨named, rest, rfl⟩ := h.commandFirst hrun
    rw [h.command, ← ofWords_nil] at hrun
    obtain ⟨rfl, words, hline, hfits, honce, hread⟩ :=
      exists_words_of_options h hrun List.nodup_nil
    exact ⟨words, ⟨hline.imp (congrArg _) (congrArg _), hfits, honce⟩, hread⟩
  · rintro ⟨words, hwrites, rfl⟩
    have hread : ∀ rest, reading.options command .none (words.flatMap Word.args ++ rest) =
        reading.options command (.ofWords ([] ++ words)) rest := by
      rw [← ofWords_nil]
      exact options_words h hwrites.fits hwrites.once
    rw [List.nil_append] at hread
    rcases hwrites.line with rfl | rfl
    · have hall := hread []
      rwa [List.append_nil, h.done, ← h.command] at hall
    · rw [h.command, hread ["--"], h.mark]

end

end HartRuntime.Launch
