import HartRuntime.Launch.Line
import HartRuntime.Proofs.Launch.Words

namespace HartRuntime.Launch

theorem isValue_iff {arg : String} : isValue arg ↔ Independent arg := by
  rw [isValue, Independent, Bool.or_eq_true, decide_eq_true_iff]
  refine or_congr_right ?_
  cases arg.toList with
  | nil => simp
  | cons c rest =>
    have hminus : ('-' == c) = false ↔ c ≠ '-' := by rw [beq_eq_false_iff_ne, ne_comm]
    simpa [List.isPrefixOf] using hminus

theorem joinedValue?_eq_some_iff {option arg value : String} :
    joinedValue? option arg = some value ↔ arg = option ++ "=" ++ value := by
  rw [joinedValue?, Option.map_eq_some_iff]
  constructor
  · rintro ⟨rest, hrest, rfl⟩
    apply String.toList_injective
    rw [← List.isPrefixOf?_eq_some_iff_append_eq.mp hrest]
    simp
  · rintro rfl
    exact ⟨value.toList, List.isPrefixOf?_eq_some_iff_append_eq.mpr (by simp), by simp⟩

theorem joined_ne {setting : Setting} {value text : String} (htext : '=' ∉ text.toList) :
    setting.name ++ "=" ++ value ≠ text := by
  rintro rfl
  simp at htext

/-- An option with a value joined to it is told from the other option by its name. -/
theorem joinedValue?_name (option setting : Setting) (value : String) :
    joinedValue? option.name (setting.name ++ "=" ++ value) =
      if setting = option then some value else none := by
  split
  · rename_i heq
    rw [joinedValue?_eq_some_iff, heq]
  · rename_i hne
    rw [Option.eq_none_iff_forall_ne_some]
    intro other hsome
    have hlist := congrArg String.toList (joinedValue?_eq_some_iff.mp hsome)
    cases option <;> cases setting <;> simp [Setting.name] at hlist hne

theorem findSome?_joinedValue? {command : Command} {setting : Setting}
    (hsetting : setting ∈ command.settings) (value : String) :
    command.settings.findSome? (fun option =>
      (joinedValue? option.name (setting.name ++ "=" ++ value)).map (option, ·)) =
        some (setting, value) := by
  simp only [joinedValue?_name]
  cases command <;> cases setting <;> simp_all [Command.settings]

theorem name_plain (setting : Setting) :
    setting.name ≠ "--" ∧ setting.name ≠ "--release" ∧ asksHelp setting.name = false := by
  cases setting <;> decide

theorem name_ne_joined (option setting : Setting) (value : String) :
    option.name ≠ setting.name ++ "=" ++ value := by
  have hname : '=' ∉ option.name.toList := by cases option <;> decide
  exact (joined_ne hname).symm

/-- An option with a value joined to it is told from the arguments that stand for themselves. -/
theorem joined_plain (setting : Setting) (value : String) :
    setting.name ++ "=" ++ value ≠ "--" ∧ setting.name ++ "=" ++ value ≠ "--release" ∧
      asksHelp (setting.name ++ "=" ++ value) = false := by
  refine ⟨joined_ne (by decide), joined_ne (by decide), ?_⟩
  rw [asksHelp, decide_eq_false (joined_ne (by decide)), Bool.false_or]
  cases setting <;> simp [Setting.name, List.isPrefixOf]

/-- One word is read as a whole. What it says is added to what was read before it. -/
theorem request_word {command : Command} {word : Word} (hfits : word.Fits command)
    (options : Options) (rest : List String) :
    command.request options (word.args ++ rest) =
      (options.add? word).elim .refused (command.request · rest) := by
  cases word with
  | release =>
    rw [Word.args, List.singleton_append, Command.request]
    by_cases hrelease : options.release <;> simp [Options.add?, hrelease]
  | joined setting value =>
    have hfind : command.settings.find? (·.name = setting.name ++ "=" ++ value) = none := by
      rw [List.find?_eq_none]
      intro option _
      simpa using name_ne_joined option setting value
    have hplain := joined_plain setting value
    rw [Word.args, List.singleton_append, Command.request]
    simp only [hplain, hfind, findSome?_joinedValue? (hfits.2 _ rfl), if_false, Bool.false_eq_true,
      Options.add?]
    cases options.set? setting value <;> rfl
  | separate setting value =>
    have hsetting := hfits.2 _ rfl
    have hvalue := isValue_iff.mpr hfits.1
    have hfind : command.settings.find? (·.name = setting.name) = some setting := by
      cases command <;> cases setting <;> simp_all [Command.settings, Setting.name]
    have hplain := name_plain setting
    rw [Word.args, List.cons_append, List.singleton_append, Command.request]
    simp only [hplain, hfind, hvalue, if_false, if_true, Bool.false_eq_true, Options.add?]
    cases options.set? setting value <;> rfl

/-- An argument that no option of the command accounts for ends the reading. -/
theorem request_of_unknown {command : Command} {arg : String}
    (hplain : arg ≠ "--" ∧ arg ≠ "--release" ∧ asksHelp arg = false)
    (hunknown : ∀ option ∈ command.settings,
      option.name ≠ arg ∧ joinedValue? option.name arg = none)
    (options : Options) (rest : List String) :
    command.request options (arg :: rest) = .refused := by
  have hfind : command.settings.find? (·.name = arg) = none := by
    rw [List.find?_eq_none]
    intro option hoption
    simpa using (hunknown option hoption).1
  have hjoined : command.settings.findSome? (fun option =>
      (joinedValue? option.name arg).map (option, ·)) = none := by
    rw [List.findSome?_eq_none_iff]
    intro option hoption
    rw [(hunknown option hoption).2, Option.map_none]
  rw [Command.request]
  simp only [hplain, hfind, hjoined, if_false, Bool.false_eq_true]

theorem request_of_not_fits {command : Command} {word : Word} (hplain : word.Plain)
    (hfits : ¬ word.Fits command) (options : Options) (rest : List String) :
    command.request options (word.args ++ rest) = .refused := by
  have hforeign : ∃ setting, word.subject = some setting ∧ setting ∉ command.settings := by
    by_contra hnone
    push Not at hnone
    exact hfits ⟨hplain, hnone⟩
  obtain ⟨setting, hsubject, hsetting⟩ := hforeign
  have hother : ∀ option ∈ command.settings, setting ≠ option := by
    rintro _ hoption rfl
    exact hsetting hoption
  cases word with
  | release => cases hsubject
  | joined option value =>
    cases hsubject
    refine request_of_unknown (joined_plain setting value) (fun option hoption => ⟨?_, ?_⟩) _ _
    · exact name_ne_joined option setting value
    · rw [joinedValue?_name, if_neg (hother option hoption)]
  | separate option value =>
    cases hsubject
    refine request_of_unknown (name_plain setting) (fun option hoption => ⟨?_, ?_⟩) _ _
    · have hne := hother option hoption
      cases option <;> cases setting <;> simp_all [Setting.name]
    · apply Option.eq_none_iff_forall_ne_some.mpr
      intro text hsome
      exact name_ne_joined setting option text (joinedValue?_eq_some_iff.mp hsome)

/-- What is read in front of a line that is carried out: the mark that ends the options, with
    nothing behind it, or a word. -/
theorem exists_word_of_request {command run : Command} {options read : Options} {arg : String}
    {rest : List String} (hrun : command.request options (arg :: rest) = .run run read) :
    (arg = "--" ∧ rest = []) ∨
      ∃ (word : Word) (tail : List String), word.Fits command ∧
        arg :: rest = word.args ++ tail := by
  rw [Command.request] at hrun
  by_cases hend : arg = "--"
  · rw [if_pos hend] at hrun
    left
    cases rest with
    | nil => exact ⟨hend, rfl⟩
    | cons => simp at hrun
  right
  rw [if_neg hend] at hrun
  by_cases hrelease : arg = "--release"
  · exact ⟨.release, rest, ⟨trivial, nofun⟩, by simp [Word.args, hrelease]⟩
  rw [if_neg hrelease] at hrun
  split at hrun
  · cases hrun
  split at hrun
  · rename_i setting hfind
    have hname : setting.name = arg := by simpa using List.find?_some hfind
    cases rest with
    | nil => cases hrun
    | cons value tail =>
      by_cases hvalue : isValue value
      · have hown := List.mem_of_find?_eq_some hfind
        exact ⟨.separate setting value, tail,
          ⟨isValue_iff.mp hvalue, fun _ hsubject => Option.some.inj hsubject ▸ hown⟩,
          by simp [Word.args, hname]⟩
      · simp [hvalue] at hrun
  · split at hrun
    · rename_i setting value hfind
      obtain ⟨option, hoption, hjoined⟩ := List.exists_of_findSome?_eq_some hfind
      obtain ⟨joined, hvalue, hpair⟩ := Option.map_eq_some_iff.mp hjoined
      cases hpair
      refine ⟨.joined setting value, rest,
        ⟨trivial, fun _ hsubject => Option.some.inj hsubject ▸ hoption⟩, ?_⟩
      simp [Word.args, joinedValue?_eq_some_iff.mp hvalue]
    · cases hrun

theorem ofName?_eq_some_iff {name : String} {command : Command} :
    Command.ofName? name = some command ↔ name = command.name := by
  constructor
  · unfold Command.ofName?
    split
    · rintro ⟨⟩
      assumption
    · split
      · rintro ⟨⟩
        assumption
      · rintro ⟨⟩
  · rintro rfl
    cases command <;> decide

theorem reader_name (command : Command) (rest : List String) :
    reader (command.name :: rest) = command.request .none rest := by
  have hname : Command.ofName? command.name = some command := ofName?_eq_some_iff.mpr rfl
  simp only [reader, hname]

theorem exists_name_of_reader {args : List String} {command : Command} {options : Options}
    (hrun : reader args = .run command options) :
    ∃ (named : Command) (rest : List String), args = named.name :: rest := by
  cases args with
  | nil => cases hrun
  | cons arg rest =>
    cases hname : Command.ofName? arg with
    | some named => exact ⟨named, rest, by rw [ofName?_eq_some_iff.mp hname]⟩
    | none =>
      simp only [reader, hname] at hrun
      split at hrun
      · split at hrun
        · cases hrun
        · split at hrun <;> cases hrun
        · cases hrun
      · split at hrun <;> cases hrun

/-- The reading of the reader that the commands are run with. -/
def reading : Reading where
  line := reader
  options := Command.request

theorem documented_reading : reading.Documented where
  command := reader_name
  commandFirst := exists_name_of_reader
  done _ _ := rfl
  mark _ _ := by
    show Command.request _ _ ["--"] = _
    rw [Command.request, if_pos rfl, List.isEmpty_nil, if_pos rfl]
  word := request_word
  foreign := request_of_not_fits
  wordFirst := exists_word_of_request

end HartRuntime.Launch
