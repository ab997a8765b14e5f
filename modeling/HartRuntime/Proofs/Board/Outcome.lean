import Mathlib
import HartRuntime.Board.Build
import HartRuntime.Proofs.Board.Reader
import HartRuntime.Proofs.Board.Sections

namespace HartRuntime.Board

open Toml (Value Entries)

/-- A text that is no document, or one with a section that is not read as a board. -/
def Malformed (reading : Reading) (text : String) : Prop :=
  reading.document? text = none ∨ ∃ sections, reading.document? text = some sections ∧
    ∃ entry ∈ sections, reading.board? entry.2 = none

/-- A configuration that reads as these sections, all of which fit. -/
structure Configures (reading : Reading) (config : Option String) (sections : Entries) : Prop where
  document : config.bind reading.document? = some sections
  fitting : reading.Fitting sections

/-- The section of this name is read as this board, in a configuration in which all fit. -/
def Selects (reading : Reading) (config : Option String) (name : String) (board : Board) : Prop :=
  ∃ sections record, Configures reading config sections ∧ (name, record) ∈ sections ∧
    reading.board? record = some board

/-- The ways in which the search for a board can end. -/
inductive Ends (reading : Reading) (config : Option String) (name : String) :
    Except Error Board → Prop where
  | missing (hmissing : config = none) : Ends reading config name (.error .missing)
  | malformed {text : String} (htext : config = some text) (hmalformed : Malformed reading text) :
      Ends reading config name (.error .malformed)
  | unknown {sections : Entries} (hconfig : Configures reading config sections)
      (habsent : ∀ record, (name, record) ∉ sections) :
      Ends reading config name (.error (.unknownPlatform name))
  | found {board : Board} (hboard : Selects reading config name board) :
      Ends reading config name (.ok board)

/-- The files for a board, and what is told with them. -/
def files (name : String) (targetOs : Option String) (outDir : String) (board : Board) : Files where
  constants := constants name board
  memoryMap := memoryMap board
  linkerScript := Image.script
  directives := directives outDir targetOs

/-- What a build that succeeds does, in order. -/
def Files.effects (files : Files) (outDir : String) : List Effect :=
  [.write (outDir ++ "/platform.rs") files.constants, .write (outDir ++ "/memory.x") files.memoryMap,
    .write (outDir ++ "/linker.ld") files.linkerScript] ++ files.directives.map .tell

variable {reading : Reading} {config platform targetOs : Option String} {outDir : String}

theorem malformed_of_not_fitting {text : String} {sections : Entries}
    (hdocument : reading.document? text = some sections) (hfitting : ¬ reading.Fitting sections) :
    Malformed reading text := by
  simp only [Reading.Fitting, not_forall, not_exists] at hfitting
  obtain ⟨entry, hentry, hnone⟩ := hfitting
  exact .inr ⟨sections, hdocument, entry, hentry, Option.eq_none_iff_forall_ne_some.mpr hnone⟩

theorem Configures.document_eq {text : String} {sections : Entries}
    (hconfig : Configures reading (some text) sections) : reading.document? text = some sections := by
  have hdocument := hconfig.document
  rwa [Option.bind_some] at hdocument

theorem exists_ends (reading : Reading) (config : Option String) (name : String) :
    ∃ outcome, Ends reading config name outcome := by
  cases config with
  | none => exact ⟨_, .missing rfl⟩
  | some text =>
    cases hdocument : reading.document? text with
    | none => exact ⟨_, .malformed rfl (.inl hdocument)⟩
    | some sections =>
      by_cases hfitting : reading.Fitting sections
      · have hconfig : Configures reading (some text) sections := ⟨hdocument, hfitting⟩
        by_cases habsent : ∀ record, (name, record) ∉ sections
        · exact ⟨_, .unknown hconfig habsent⟩
        · simp only [not_forall, not_not] at habsent
          obtain ⟨record, hrecord⟩ := habsent
          obtain ⟨board, hboard⟩ := hfitting _ hrecord
          exact ⟨_, .found ⟨sections, record, hconfig, hrecord, hboard⟩⟩
      · exact ⟨_, .malformed rfl (malformed_of_not_fitting hdocument hfitting)⟩

section

variable (h : reading.Documented)
include h

theorem Configures.wellFormed {sections : Entries} (hconfig : Configures reading config sections) :
    sections.WellFormed := by
  obtain ⟨text, -, htext⟩ := Option.bind_eq_some_iff.mp hconfig.document
  exact h.wellFormed htext

theorem generate_of_malformed {text : String} (hmalformed : Malformed reading text) :
    generate reading.boards? (some text) platform targetOs outDir = .error .malformed := by
  have hnone : reading.boards? text = none := by
    rcases hmalformed with hdocument | ⟨sections, hdocument, entry, hentry, hnone⟩
    · rw [h.boards, hdocument, Option.bind_none]
    · refine h.boards?_of_not_fitting hdocument fun hfitting => ?_
      obtain ⟨board, hboard⟩ := hfitting entry hentry
      rw [hnone] at hboard
      cases hboard
  simp only [generate, hnone]

theorem generate_of_configures {sections : Entries}
    (hconfig : Configures reading config sections) :
    generate reading.boards? config platform targetOs outDir =
      match reading.named? sections (platform.getD defaultName) with
      | none => .error (.unknownPlatform (platform.getD defaultName))
      | some board => .ok (files (platform.getD defaultName) targetOs outDir board) := by
  obtain ⟨text, rfl, hdocument⟩ := Option.bind_eq_some_iff.mp hconfig.document
  simp only [generate, h.boards?_of_fitting hdocument hconfig.fitting]
  cases reading.named? sections (platform.getD defaultName) <;> rfl

theorem Ends.generate_eq {outcome : Except Error Board}
    (hends : Ends reading config (platform.getD defaultName) outcome) :
    generate reading.boards? config platform targetOs outDir =
      outcome.map (files (platform.getD defaultName) targetOs outDir) := by
  cases hends with
  | missing hmissing =>
    subst hmissing
    rfl
  | malformed htext hmalformed =>
    subst htext
    exact generate_of_malformed h hmalformed
  | unknown hconfig habsent =>
    have hnone :=
      (Reading.named?_eq_none_iff (hconfig.wellFormed h) hconfig.fitting).mpr habsent
    rw [generate_of_configures h hconfig, hnone]
    rfl
  | found hboard =>
    obtain ⟨sections, record, hconfig, hrecord, hread⟩ := hboard
    have hsome : reading.named? sections (platform.getD defaultName) = some _ :=
      (Entries.lookup_bind_eq_some_iff (hconfig.wellFormed h)).mpr ⟨record, hrecord, hread⟩
    rw [generate_of_configures h hconfig, hsome]
    rfl

theorem generate_eq_iff {result : Except Error Files} :
    generate reading.boards? config platform targetOs outDir = result ↔
      ∃ outcome, Ends reading config (platform.getD defaultName) outcome ∧
        result = outcome.map (files (platform.getD defaultName) targetOs outDir) := by
  constructor
  · rintro rfl
    obtain ⟨outcome, hends⟩ := exists_ends reading config (platform.getD defaultName)
    exact ⟨outcome, hends, hends.generate_eq h⟩
  · rintro ⟨outcome, hends, rfl⟩
    exact hends.generate_eq h

theorem generate_eq_missing_iff :
    generate reading.boards? config platform targetOs outDir = .error .missing ↔
      config = none := by
  rw [generate_eq_iff h]
  constructor
  · rintro ⟨_, hmissing | ⟨htext, hmalformed⟩ | ⟨hconfig, habsent⟩ | hboard, hresult⟩ <;>
      cases hresult
    exact hmissing
  · intro hmissing
    exact ⟨_, .missing hmissing, rfl⟩

theorem generate_eq_malformed_iff :
    generate reading.boards? config platform targetOs outDir = .error .malformed ↔
      ∃ text, config = some text ∧ Malformed reading text := by
  rw [generate_eq_iff h]
  constructor
  · rintro ⟨_, hmissing | ⟨htext, hmalformed⟩ | ⟨hconfig, habsent⟩ | hboard, hresult⟩ <;>
      cases hresult
    exact ⟨_, htext, hmalformed⟩
  · rintro ⟨text, htext, hmalformed⟩
    exact ⟨_, .malformed htext hmalformed, rfl⟩

theorem generate_eq_unknownPlatform_iff {unknown : String} :
    generate reading.boards? config platform targetOs outDir = .error (.unknownPlatform unknown) ↔
      unknown = platform.getD defaultName ∧
        ∃ sections, Configures reading config sections ∧
          ∀ record, (unknown, record) ∉ sections := by
  rw [generate_eq_iff h]
  constructor
  · rintro ⟨_, hmissing | ⟨htext, hmalformed⟩ | ⟨hconfig, habsent⟩ | hboard, hresult⟩ <;>
      cases hresult
    exact ⟨rfl, _, hconfig, habsent⟩
  · rintro ⟨rfl, sections, hconfig, habsent⟩
    exact ⟨_, .unknown hconfig habsent, rfl⟩

theorem generate_eq_ok_iff {built : Files} :
    generate reading.boards? config platform targetOs outDir = .ok built ↔
      ∃ board, Selects reading config (platform.getD defaultName) board ∧
        built = files (platform.getD defaultName) targetOs outDir board := by
  rw [generate_eq_iff h]
  constructor
  · rintro ⟨_, hmissing | ⟨htext, hmalformed⟩ | ⟨hconfig, habsent⟩ | hboard, hresult⟩ <;>
      cases hresult
    exact ⟨_, hboard, rfl⟩
  · rintro ⟨board, hboard, rfl⟩
    exact ⟨_, .found hboard, rfl⟩

theorem generate_eq_of_eqvGen {other : Option String} {before after : Entries}
    (hbefore : config.bind reading.document? = some before)
    (hafter : other.bind reading.document? = some after)
    (hedits : Relation.EqvGen (DocumentEdit reading (platform.getD defaultName)) before after) :
    generate reading.boards? other platform targetOs outDir =
      generate reading.boards? config platform targetOs outDir := by
  have halike := alike_of_eqvGen h hedits
  obtain ⟨text, rfl, hdocument⟩ := Option.bind_eq_some_iff.mp hbefore
  obtain ⟨changed, rfl, hchanged⟩ := Option.bind_eq_some_iff.mp hafter
  have hwell := h.wellFormed hdocument
  by_cases hfitting : reading.Fitting before
  · have hfirst : Configures reading (some text) before := ⟨hdocument, hfitting⟩
    have hsecond : Configures reading (some changed) after :=
      ⟨hchanged, (halike.fitting_iff hwell).mp hfitting⟩
    rw [generate_of_configures h hfirst, generate_of_configures h hsecond, halike.named?_eq hwell]
  · have hunfitting : ¬ reading.Fitting after :=
      fun hfits => hfitting ((halike.fitting_iff hwell).mpr hfits)
    rw [generate_of_malformed h (malformed_of_not_fitting hdocument hfitting),
      generate_of_malformed h (malformed_of_not_fitting hchanged hunfitting)]

end

/-- The target changes nothing but the directives. -/
theorem generate_targetOs (boards? : Reader) (config platform targetOs other : Option String)
    (outDir : String) :
    generate boards? config platform other outDir =
      (generate boards? config platform targetOs outDir).map fun built =>
        { built with directives := directives outDir other } := by
  cases config with
  | none => rfl
  | some text =>
    simp only [generate]
    cases boards? text with
    | none => rfl
    | some boards =>
      dsimp only
      cases boards (platform.getD defaultName) <;> rfl

theorem run_tell (directives : List String) (log : List Effect) :
    (directives.forM fun directive => perform (.tell directive)).run.run log =
      (.ok (), log ++ directives.map .tell) := by
  induction directives generalizing log with
  | nil =>
    rw [List.map_nil, List.append_nil]
    rfl
  | cons directive rest ih =>
    have hrest := ih (log ++ [.tell directive])
    rw [List.append_assoc] at hrest
    exact hrest

/-- A build that fails does so before its first effect. -/
theorem run_build (boards? : Reader) (config platform targetOs : Option String) (outDir : String)
    (log : List Effect) :
    (build boards? config platform targetOs outDir).run.run log =
      match generate boards? config platform targetOs outDir with
      | .error error => (.error error, log)
      | .ok built => (.ok (), log ++ built.effects outDir) := by
  unfold build
  cases generate boards? config platform targetOs outDir with
  | error error => rfl
  | ok built =>
    refine (run_tell built.directives _).trans ?_
    simp [Files.effects]

/-- Two directives for the linker come first, on bare metal only; four stand there always. -/
theorem exists_directives (outDir : String) :
    ∃ link rerun : List String, link.length = 2 ∧ rerun.length = 4 ∧
      ∀ targetOs, directives outDir targetOs =
        if targetOs = some "none" then link ++ rerun else rerun := by
  refine ⟨(directives outDir (some "none")).take 2, directives outDir none, rfl, rfl, ?_⟩
  intro targetOs
  split_ifs with hbare
  · subst hbare
    rfl
  · rw [directives, if_neg hbare]
    rfl

/-- How a build ends is decided by the configuration and the chosen name, in this order: it is
    missing, malformed, without a section of that name, or has one, which is read as a board.
    Only in the last case is anything written or told, and what is written follows from the
    name and the board. The target decides on the directives only, and changes to what is not
    read of the configuration make no difference. What is read of a table are the values under the
    keys of its fields, none of which may be missing. -/
theorem generate_outcomes {reading : Reading} (hreading : reading.Documented)
    (config platform targetOs : Option String) (outDir : String) :
    let name := platform.getD "newlib"
    let outcome := generate reading.boards? config platform targetOs outDir
    (outcome = .error .missing ↔ config = none) ∧
    (outcome = .error .malformed ↔ ∃ text, config = some text ∧ Malformed reading text) ∧
    (∀ unknown, outcome = .error (.unknownPlatform unknown) ↔
      unknown = name ∧ ∃ sections, Configures reading config sections ∧
        ∀ record, (unknown, record) ∉ sections) ∧
    (∀ built, outcome = .ok built ↔
      ∃ board, Selects reading config name board ∧ built = files name targetOs outDir board) ∧
    (∀ log, (build reading.boards? config platform targetOs outDir).run.run log =
      match outcome with
      | .error error => (.error error, log)
      | .ok built => (.ok (), log ++ built.effects outDir)) ∧
    (∀ other, generate reading.boards? config platform other outDir = outcome.map fun built =>
      { built with directives := directives outDir other }) ∧
    (∃ link rerun : List String, link.length = 2 ∧ rerun.length = 4 ∧
      ∀ other, directives outDir other = if other = some "none" then link ++ rerun else rerun) ∧
    (∀ other before after, config.bind reading.document? = some before →
      other.bind reading.document? = some after →
      Relation.EqvGen (DocumentEdit reading name) before after →
      generate reading.boards? other platform targetOs outDir = outcome) ∧
    ∀ origin (entries : Entries), entries.WellFormed →
      (∀ board, reading.board? (.table origin entries) = some board ↔
        Describes reading entries board) ∧
      ∀ region, reading.region? (.table origin entries) = some region ↔
        DescribesRegion entries region := by
  intro name outcome
  refine ⟨generate_eq_missing_iff hreading, generate_eq_malformed_iff hreading,
    fun _ => generate_eq_unknownPlatform_iff hreading, fun _ => generate_eq_ok_iff hreading,
    ?_, ?_, ?_, ?_, ?_⟩
  · exact run_build reading.boards? config platform targetOs outDir
  · exact fun other => generate_targetOs reading.boards? config platform targetOs other outDir
  · exact exists_directives outDir
  · exact fun other before after hbefore hafter hedits =>
      generate_eq_of_eqvGen hreading hbefore hafter hedits
  · exact fun origin entries hentries => ⟨fun board => hreading.board?_eq_some_iff hentries origin,
      fun region => hreading.region?_eq_some_iff hentries origin⟩

/-- A section of a configuration, with room for more lines. -/
def sectionText (name width more : String) : String :=
  "[" ++ name ++ "]\nmtime=1\nmtimecmp=2\nuart=3\nuart-width=\"" ++ width ++ "\"\n" ++ more ++
    "tick-period=4\nflash=\x7borigin=5,length=6\x7d\nram=\x7borigin=7,length=8\x7d\n"

/-- The table of such a section. -/
def sectionTable (width : String) (more : Entries) : Entries :=
  [("mtime", .integer 1), ("mtimecmp", .integer 2), ("uart", .integer 3),
    ("uart-width", .text width)] ++ more ++ [("tick-period", .integer 4),
    ("flash", .table .inline [("origin", .integer 5), ("length", .integer 6)]),
    ("ram", .table .inline [("origin", .integer 7), ("length", .integer 8)])]

/-- A configuration with one section. -/
def plain : String :=
  sectionText "newlib" "byte" ""

/-- One with another section in front, which has a key that is not read. -/
def extended : String :=
  sectionText "qemu" "word" "a=1\n" ++ plain

theorem configures_plain :
    Configures Board.reading (some plain) [("newlib", .table .header (sectionTable "byte" []))] where
  document := by cbv
  fitting := by
    simp only [Reading.Fitting, List.forall_mem_cons]
    exact ⟨⟨_, rfl⟩, by simp⟩

theorem configures_extended :
    Configures Board.reading (some extended)
      [("qemu", .table .header (sectionTable "word" [("a", .integer 1)])),
        ("newlib", .table .header (sectionTable "byte" []))] where
  document := by cbv
  fitting := by
    simp only [Reading.Fitting, List.forall_mem_cons]
    exact ⟨⟨_, rfl⟩, ⟨_, rfl⟩, by simp⟩

/-- A build that succeeds, with all that it leaves behind; the same with another section in front;
    and one that fails because of a section, although none is chosen. -/
theorem generate_outcomes_extended :
    Board.reading.Documented ∧
    generate reader (some plain) none (some "none") "out" = .ok {
      constants := "// Auto-generated file from build.rs\n// Do not edit manually\n\n" ++
        "pub const PLATFORM_NAME: &str = \"newlib\";\n\n" ++
        "pub const PLATFORM: platform::Platform = unsafe \x7b\n    " ++
        "platform::Platform::new(0x1, 0x2, 0x3, platform::Width::Byte, 4)\n\x7d;\n"
      memoryMap := "MEMORY\n\x7b\n    FLASH : ORIGIN = 0x5, LENGTH = 0x6\n    " ++
        "RAM : ORIGIN = 0x7, LENGTH = 0x8\n\x7d\n"
      linkerScript := Image.script
      directives := ["cargo:rustc-link-search=out", "cargo:rustc-link-arg=-Tout/linker.ld",
        "cargo:rerun-if-changed=build.rs", "cargo:rerun-if-changed=platform.toml",
        "cargo:rerun-if-env-changed=PLATFORM", "cargo:rerun-if-env-changed=LOG"] } ∧
    generate reader (some extended) none (some "none") "out" =
      generate reader (some plain) none (some "none") "out" ∧
    generate reader (some "[bare]\n") none none "out" = .error .malformed := by
  refine ⟨documented_reading, ?_, ?_, ?_⟩
  · obtain ⟨-, -, -, hok, -⟩ :=
      generate_outcomes documented_reading (some plain) none (some "none") "out"
    refine (hok _).mpr ⟨_, ⟨_, _, configures_plain, List.mem_singleton.mpr rfl, rfl⟩, ?_⟩
    rw [files, Files.mk.injEq]
    exact ⟨by decide +kernel, by decide +kernel, rfl, by decide +kernel⟩
  · obtain ⟨-, -, -, -, -, -, -, hedits, -⟩ :=
      generate_outcomes documented_reading (some plain) none (some "none") "out"
    have hsection := (configures_extended.wellFormed documented_reading).values _
      (List.mem_cons_self)
    exact hedits _ _ _ configures_plain.document configures_extended.document
      (.rel _ _ (.added (by simp) hsection ⟨by decide, _, rfl⟩))
  · obtain ⟨-, hmalformed, -⟩ :=
      generate_outcomes documented_reading (some "[bare]\n") none none "out"
    have hdocument : Toml.parse? "[bare]\n" = some [("bare", .table .header [])] := by cbv
    exact hmalformed.mpr ⟨_, rfl, .inr ⟨_, hdocument, _, List.mem_cons_self, rfl⟩⟩

end HartRuntime.Board
