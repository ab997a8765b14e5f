import HartRuntime.Proofs.Board.Outcome
import HartRuntime.Proofs.Text.Token

namespace HartRuntime.Board

open Text (Token Scans Scanner)

/-- The arguments of a platform: its registers in hexadecimal, the width by its name, and the
    period in decimal. -/
def argumentTokens (board : Board) : List Token :=
  [.number 16 board.mtime.toNat, .symbol ',', .number 16 board.mtimecmp.toNat, .symbol ',',
    .number 16 board.uart.toNat, .symbol ',', .word "platform".toList, .symbol ':', .symbol ':',
    .word "Width".toList, .symbol ':', .symbol ':', .word (widthName board.width).toList,
    .symbol ',', .number 10 board.period.toNat]

/-- Two constants: the name as a text, and the platform. -/
def constantTokens (name : String) (board : Board) : List Token :=
  [.word "pub".toList, .word "const".toList, .word "PLATFORM_NAME".toList, .symbol ':',
    .symbol '&', .word "str".toList, .symbol '=', .literal name.toList, .symbol ';',
    .word "pub".toList, .word "const".toList, .word "PLATFORM".toList, .symbol ':',
    .word "platform".toList, .symbol ':', .symbol ':', .word "Platform".toList, .symbol '=',
    .word "unsafe".toList, .symbol '\x7b', .word "platform".toList, .symbol ':', .symbol ':',
    .word "Platform".toList, .symbol ':', .symbol ':', .word "new".toList, .symbol '('] ++
  argumentTokens board ++ [.symbol ')', .symbol '\x7d', .symbol ';']

def regionTokens (name : String) (region : Region) : List Token :=
  [.word name.toList, .symbol ':', .word "ORIGIN".toList, .symbol '=',
    .number 16 region.origin.toNat, .symbol ',', .word "LENGTH".toList, .symbol '=',
    .number 16 region.length.toNat]

def memoryTokens (board : Board) : List Token :=
  [.word "MEMORY".toList, .symbol '\x7b'] ++ regionTokens "FLASH" board.flash ++
    regionTokens "RAM" board.ram ++ [.symbol '\x7d']

theorem toList_hexadecimal (value : UInt64) :
    (hexadecimal value).toList =
      '0' :: 'x' :: (Numeral.codes 16 value.toNat).map Char.ofNat := by
  simp [hexadecimal, Numeral.text]

theorem scans_hexadecimal {c : Char} {code : List Char} {tokens : List Token}
    (hcode : Scans (c :: code) tokens) (hc : Text.isWordChar c = false) (value : UInt64) :
    Scans ((hexadecimal value).toList ++ c :: code) (.number 16 value.toNat :: tokens) := by
  rw [toList_hexadecimal]
  exact hcode.hexadecimal hc value.toNat

theorem scans_argument (value : UInt64) :
    Scans ((hexadecimal value).toList ++ ", ".toList) [.number 16 value.toNat, .symbol ','] := by
  have hcomma : Scans (',' :: [' ']) [.symbol ','] := fun _ _ => rfl
  exact scans_hexadecimal hcomma rfl value

theorem scans_lastRegister (value : UInt64) :
    Scans ((hexadecimal value).toList ++ ", platform::Width::".toList)
      [.number 16 value.toNat, .symbol ',', .word "platform".toList, .symbol ':', .symbol ':',
        .word "Width".toList, .symbol ':', .symbol ':'] := by
  have hpath : Scans (',' :: " platform::Width::".toList)
      [.symbol ',', .word "platform".toList, .symbol ':', .symbol ':', .word "Width".toList,
        .symbol ':', .symbol ':'] := fun _ _ => rfl
  exact scans_hexadecimal hpath rfl value

theorem scans_width (width : Uart.Width) :
    Scans ((widthName width).toList ++ ", ".toList)
      [.word (widthName width).toList, .symbol ','] := by
  cases width <;> exact fun _ _ => rfl

theorem scans_period (value : UInt64) :
    Scans ((Numeral.text 10 value.toNat).toList ++ ")\n\x7d;\n".toList)
      [.number 10 value.toNat, .symbol ')', .symbol '\x7d', .symbol ';'] := by
  rw [Numeral.text, String.toList_ofList]
  have hend : Scans (')' :: ['\n', '\x7d', ';', '\n']) [.symbol ')', .symbol '\x7d', .symbol ';'] :=
    fun _ _ => rfl
  exact hend.decimal rfl value.toNat

theorem scans_regionLine {name : String} (hname : Scans ("    " ++ name ++ " : ORIGIN = ").toList
      [.word name.toList, .symbol ':', .word "ORIGIN".toList, .symbol '=']) (region : Region) :
    Scans (regionLine name region).toList (regionTokens name region) := by
  have hlength : Scans "LENGTH = ".toList [.word "LENGTH".toList, .symbol '='] := fun _ _ => rfl
  have hline : Scans ('\n' :: []) [] := fun _ _ => rfl
  have htext : (regionLine name region).toList = ("    " ++ name ++ " : ORIGIN = ").toList ++
      ((hexadecimal region.origin).toList ++ ", ".toList) ++ "LENGTH = ".toList ++
      ((hexadecimal region.length).toList ++ "\n".toList) := by
    simp [regionLine]
  rw [htext]
  exact ((hname.append (scans_argument _)).append hlength).append (scans_hexadecimal hline rfl _)

-- The fixed texts are scanned by computation, which goes one level deeper with each character.
set_option maxRecDepth 1000 in
theorem scans_constants (name : String) (board : Board) :
    Scans (constants name board).toList (constantTokens name board) := by
  have hheader : Scans
      "// Auto-generated file from build.rs\n// Do not edit manually\n\n".toList [] := fun _ _ => rfl
  have hname : Scans "pub const PLATFORM_NAME: &str = ".toList
      [.word "pub".toList, .word "const".toList, .word "PLATFORM_NAME".toList, .symbol ':',
        .symbol '&', .word "str".toList, .symbol '='] := fun _ _ => rfl
  have hplatform : Scans (";\n\n".toList ++
      "pub const PLATFORM: platform::Platform = unsafe \x7b\n    platform::Platform::new(".toList)
      [.symbol ';', .word "pub".toList, .word "const".toList, .word "PLATFORM".toList, .symbol ':',
        .word "platform".toList, .symbol ':', .symbol ':', .word "Platform".toList, .symbol '=',
        .word "unsafe".toList, .symbol '\x7b', .word "platform".toList, .symbol ':', .symbol ':',
        .word "Platform".toList, .symbol ':', .symbol ':', .word "new".toList, .symbol '('] :=
    fun _ _ => rfl
  -- A numeral or a word stands with what ends it: only behind that is the scanner between tokens.
  have htext : (constants name board).toList =
      "// Auto-generated file from build.rs\n// Do not edit manually\n\n".toList ++
      "pub const PLATFORM_NAME: &str = ".toList ++ (Text.quote name).toList ++
      (";\n\n".toList ++
        "pub const PLATFORM: platform::Platform = unsafe \x7b\n    platform::Platform::new(".toList) ++
      ((hexadecimal board.mtime).toList ++ ", ".toList) ++
      ((hexadecimal board.mtimecmp).toList ++ ", ".toList) ++
      ((hexadecimal board.uart).toList ++ ", platform::Width::".toList) ++
      ((widthName board.width).toList ++ ", ".toList) ++
      ((Numeral.text 10 board.period.toNat).toList ++ ")\n\x7d;\n".toList) := by
    unfold constants
    simp only [String.toList_append, List.append_assoc]
  rw [htext]
  exact (((((((hheader.append hname).append (Text.scans_quote name)).append hplatform).append
    (scans_argument board.mtime)).append (scans_argument board.mtimecmp)).append
    (scans_lastRegister board.uart)).append (scans_width board.width)).append
    (scans_period board.period)

theorem scans_memoryMap (board : Board) : Scans (memoryMap board).toList (memoryTokens board) := by
  have hopen : Scans "MEMORY\n\x7b\n".toList [.word "MEMORY".toList, .symbol '\x7b'] :=
    fun _ _ => rfl
  have hclose : Scans "\x7d\n".toList [.symbol '\x7d'] := fun _ _ => rfl
  have htext : (memoryMap board).toList = "MEMORY\n\x7b\n".toList ++
      (regionLine "FLASH" board.flash).toList ++ (regionLine "RAM" board.ram).toList ++
      "\x7d\n".toList := by
    simp only [memoryMap, String.toList_append]
  have hflash : Scans (regionLine "FLASH" board.flash).toList (regionTokens "FLASH" board.flash) :=
    scans_regionLine (fun _ _ => rfl) board.flash
  have hram : Scans (regionLine "RAM" board.ram).toList (regionTokens "RAM" board.ram) :=
    scans_regionLine (fun _ _ => rfl) board.ram
  rw [htext]
  exact ((hopen.append hflash).append hram).append hclose

theorem widthName_inj {first second : Uart.Width} (h : widthName first = widthName second) :
    first = second := by
  revert h
  cases first <;> cases second <;> decide

theorem eq_of_regionTokens {name : String} {first second : Region}
    (h : regionTokens name first = regionTokens name second) : first = second := by
  simp only [regionTokens, List.cons.injEq, Token.number.injEq, UInt64.toNat_inj, true_and,
    and_true] at h
  cases first
  cases second
  simpa using h

theorem eq_of_argumentTokens {first second : Board}
    (h : argumentTokens first = argumentTokens second) :
    first.mtime = second.mtime ∧ first.mtimecmp = second.mtimecmp ∧ first.uart = second.uart ∧
      first.width = second.width ∧ first.period = second.period := by
  simp only [argumentTokens, List.cons.injEq, Token.number.injEq, Token.word.injEq,
    UInt64.toNat_inj, String.toList_inj, true_and, and_true] at h
  obtain ⟨hmtime, hmtimecmp, huart, hwidth, hperiod⟩ := h
  exact ⟨hmtime, hmtimecmp, huart, widthName_inj hwidth, hperiod⟩

/-- Both files together tell every name and every board apart. -/
theorem eq_of_tokens {name other : String} {first second : Board}
    (hconstants : constantTokens name first = constantTokens other second)
    (hmemory : memoryTokens first = memoryTokens second) : name = other ∧ first = second := by
  simp only [constantTokens, List.cons_append, List.nil_append, List.cons.injEq, Token.literal.injEq,
    String.toList_inj, List.append_cancel_right_eq, true_and] at hconstants
  obtain ⟨hname, harguments⟩ := hconstants
  obtain ⟨hmtime, hmtimecmp, huart, hwidth, hperiod⟩ := eq_of_argumentTokens harguments
  simp only [memoryTokens, List.append_cancel_right_eq] at hmemory
  obtain ⟨hfront, hram⟩ := List.append_inj hmemory rfl
  have hflash := List.append_cancel_left hfront
  refine ⟨hname, ?_⟩
  calc first
    _ = ⟨first.mtime, first.mtimecmp, first.uart, first.width, first.period, first.flash,
          first.ram⟩ := rfl
    _ = second := by
      rw [hmtime, hmtimecmp, huart, hwidth, hperiod, eq_of_regionTokens hflash,
        eq_of_regionTokens hram]

theorem eq_of_files {name other : String} {first second : Board}
    (hconstants : constants name first = constants other second)
    (hmemory : memoryMap first = memoryMap second) : name = other ∧ first = second := by
  have htokens := (scans_constants name first).tokens?
  rw [hconstants, (scans_constants other second).tokens?] at htokens
  have hregions := (scans_memoryMap first).tokens?
  rw [hmemory, (scans_memoryMap second).tokens?] at hregions
  exact eq_of_tokens (Option.some.inj htokens).symm (Option.some.inj hregions).symm

theorem generate_of_read {boards? : Reader} {text : String} {boards : String → Option Board}
    (hread : boards? text = some boards) {platform : Option String} {board : Board}
    (hboard : boards (platform.getD defaultName) = some board) (targetOs : Option String)
    (outDir : String) :
    generate boards? (some text) platform targetOs outDir =
      .ok (files (platform.getD defaultName) targetOs outDir board) := by
  simp only [generate, hread, hboard, files]

/-- Files that a build leaves for this board, which it reads under this name. -/
def Leaves (boards? : Reader) (name : String) (board : Board) (built : Files) : Prop :=
  ∃ text boards platform targetOs outDir, name = platform.getD "newlib" ∧
    boards? text = some boards ∧ boards name = some board ∧
    generate boards? (some text) platform targetOs outDir = .ok built

theorem Leaves.texts {boards? : Reader} {name : String} {board : Board} {built : Files}
    (hbuilt : Leaves boards? name board built) :
    built.constants = constants name board ∧ built.memoryMap = memoryMap board := by
  obtain ⟨text, boards, platform, targetOs, outDir, rfl, hread, hboard, hgenerate⟩ := hbuilt
  rw [generate_of_read hread hboard] at hgenerate
  cases hgenerate
  exact ⟨rfl, rfl⟩

/-- The generated files are read back whole: what stands between the quotes ends there and is
    the name, and every number and the width stand in their places. So two builds that
    succeed with different names or boards differ in one of the files, however configurations are
    read. -/
theorem files_read_back (name : String) (board : Board) :
    Text.tokens? (constants name board) = some (constantTokens name board) ∧
    Text.tokens? (memoryMap board) = some (memoryTokens board) ∧
    (∀ before rest, (Scanner.mk before .between).run ((Text.quote name).toList ++ rest) =
      (Scanner.mk (.literal name.toList :: before) .between).run rest) ∧
    (∀ boards? built, Leaves boards? name board built →
      ∀ other second built', Leaves boards? other second built' →
        (name, board) ≠ (other, second) →
        (built.constants, built.memoryMap) ≠ (built'.constants, built'.memoryMap)) := by
  refine ⟨(scans_constants name board).tokens?, (scans_memoryMap board).tokens?,
    fun before rest => Scanner.run_quote before name rest, ?_⟩
  intro boards? built hbuilt other second built' hbuilt' hdiffer hsame
  obtain ⟨hconstants, hmemory⟩ := Prod.mk.inj hsame
  rw [hbuilt.texts.1, hbuilt'.texts.1] at hconstants
  rw [hbuilt.texts.2, hbuilt'.texts.2] at hmemory
  obtain ⟨hname, hboard⟩ := eq_of_files hconstants hmemory
  exact hdiffer (Prod.ext hname hboard)

/-- Two sections of one configuration that differ in the width only. -/
theorem files_read_back_extended :
    ∃ first second, generate reader (some extended) (some "qemu") none "out" = .ok first ∧
      generate reader (some extended) none none "out" = .ok second ∧
      (first.constants, first.memoryMap) ≠ (second.constants, second.memoryMap) := by
  have hread : Board.reading.boards? extended = some _ :=
    documented_reading.boards?_of_fitting configures_extended.document_eq configures_extended.fitting
  have hreader : Board.reading.boards? = reader := rfl
  rw [hreader] at hread
  have hfirst : generate reader (some extended) (some "qemu") none "out" = .ok _ :=
    generate_of_read hread rfl none "out"
  have hsecond : generate reader (some extended) none none "out" = .ok _ :=
    generate_of_read hread rfl none "out"
  obtain ⟨-, -, -, hdistinct⟩ := files_read_back "qemu" ⟨1, 2, 3, .word, 4, ⟨5, 6⟩, ⟨7, 8⟩⟩
  refine ⟨_, _, hfirst, hsecond, hdistinct reader _ ⟨_, _, _, _, _, rfl, hread, rfl, hfirst⟩
    "newlib" ⟨1, 2, 3, .byte, 4, ⟨5, 6⟩, ⟨7, 8⟩⟩ _ ⟨_, _, none, _, _, rfl, hread, rfl, hsecond⟩ ?_⟩
  decide

end HartRuntime.Board
