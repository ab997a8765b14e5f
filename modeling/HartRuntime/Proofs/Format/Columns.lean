import HartRuntime.Proofs.Format.Alike
import HartRuntime.Proofs.Format.Precision
import HartRuntime.Proofs.Numeral.Canonical

namespace HartRuntime.Format

open Numeral (Scratch Spells)

def comma : UInt8 := 44

theorem output_nil (args : List Arg) : output [] args = [] := by
  simp [output_eq, beforeNul, items, printed]

/-- A conversion at the head of a format prints first, and hands on the arguments that it does
    not take. -/
theorem output_conversion {precision : Precision} {specifier : UInt8}
    (hclosed : precision.Closed (some specifier)) (hnul : specifier ≠ 0) (rest : List UInt8)
    (args : List Arg) :
    output ((Item.conversion precision specifier).bytes ++ rest) args =
      (Item.conversion precision specifier).text args ++
        output rest (args.drop (Item.conversion precision specifier).need) := by
  have hbytes : (Item.conversion precision specifier).bytes ++ rest =
      percent :: (precision.bytes ++ specifier :: rest) := by simp [Item.bytes]
  rw [output_eq, output_eq, hbytes, items_beforeNul_conversion hclosed, if_neg hnul, printed]

theorem output_literal {byte : UInt8} (hbyte : byte ≠ percent) (hnul : byte ≠ 0)
    (rest : List UInt8) (args : List Arg) :
    output (byte :: rest) args = byte :: output rest args := by
  have hcut : beforeNul (byte :: rest) = byte :: beforeNul rest := by simp [beforeNul, hnul]
  rw [output_eq, output_eq, hcut, items_literal hbyte]
  rfl

theorem length_padded (width : Nat) (digits : List UInt8) :
    (padded width digits).length = max width digits.length := by
  rw [padded, List.length_append, List.length_replicate]
  omega

/-- The ways to print a number. -/
inductive Radix where
  | decimal
  | hexadecimal
  | octal
  | binary
  deriving DecidableEq

namespace Radix

def base : Radix → Nat
  | decimal => 10
  | hexadecimal => 16
  | octal => 8
  | binary => 2

/-- The letters `d`, `x`, `o` and `b`. -/
def specifier : Radix → UInt8
  | decimal => 100
  | hexadecimal => 120
  | octal => 111
  | binary => 98

theorem base_base (radix : Radix) : Numeral.Base radix.base := by
  cases radix <;> decide

theorem specifier_ne_percent (radix : Radix) : radix.specifier ≠ percent := by
  cases radix <;> decide

end Radix

/-- A precision that the format spells out, if it has one at all. -/
def Precision.Literal : Precision → Prop
  | .absent => True
  | .fromArg => False
  | .digits ds => ∀ d ∈ ds, isDigit d

namespace Precision.Literal

variable {precision : Precision}

instance : Decidable precision.Literal :=
  match precision with
  | .absent => .isTrue trivial
  | .fromArg => .isFalse id
  | .digits ds => decidable_of_iff (ds.all isDigit) List.all_eq_true

/-- The letter of a number ends every precision that is spelled out. -/
theorem closed (hliteral : precision.Literal) (radix : Radix) :
    precision.Closed (some radix.specifier) := by
  have hdot : radix.specifier ≠ dot := by cases radix <;> decide
  have hstar : radix.specifier ≠ star := by cases radix <;> decide
  have hdigit : ¬ isDigit radix.specifier := by cases radix <;> decide
  cases precision with
  | absent => exact fun h => hdot (Option.some.inj h)
  | fromArg => trivial
  | digits ds => exact closed_digits hliteral hdigit fun _ => hstar

theorem need_eq (hliteral : precision.Literal) : precision.need = 0 := by
  cases precision with
  | absent => rfl
  | fromArg => exact hliteral.elim
  | digits ds => rfl

theorem reading_eq (hliteral : precision.Literal) (first second : List Arg) :
    precision.reading first = precision.reading second := by
  cases precision with
  | absent => rfl
  | fromArg => exact hliteral.elim
  | digits ds => rfl

end Precision.Literal

/-- A number and the conversion that prints it. -/
structure Column where
  radix : Radix
  precision : Precision
  arg : Arg
  literal : precision.Literal
  isNumber : arg.word?.isSome

namespace Column

def item (column : Column) : Item :=
  .conversion column.precision column.radix.specifier

/-- The format of a line that has a comma between any two columns. -/
def lineFormat (columns : List Column) : List UInt8 :=
  [comma].intercalate (columns.map fun column => column.item.bytes)

/-- What there is to know of a column: the signed value in decimal, and the 32-bit pattern in
    the other bases. -/
def value (column : Column) : Int :=
  match column.radix with
  | .decimal => column.arg.signed.toInt
  | _ => column.arg.pattern.toNat

/-- The number that the precision of a column comes to, clamped to a machine word; zero without
    one. -/
def width (column : Column) : Nat :=
  (column.precision.reading []).getD 0

/-- What a column prints on its own. -/
def text (column : Column) : List UInt8 :=
  column.arg.shown (column.precision.reading []) column.radix.specifier

/-- The numeral that a column prints, without the zeros of its precision. -/
def numeral (column : Column) : List UInt8 :=
  Numeral.ofInt32 column.arg.signed column.radix.base

/-- What the piece of a line that belongs to a column tells of it. Only a hexadecimal numeral
    is ever padded; any other is as short as a text that is read as the same number can be. -/
structure Recovered (column : Column) (piece : List UInt8) : Prop where
  reads : Numeral.ofBytes? column.radix.base piece = some column.value
  padded : column.radix = .hexadecimal → ∃ digits,
    IsLeast (Numeral.lengths 16 column.value) digits ∧ piece.length = max column.width digits
  shortest : column.radix ≠ .hexadecimal →
    Spells column.radix.base column.arg.signed piece ∧
      IsLeast (Numeral.lengths column.radix.base column.value) piece.length

/-- A number has one pattern, whether it is read with a sign or without. -/
theorem reads_arg (column : Column) :
    column.arg.pattern.toInt32 = column.arg.signed ∧
      Numeral.denoted column.arg.signed column.radix.base = column.value := by
  obtain ⟨word, hword⟩ := Option.isSome_iff_exists.mp column.isNumber
  obtain ⟨hsigned, hpattern, -⟩ := Arg.reads_of_word? hword
  unfold Numeral.denoted value
  rw [hsigned, hpattern]
  cases column.radix <;> exact ⟨rfl, rfl⟩

theorem spells_numeral (column : Column) :
    Spells column.radix.base column.arg.signed column.numeral :=
  (Numeral.spells_iff column.radix.base_base).mpr rfl

theorem reads_numeral (column : Column) :
    Numeral.ofBytes? column.radix.base column.numeral = some column.value := by
  rw [column.spells_numeral.reads, column.reads_arg.2]

theorem isLeast_length_numeral (column : Column) :
    IsLeast (Numeral.lengths column.radix.base column.value) column.numeral.length := by
  rw [← column.reads_arg.2]
  exact column.spells_numeral.isLeast_length column.radix.base_base

theorem text_eq (column : Column) :
    column.text = if column.radix = .hexadecimal then Format.padded column.width column.numeral
      else column.numeral := by
  rw [text, ← field_fst _ _ _ Scratch.fresh, numeral]
  cases hradix : column.radix with
  | decimal => exact Scratch.text_convert ..
  | octal | binary =>
    rw [← column.reads_arg.1]
    exact Scratch.text_convert ..
  | hexadecimal =>
    rw [← column.reads_arg.1, if_pos rfl, width]
    exact congrArg (Format.padded _) (Scratch.text_convert ..)

theorem recovered_text (column : Column) : column.Recovered column.text := by
  rw [text_eq]
  by_cases hradix : column.radix = .hexadecimal
  · rw [if_pos hradix]
    have hbase : column.radix.base = 16 := by rw [hradix, Radix.base]
    have hleast := column.isLeast_length_numeral
    have hreads := column.reads_numeral
    obtain ⟨digits, hcanonical, hdigits⟩ := column.spells_numeral.exists_digits
    rw [hbase] at hleast hcanonical hdigits hreads
    rw [if_neg (by simp), List.nil_append] at hdigits
    refine ⟨?_, fun _ => ⟨_, hleast, length_padded _ _⟩, fun hother => absurd hradix hother⟩
    rw [hdigits] at hreads ⊢
    rw [hbase, Format.padded, hcanonical.ofBytes?_replicate_append (by decide), hreads]
  · rw [if_neg hradix]
    exact ⟨column.reads_numeral, fun h => absurd h hradix,
      fun _ => ⟨column.spells_numeral, column.isLeast_length_numeral⟩⟩

/-- Neither a digit nor a sign is taken for the end of a column. -/
theorem comma_not_mem_text (column : Column) : comma ∉ column.text := by
  have hnumeral : comma ∉ column.numeral := by
    obtain ⟨digits, hcanonical, hdigits⟩ := column.spells_numeral.exists_digits
    rw [hdigits, List.mem_append, not_or]
    constructor
    · split <;> simp [comma, Numeral.minus]
    · intro hmem
      obtain ⟨digit, -, hdigit⟩ := hcanonical.exists_digit comma hmem
      simp [Numeral.digit?, comma] at hdigit
  rw [text_eq]
  split
  · rw [Format.padded, List.mem_append, not_or]
    exact ⟨fun hzero => absurd (List.eq_of_mem_replicate hzero) (by decide), hnumeral⟩
  · exact hnumeral

theorem text_item (column : Column) (args : List Arg) :
    column.item.text (column.arg :: args) = column.text := by
  rw [item, Item.text, if_neg column.radix.specifier_ne_percent, column.literal.need_eq,
    column.literal.reading_eq (column.arg :: args) []]
  rfl

theorem need_item (column : Column) : column.item.need = 1 := by
  rw [item, Item.need, if_neg column.radix.specifier_ne_percent, column.literal.need_eq]

theorem output_item (column : Column) (rest : List UInt8) (args : List Arg) :
    output (column.item.bytes ++ rest) (column.arg :: args) = column.text ++ output rest args := by
  have hnul : column.radix.specifier ≠ 0 := by cases column.radix <;> decide
  have hprinted := output_conversion (column.literal.closed column.radix) hnul rest
    (column.arg :: args)
  rw [← item, text_item, need_item] at hprinted
  exact hprinted

/-- A line prints its columns one by one, each from its own argument. -/
theorem output_lineFormat (columns : List Column) :
    output (lineFormat columns) (columns.map Column.arg) =
      [comma].intercalate (columns.map Column.text) := by
  unfold lineFormat
  induction columns with
  | nil => exact output_nil []
  | cons column rest ih =>
    cases rest with
    | nil =>
      have hlast := column.output_item [] []
      rw [List.append_nil, output_nil, List.append_nil] at hlast
      simpa using hlast
    | cons next rest =>
      simp only [List.map_cons, List.intercalate_cons_cons] at ih ⊢
      rw [List.append_assoc, output_item, List.singleton_append,
        output_literal (by decide) (by decide), ih, List.append_assoc]
      rfl

/-- Numbers that are printed with commas between them are found again by splitting the line at
    the commas. There is one piece for each number, which tells it and nothing of its
    neighbours, whatever the bases and the precisions. -/
theorem recovered_splitOn {columns : List Column} (hne : columns ≠ []) :
    List.Forall₂ Recovered columns
      ((output (lineFormat columns) (columns.map Column.arg)).splitOn comma) := by
  have hcomma : ∀ piece ∈ columns.map Column.text, comma ∉ piece := by
    simpa using fun column _ => column.comma_not_mem_text
  rw [output_lineFormat, List.splitOn_intercalate comma hcomma (by simpa using hne),
    List.forall₂_map_right_iff, List.forall₂_same]
  exact fun column _ => column.recovered_text

/-- A precision that does nothing, one that pads, one that is too small, and none. -/
def mixed : List Column :=
  [⟨.decimal, .digits (utf8 "3"), .int (-7), by decide, rfl⟩,
    ⟨.hexadecimal, .digits (utf8 "04"), .uint 255, by decide, rfl⟩,
    ⟨.hexadecimal, .digits (utf8 "1"), .int (-1), by decide, rfl⟩,
    ⟨.binary, .absent, .uint 5, by decide, rfl⟩]

theorem recovered_splitOn_mixed :
    mixed ≠ [] ∧ lineFormat mixed = utf8 "%.3d,%.04x,%.1x,%b" ∧
      List.Forall₂ Recovered mixed [utf8 "-7", utf8 "00ff", utf8 "ffffffff", utf8 "101"] := by
  have hne : mixed ≠ [] := List.cons_ne_nil _ _
  have hpieces : (output (lineFormat mixed) (mixed.map Column.arg)).splitOn comma =
      [utf8 "-7", utf8 "00ff", utf8 "ffffffff", utf8 "101"] := by
    decide +kernel
  have hrecovered := recovered_splitOn hne
  rw [hpieces] at hrecovered
  exact ⟨hne, by decide, hrecovered⟩

end Column

end HartRuntime.Format
