import Mathlib.Data.List.Forall2
import HartRuntime.Proofs.Format.Printed

namespace HartRuntime.Format

/-- The 32-bit pattern of a number, signed or not. Text has none. -/
def Arg.word? : Arg → Option UInt32
  | .int value => some value.toUInt32
  | .uint value => some value
  | .text _ => none

/-- Arguments that nothing but the sign of a number tells apart: the same text, or two numbers
    of one pattern. -/
inductive Arg.Alike : Arg → Arg → Prop where
  | text (bytes : List UInt8) : Alike (.text bytes) (.text bytes)
  | number {first second : Arg} {word : UInt32} (hfirst : first.word? = some word)
      (hsecond : second.word? = some word) : Alike first second

/-- What a number is read as, signed, unsigned and as text. -/
theorem Arg.reads_of_word? {arg : Arg} {word : UInt32} (hword : arg.word? = some word) :
    arg.signed = word.toInt32 ∧ arg.pattern = word ∧ arg.bytes = [] := by
  cases arg with
  | int value =>
    obtain rfl := Option.some.inj hword
    exact ⟨(Int32.toInt32_toUInt32 value).symm, rfl, rfl⟩
  | uint value =>
    obtain rfl := Option.some.inj hword
    exact ⟨rfl, rfl, rfl⟩
  | text bytes => simp [Arg.word?] at hword

namespace Arg.Alike

variable {first second : Arg}

theorem reads_eq (halike : Alike first second) :
    first.signed = second.signed ∧ first.pattern = second.pattern ∧ first.bytes = second.bytes := by
  cases halike with
  | text bytes => exact ⟨rfl, rfl, rfl⟩
  | number hfirst hsecond =>
    obtain ⟨hsigned, hpattern, hbytes⟩ := reads_of_word? hfirst
    obtain ⟨hsigned', hpattern', hbytes'⟩ := reads_of_word? hsecond
    exact ⟨hsigned.trans hsigned'.symm, hpattern.trans hpattern'.symm, hbytes.trans hbytes'.symm⟩

theorem shown_eq (halike : Alike first second) (precision : Option Nat) (specifier : UInt8) :
    first.shown precision specifier = second.shown precision specifier := by
  obtain ⟨hsigned, hpattern, hbytes⟩ := halike.reads_eq
  unfold Arg.shown
  rw [hsigned, hpattern, hbytes]

end Arg.Alike

section

variable {first second : List Arg}

theorem Precision.reading_eq_of_alike (halike : List.Forall₂ Arg.Alike first second)
    (precision : Precision) : precision.reading first = precision.reading second := by
  cases precision with
  | absent => rfl
  | digits ds => rfl
  | fromArg =>
    cases halike with
    | nil => rfl
    | cons hhead _ => simp [reading, hhead.reads_eq.2.1]

theorem shown_head?_eq_of_alike (halike : List.Forall₂ Arg.Alike first second)
    (precision : Option Nat) (specifier : UInt8) :
    first.head?.elim [] (·.shown precision specifier) =
      second.head?.elim [] (·.shown precision specifier) := by
  cases halike with
  | nil => rfl
  | cons hhead _ => simp [hhead.shown_eq]

theorem Item.text_eq_of_alike (halike : List.Forall₂ Arg.Alike first second) (item : Item) :
    item.text first = item.text second := by
  cases item with
  | literal byte => rfl
  | unfinished precision => rfl
  | conversion precision specifier =>
    have hleft := List.forall₂_drop precision.need halike
    simp only [Item.text, precision.reading_eq_of_alike halike, shown_head?_eq_of_alike hleft]

/-- Lists of alike arguments print alike. Both lists lose as many at each item, so that the
    arguments behind it are alike again. -/
theorem printed_eq_of_alike (halike : List.Forall₂ Arg.Alike first second) (parts : List Item) :
    printed first parts = printed second parts := by
  induction parts generalizing first second with
  | nil => rfl
  | cons item rest ih =>
    rw [printed, printed, item.text_eq_of_alike halike, ih (List.forall₂_drop item.need halike)]

end

/-- No format tells a signed number from an unsigned one of the same pattern: not as a value in
    any base, not as a precision, and not where text is wanted. -/
theorem output_eq_of_alike (format : List UInt8) {first second : List Arg}
    (halike : List.Forall₂ Arg.Alike first second) :
    output format first = output format second ∧
      count (output format first) = count (output format second) := by
  have houtput : output format first = output format second := by
    rw [output_eq, output_eq, printed_eq_of_alike halike]
  exact ⟨houtput, congrArg count houtput⟩

/-- A negative precision, which is a huge one, and a negative number without its sign. -/
theorem output_eq_of_alike_negative :
    List.Forall₂ Arg.Alike [.int (-1), .text (utf8 "ab"), .uint 0xfffffff0]
        [.uint 0xffffffff, .text (utf8 "ab"), .int (-16)] ∧
      output (utf8 "%.*s%d") [.int (-1), .text (utf8 "ab"), .uint 0xfffffff0] =
        output (utf8 "%.*s%d") [.uint 0xffffffff, .text (utf8 "ab"), .int (-16)] := by
  have hfirst : Arg.Alike (.int (-1)) (.uint 0xffffffff) := .number rfl (by decide)
  have hlast : Arg.Alike (.uint 0xfffffff0) (.int (-16)) := .number rfl (by decide)
  have halike : List.Forall₂ Arg.Alike [.int (-1), .text (utf8 "ab"), .uint 0xfffffff0]
      [.uint 0xffffffff, .text (utf8 "ab"), .int (-16)] :=
    .cons hfirst (.cons (.text _) (.cons hlast .nil))
  exact ⟨halike, (output_eq_of_alike (utf8 "%.*s%d") halike).1⟩

end HartRuntime.Format
