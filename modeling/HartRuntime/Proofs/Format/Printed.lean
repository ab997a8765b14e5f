import Mathlib.Data.Nat.Digits.Defs
import HartRuntime.Format.Output
import HartRuntime.Proofs.Format.Grammar
import HartRuntime.Proofs.Numeral.Conversion
import HartRuntime.Text.Utf8

namespace HartRuntime.Format

open Numeral (Scratch)

/-- Text of the standard library as bytes. -/
def ascii (text : List Char) : List UInt8 :=
  text.map fun c => UInt8.ofNat c.toNat

/-- What a specifier other than `%` makes of its argument, in the standard library's own
    numerals and with no buffer. -/
def Arg.shown (precision : Option Nat) (specifier : UInt8) (arg : Arg) : List UInt8 :=
  if specifier = 100 then ascii arg.signed.toInt.repr.toList
  else if specifier = 120 then
    (ascii (Nat.toDigits 16 arg.pattern.toNat)).leftpad (precision.getD 0) 48
  else if specifier = 111 then ascii (Nat.toDigits 8 arg.pattern.toNat)
  else if specifier = 98 then ascii (Nat.toDigits 2 arg.pattern.toNat)
  else if specifier = 115 then
    match precision with
    | none => beforeNul arg.bytes
    | some length => arg.bytes.take length
  else beforeNul arg.bytes

/-- The number that decimal digits spell, however many there are. -/
def Precision.spelled (ds : List UInt8) : Nat :=
  Nat.ofDigits 10 (ds.reverse.map fun d => d.toNat - 48)

/-- What a precision comes to when `args` are left. Digits are clamped to a machine word,
    and `.*` without an argument is zero. -/
def Precision.reading (args : List Arg) : Precision → Option Nat
  | .absent => none
  | .digits ds => some (min (spelled ds) (2 ^ 64 - 1))
  | .fromArg => some (args.head?.elim 0 (·.pattern.toNat))

/-- What an item prints when `args` are left. The argument of a specifier comes behind
    that of `.*`; without one the item prints nothing. -/
def Item.text (args : List Arg) : Item → List UInt8
  | .literal byte => [byte]
  | .unfinished _ => []
  | .conversion precision specifier =>
    if specifier = percent then [percent]
    else (args.drop precision.need).head?.elim [] (·.shown (precision.reading args) specifier)

/-- What a list of items prints, each taking its arguments from the left. -/
def printed (args : List Arg) : List Item → List UInt8
  | [] => []
  | item :: rest => item.text args ++ printed (args.drop item.need) rest

theorem Precision.append_min (value : Nat) (digit : UInt8) :
    append (min value ceiling) digit = min (value * 10 + (digit.toNat - 48)) ceiling := by
  unfold append ceiling
  omega

/-- Clamping after each digit comes to the same as clamping the whole number. -/
theorem Precision.foldl_append_min (ds : List UInt8) (value : Nat) :
    ds.foldl append (min value ceiling) =
      min (value * 10 ^ ds.length + spelled ds) ceiling := by
  induction ds generalizing value with
  | nil => simp [spelled]
  | cons d ds ih =>
    rw [List.foldl_cons, append_min, ih]
    simp only [spelled, List.reverse_cons, List.map_append, List.map_cons, List.map_nil,
      Nat.ofDigits_append, Nat.ofDigits_singleton, List.length_map, List.length_reverse,
      List.length_cons]
    ring_nf

theorem Precision.ofDigits_eq_min (ds : List UInt8) :
    ofDigits ds = min (spelled ds) (2 ^ 64 - 1) := by
  have h := foldl_append_min ds 0
  simpa [ofDigits, ceiling] using h

theorem Precision.value_fst (precision : Precision) (pending : Pending) :
    (precision.value pending).1 = precision.reading pending.args := by
  cases precision with
  | absent => rfl
  | fromArg => rfl
  | digits ds => simp [value, reading, ofDigits_eq_min]

theorem Precision.args_value (precision : Precision) (pending : Pending) :
    (precision.value pending).2.args = pending.args.drop precision.need := by
  cases precision <;> simp [value, need]

theorem text_convert_pattern (scratch : Scratch) (arg : Arg) {base : UInt32}
    (hlow : 2 ≤ base.toNat) (hhigh : base.toNat ≤ 16) (hten : base.toNat ≠ 10) :
    (scratch.convert arg.pattern.toInt32 base).text =
      ascii (Nat.toDigits base.toNat arg.pattern.toNat) := by
  have hbase : Numeral.Base base.toNat := ⟨hlow, by omega⟩
  rw [Scratch.text_convert, Numeral.ofInt32_toInt32 _ hbase hten,
    Numeral.bytes_eq_toDigits hlow hhigh, ascii]

/-- An argument is shown the same way whatever an earlier conversion left in the buffer. -/
theorem field_fst (precision : Option Nat) (specifier : UInt8) (arg : Arg) (scratch : Scratch) :
    (field precision specifier arg scratch).1 = arg.shown precision specifier := by
  unfold field Arg.shown
  by_cases hd : specifier = 100
  · simp only [if_pos hd]
    exact (Scratch.text_convert ..).trans (Numeral.ofInt32_ten arg.signed)
  by_cases hx : specifier = 120
  · simp only [if_neg hd, if_pos hx]
    rw [text_convert_pattern _ _ (by decide) (by decide) (by decide)]
    rfl
  by_cases ho : specifier = 111
  · simp only [if_neg hd, if_neg hx, if_pos ho]
    exact text_convert_pattern _ _ (by decide) (by decide) (by decide)
  by_cases hb : specifier = 98
  · simp only [if_neg hd, if_neg hx, if_neg ho, if_pos hb]
    exact text_convert_pattern _ _ (by decide) (by decide) (by decide)
  by_cases hs : specifier = 115
  · simp only [if_neg hd, if_neg hx, if_neg ho, if_neg hb, if_pos hs]
    cases precision <;> rfl
  · simp only [if_neg hd, if_neg hx, if_neg ho, if_neg hb, if_neg hs]

theorem Item.output_fst (item : Item) (pending : Pending) :
    (item.output pending).1 = item.text pending.args := by
  cases item with
  | literal byte => rfl
  | unfinished precision => rfl
  | conversion precision specifier =>
    have hargs := precision.args_value pending
    have hreading := precision.value_fst pending
    unfold Item.output Item.text
    by_cases hspec : specifier = percent
    · simp only [if_pos hspec]
    · simp only [if_neg hspec, ← hargs]
      cases hleft : (precision.value pending).2.args with
      | nil => rfl
      | cons arg args => simp [field_fst, hreading]

theorem Item.args_output (item : Item) (pending : Pending) :
    (item.output pending).2.args = pending.args.drop item.need := by
  cases item with
  | literal byte => rfl
  | unfinished precision => exact precision.args_value pending
  | conversion precision specifier =>
    have hargs := precision.args_value pending
    unfold Item.output Item.need
    by_cases hspec : specifier = percent
    · simp only [if_pos hspec, Nat.add_zero]
      exact hargs
    · simp only [if_neg hspec, ← List.drop_drop, ← hargs]
      cases hleft : (precision.value pending).2.args with
      | nil => simp [hleft]
      | cons arg args => simp

/-- The buffer that conversions share leaves no trace in what they print. -/
theorem outputs_eq_printed (pending : Pending) (parts : List Item) :
    outputs pending parts = printed pending.args parts := by
  induction parts generalizing pending with
  | nil => rfl
  | cons item rest ih =>
    rw [outputs, printed, ← item.output_fst, ← item.args_output, ← ih]

theorem output_eq (format : List UInt8) (args : List Arg) :
    output format args = printed args (items (beforeNul format)) :=
  outputs_eq_printed _ _

end HartRuntime.Format
