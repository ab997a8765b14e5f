import Mathlib.Data.List.TakeWhile
import HartRuntime.Format.Item

namespace HartRuntime.Format

/-- Nothing behind a precision continues it: no dot follows where there was none, no digit
    follows digits, and no star follows a lone dot. The end of the format continues nothing. -/
def Precision.Closed (next : Option UInt8) : Precision → Prop
  | .absent => next ≠ some dot
  | .fromArg => True
  | .digits ds =>
    (∀ d ∈ ds, isDigit d) ∧ (∀ byte, next = some byte → ¬ isDigit byte) ∧
      (ds = [] → next ≠ some star)

/-- The grammar of formats without NUL. A byte other than `%` stands for itself; `%`, a
    precision and one more byte make a conversion; and only the end of the format can leave
    a conversion without that byte. -/
inductive Splits : List UInt8 → List Item → Prop where
  | nil : Splits [] []
  | literal {byte : UInt8} {rest : List UInt8} {parts : List Item} (hbyte : byte ≠ percent)
      (tail : Splits rest parts) : Splits (byte :: rest) (.literal byte :: parts)
  | conversion {precision : Precision} {specifier : UInt8} {rest : List UInt8} {parts : List Item}
      (hclosed : precision.Closed (some specifier)) (tail : Splits rest parts) :
      Splits (percent :: (precision.bytes ++ specifier :: rest))
        (.conversion precision specifier :: parts)
  | unfinished {precision : Precision} (hclosed : precision.Closed none) :
      Splits (percent :: precision.bytes) [.unfinished precision]

theorem Precision.split_bytes_append {precision : Precision} {rest : List UInt8}
    (hclosed : precision.Closed rest.head?) : split (precision.bytes ++ rest) = (precision, rest) := by
  cases precision with
  | absent => exact if_neg hclosed
  | fromArg => simp [split, splitDotted, Precision.bytes]
  | digits ds =>
    obtain ⟨hdigits, hend, hlone⟩ := hclosed
    have hstar : (ds ++ rest).head? ≠ some star := by
      cases ds with
      | nil => exact hlone rfl
      | cons d ds =>
        intro hhead
        have hd := hdigits d (by simp)
        simp only [List.cons_append, List.head?_cons, Option.some.injEq] at hhead
        rw [hhead] at hd
        exact absurd hd (by decide)
    have hstop : rest.takeWhile isDigit = [] ∧ rest.dropWhile isDigit = rest := by
      cases rest with
      | nil => simp
      | cons byte tail => simp [hend byte rfl]
    calc split (dot :: ds ++ rest) = splitDotted (ds ++ rest) := rfl
      _ = (.digits ds, rest) := by
        rw [splitDotted, if_neg hstar, List.takeWhile_append_of_pos hdigits,
          List.dropWhile_append_of_pos hdigits, hstop.1, hstop.2, List.append_nil]

theorem Precision.closed_split (bytes : List UInt8) :
    (split bytes).1.Closed (split bytes).2.head? := by
  unfold split
  split
  · unfold splitDotted
    split
    · trivial
    · rename_i hstar
      refine ⟨fun d hd => List.mem_takeWhile_imp hd, ?_, ?_⟩
      · intro byte hbyte
        have hnot := List.head?_dropWhile_not isDigit bytes.tail
        rw [hbyte] at hnot
        simpa using hnot
      · intro hnone
        have hall := List.takeWhile_append_dropWhile (p := isDigit) (l := bytes.tail)
        rw [hnone, List.nil_append] at hall
        rwa [hall]
  · rename_i hdot
    exact hdot

theorem items_literal {byte : UInt8} (hbyte : byte ≠ percent) (rest : List UInt8) :
    items (byte :: rest) = .literal byte :: items rest := by
  rw [items, if_neg hbyte]

theorem items_conversion {bytes : List UInt8} {precision : Precision} {specifier : UInt8}
    {rest : List UInt8} (hsplit : Precision.split bytes = (precision, specifier :: rest)) :
    items (percent :: bytes) = .conversion precision specifier :: items rest := by
  rw [items, if_pos rfl]
  split <;> simp_all

theorem items_unfinished {bytes : List UInt8} {precision : Precision}
    (hsplit : Precision.split bytes = (precision, [])) :
    items (percent :: bytes) = [.unfinished precision] := by
  rw [items, if_pos rfl]
  split <;> simp_all

theorem splits_items (format : List UInt8) : Splits format (items format) := by
  fun_induction items format with
  | case1 => exact .nil
  | case2 rest precision hsplit =>
    have hbytes := Precision.bytes_split rest
    have hclosed := Precision.closed_split rest
    rw [hsplit] at hbytes hclosed
    rw [← hbytes, List.append_nil]
    exact .unfinished hclosed
  | case3 rest precision specifier tail hsplit ih =>
    have hbytes := Precision.bytes_split rest
    have hclosed := Precision.closed_split rest
    rw [hsplit] at hbytes hclosed
    rw [← hbytes]
    exact .conversion hclosed ih
  | case4 byte rest hbyte ih => exact .literal hbyte ih

/-- A format splits in no other way. -/
theorem Splits.eq_items {format : List UInt8} {parts : List Item} (hsplits : Splits format parts) :
    parts = items format := by
  induction hsplits with
  | nil => rw [items]
  | literal hbyte _ ih => rw [items_literal hbyte, ih]
  | conversion hclosed _ ih => rw [items_conversion (Precision.split_bytes_append hclosed), ih]
  | @unfinished precision hclosed =>
    have hsplit : Precision.split (precision.bytes ++ []) = (precision, []) :=
      Precision.split_bytes_append hclosed
    rw [List.append_nil] at hsplit
    rw [items_unfinished hsplit]

end HartRuntime.Format
