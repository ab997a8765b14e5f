import HartRuntime.Proofs.Format.Append

namespace HartRuntime.Format

/-- The end of a format continues no precision. -/
theorem Precision.Closed.none {precision : Precision} {next : Option UInt8}
    (hclosed : precision.Closed next) : precision.Closed none := by
  cases precision with
  | absent => simp [Closed]
  | fromArg => trivial
  | digits ds => exact ⟨hclosed.1, by simp, by simp⟩

theorem Precision.Closed.zero_not_mem {precision : Precision} {next : Option UInt8}
    (hclosed : precision.Closed next) : 0 ∉ precision.bytes := by
  cases precision with
  | absent => simp [Precision.bytes]
  | fromArg => simp [Precision.bytes, dot, star]
  | digits ds =>
    intro hmem
    rcases List.mem_cons.mp hmem with hdot | hzero
    · simp [dot] at hdot
    · have hdigit := hclosed.1 0 hzero
      simp [isDigit] at hdigit

theorem Precision.closed_digits {ds : List UInt8} {byte : UInt8} (hdigits : ∀ d ∈ ds, isDigit d)
    (hbyte : ¬ isDigit byte) (hlone : ds = [] → byte ≠ star) :
    (Precision.digits ds).Closed (some byte) := by
  refine ⟨hdigits, fun next hnext => ?_, fun hnil hstar => ?_⟩
  · rwa [← Option.some.inj hnext]
  · exact hlone hnil (Option.some.inj hstar)

/-- A conversion ends with the byte behind its precision. A NUL there ends the format instead. -/
theorem items_beforeNul_conversion {precision : Precision} {byte : UInt8}
    (hclosed : precision.Closed (some byte)) (rest : List UInt8) :
    items (beforeNul (percent :: (precision.bytes ++ byte :: rest))) =
      if byte = 0 then [.unfinished precision]
      else .conversion precision byte :: items (beforeNul rest) := by
  have hnul : 0 ∉ percent :: precision.bytes := by
    simp [percent, hclosed.zero_not_mem]
  have hcut : beforeNul (percent :: (precision.bytes ++ byte :: rest)) =
      percent :: (precision.bytes ++ beforeNul (byte :: rest)) :=
    beforeNul_append hnul (byte :: rest)
  rw [hcut]
  by_cases hzero : byte = 0
  · have hend : beforeNul (byte :: rest) = [] := by simp [beforeNul, hzero]
    rw [hend, List.append_nil, if_pos hzero, ← (Splits.unfinished hclosed.none).eq_items]
  · have hgo : beforeNul (byte :: rest) = byte :: beforeNul rest := by simp [beforeNul, hzero]
    rw [hgo, if_neg hzero, items_conversion (Precision.split_bytes_append hclosed)]

/-- Two precisions that come to the same number and leave the same arguments print alike,
    whatever stands behind them. -/
theorem output_eq_of_reading_eq {p q : Precision} {byte : UInt8} (hp : p.Closed (some byte))
    (hq : q.Closed (some byte)) {first second : List Arg}
    (hreading : p.reading first = q.reading second)
    (hdrop : first.drop p.need = second.drop q.need) (rest : List UInt8) :
    output (percent :: (p.bytes ++ byte :: rest)) first =
      output (percent :: (q.bytes ++ byte :: rest)) second := by
  rw [output_eq, output_eq, items_beforeNul_conversion hp, items_beforeNul_conversion hq]
  by_cases hzero : byte = 0
  · simp [hzero, printed, Item.text]
  · have htext : (Item.conversion p byte).text first = (Item.conversion q byte).text second := by
      rw [Item.text, Item.text, hreading, hdrop]
    have hneed : first.drop (Item.conversion p byte).need =
        second.drop (Item.conversion q byte).need := by
      rw [Item.need, Item.need, ← List.drop_drop, ← List.drop_drop, hdrop]
    rw [if_neg hzero, if_neg hzero, printed, printed, htext, hneed]

/-- The digits behind a dot are the whole precision, up to the first byte that is no digit, and
    come to the number that they spell, clamped to a machine word. Where that number fits an
    argument, a star that takes it from there prints the same. -/
theorem output_digits_eq_fromArg {ds : List UInt8} (hdigits : ∀ d ∈ ds, isDigit d) {byte : UInt8}
    (hbyte : ¬ isDigit byte) (hlone : ds = [] → byte ≠ star) (rest : List UInt8) (args : List Arg) :
    items (beforeNul ([percent, dot] ++ ds ++ byte :: rest)) =
        (if byte = 0 then [.unfinished (.digits ds)]
          else .conversion (.digits ds) byte :: items (beforeNul rest)) ∧
      (∀ pending, (Precision.digits ds).value pending =
        (some (min (Precision.spelled ds) (2 ^ 64 - 1)), pending)) ∧
      (Precision.spelled ds < 2 ^ 32 →
        output ([percent, dot] ++ ds ++ byte :: rest) args =
            output ([percent, dot, star] ++ byte :: rest)
              (.uint (UInt32.ofNat (Precision.spelled ds)) :: args) ∧
          count (output ([percent, dot] ++ ds ++ byte :: rest) args) =
            count (output ([percent, dot, star] ++ byte :: rest)
              (.uint (UInt32.ofNat (Precision.spelled ds)) :: args))) := by
  have hclosed := Precision.closed_digits hdigits hbyte hlone
  refine ⟨items_beforeNul_conversion hclosed rest, fun pending => ?_, fun hword => ?_⟩
  · rw [Precision.value, Precision.ofDigits_eq_min]
  · have hpattern : (UInt32.ofNat (Precision.spelled ds)).toNat = Precision.spelled ds :=
      UInt32.toNat_ofNat_of_lt' hword
    have hclamp : min (Precision.spelled ds) (2 ^ 64 - 1) = Precision.spelled ds := by omega
    have hreading : (Precision.digits ds).reading args = Precision.fromArg.reading
        (.uint (UInt32.ofNat (Precision.spelled ds)) :: args) := by
      simp only [Precision.reading, List.head?_cons, Option.elim_some, Arg.pattern, hpattern, hclamp]
    have hstar : Precision.fromArg.Closed (some byte) := trivial
    have houtput := output_eq_of_reading_eq hclosed hstar hreading rfl rest
    exact ⟨houtput, congrArg count houtput⟩

/-- Leading zeros in front of one more star, which is the specifier; and digits that spell one
    more than a machine word holds. -/
theorem output_digits_eq_fromArg_clamped :
    ((∀ d ∈ utf8 "007", isDigit d) ∧ ¬ isDigit star ∧ (utf8 "007" = [] → star ≠ star) ∧
        Precision.spelled (utf8 "007") < 2 ^ 32 ∧
        output ([percent, dot] ++ utf8 "007" ++ star :: utf8 "%x") [.text [65, 0, 66], .uint 255] =
          output ([percent, dot, star] ++ star :: utf8 "%x")
            [.uint 7, .text [65, 0, 66], .uint 255]) ∧
      (Precision.digits (utf8 "18446744073709551616")).value ⟨[], Numeral.Scratch.fresh⟩ =
        (some (2 ^ 64 - 1), ⟨[], Numeral.Scratch.fresh⟩) := by
  have hstar : ¬ isDigit star := by decide
  constructor
  · have hdigits : ∀ d ∈ utf8 "007", isDigit d := by decide +kernel
    have hlone : utf8 "007" = [] → star ≠ star := by decide +kernel
    have hspelled : Precision.spelled (utf8 "007") = 7 := by decide +kernel
    have hsmall : Precision.spelled (utf8 "007") < 2 ^ 32 := by
      rw [hspelled]
      decide
    obtain ⟨-, -, houtput⟩ := output_digits_eq_fromArg hdigits hstar hlone (utf8 "%x")
      [.text [65, 0, 66], .uint 255]
    have hequal := (houtput hsmall).1
    rw [hspelled] at hequal
    exact ⟨hdigits, hstar, hlone, hsmall, hequal⟩
  · have hdigits : ∀ d ∈ utf8 "18446744073709551616", isDigit d := by decide +kernel
    have hlone : utf8 "18446744073709551616" = [] → star ≠ star := by decide +kernel
    have hclamp : min (Precision.spelled (utf8 "18446744073709551616")) (2 ^ 64 - 1) =
        2 ^ 64 - 1 := by
      decide +kernel
    obtain ⟨-, hvalue, -⟩ := output_digits_eq_fromArg hdigits hstar hlone [] []
    rw [hvalue, hclamp]

end HartRuntime.Format
