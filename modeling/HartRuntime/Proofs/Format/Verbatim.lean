import HartRuntime.Proofs.Format.Columns

namespace HartRuntime.Format

/-- A specifier without a meaning of its own. Behind a percent sign a dot begins a precision
    instead, and a NUL ends the format. -/
def Fallback (specifier : UInt8) : Prop :=
  specifier ∉ [0, percent, dot, 100, 120, 111, 98, 115]

instance (specifier : UInt8) : Decidable (Fallback specifier) :=
  inferInstanceAs (Decidable (_ ∉ _))

/-- What stands before the first NUL of a string; all of it, if there is none. -/
structure Front (bytes front : List UInt8) : Prop where
  nul : 0 ∉ front
  split : front = bytes ∨ ∃ rest, bytes = front ++ 0 :: rest

theorem front_beforeNul (bytes : List UInt8) : Front bytes (beforeNul bytes) := by
  induction bytes with
  | nil => exact ⟨List.not_mem_nil, .inl rfl⟩
  | cons byte rest ih =>
    by_cases hzero : byte = 0
    · have hfront : beforeNul (byte :: rest) = [] := by simp [beforeNul, hzero]
      rw [hfront]
      exact ⟨List.not_mem_nil, .inr ⟨rest, by rw [hzero, List.nil_append]⟩⟩
    · have hfront : beforeNul (byte :: rest) = byte :: beforeNul rest := by simp [beforeNul, hzero]
      rw [hfront]
      refine ⟨by simp [Ne.symm hzero, ih.nul], ?_⟩
      rcases ih.split with hall | ⟨back, hback⟩
      · exact .inl (by rw [hall])
      · exact .inr ⟨back, by rw [List.cons_append, ← hback]⟩

/-- There is only one such part. -/
theorem Front.eq_beforeNul {bytes front : List UInt8} (hfront : Front bytes front) :
    front = beforeNul bytes := by
  rcases hfront.split with rfl | ⟨rest, rfl⟩
  · exact (beforeNul_eq_self hfront.nul).symm
  · rw [beforeNul_append hfront.nul]
    simp [beforeNul]

/-- A format that is one conversion prints what the conversion does. -/
theorem output_bytes_conversion {precision : Precision} {specifier : UInt8}
    (hclosed : precision.Closed (some specifier)) (hnul : specifier ≠ 0) (args : List Arg) :
    output (Item.conversion precision specifier).bytes args =
      (Item.conversion precision specifier).text args := by
  have hprints := output_conversion hclosed hnul [] args
  rw [output_nil, List.append_nil, List.append_nil] at hprints
  exact hprints

theorem Precision.closed_absent {byte : UInt8} (hbyte : byte ≠ dot) :
    Precision.absent.Closed (some byte) :=
  fun hdot => hbyte (Option.some.inj hdot)

theorem output_fallback {specifier : UInt8} (hfallback : Fallback specifier) (bytes : List UInt8) :
    output [percent, specifier] [.text bytes] = beforeNul bytes := by
  simp only [Fallback, List.mem_cons, List.not_mem_nil, or_false, not_or] at hfallback
  obtain ⟨hnul, hpercent, hdot, hd, hx, ho, hb, hs⟩ := hfallback
  refine (output_bytes_conversion (Precision.closed_absent hdot) hnul _).trans ?_
  simp [Item.text, Arg.shown, Precision.need, hpercent, hd, hx, ho, hb, hs, Arg.bytes]

/-- The letter `s` ends every precision. -/
theorem Precision.closed_text {ds : List UInt8} (hdigits : ∀ d ∈ ds, isDigit d) :
    (Precision.digits ds).Closed (some 115) :=
  closed_digits hdigits (by decide) fun _ => by decide

theorem output_text (bytes : List UInt8) : output (utf8 "%s") [.text bytes] = beforeNul bytes := by
  have hformat : utf8 "%s" = (Item.conversion .absent 115).bytes := by decide +kernel
  rw [hformat, output_bytes_conversion (Precision.closed_absent (by decide)) (by decide)]
  simp [Item.text, Arg.shown, Precision.need, Precision.reading, Arg.bytes, percent]

/-- Text with a precision is cut to that many bytes, whatever they are. -/
theorem output_text_fromArg (arg : Arg) (bytes : List UInt8) :
    output (utf8 "%.*s") [arg, .text bytes] = bytes.take arg.pattern.toNat := by
  have hformat : utf8 "%.*s" = (Item.conversion .fromArg 115).bytes := by decide +kernel
  have hclosed : Precision.fromArg.Closed (some 115) := trivial
  rw [hformat, output_bytes_conversion hclosed (by decide)]
  simp [Item.text, Arg.shown, Precision.need, Precision.reading, Arg.bytes, percent]

theorem Precision.spelled_concat (ds : List UInt8) (d : UInt8) :
    spelled (ds ++ [d]) = d.toNat - 48 + 10 * spelled ds := by
  simp [spelled, Nat.ofDigits_cons]

/-- A decimal numeral spells the number that it is the numeral of. -/
theorem Precision.spelled_bytes (n : Nat) : spelled (Numeral.bytes 10 n) = n := by
  have hdigit {digit : Nat} (hsmall : digit < 10) :
      (UInt8.ofNat (Numeral.symbol digit)).toNat - 48 = digit := by
    interval_cases digit <;> rfl
  induction n using Nat.strongRecOn with
  | ind n ih =>
    by_cases hsmall : n < 10
    · have hspelled := spelled_concat [] (UInt8.ofNat (Numeral.symbol n))
      have hnil : spelled [] = 0 := by simp [spelled]
      rw [hdigit hsmall, hnil, List.nil_append] at hspelled
      rw [Numeral.bytes, Numeral.codes_of_lt (by decide) hsmall]
      exact hspelled
    · have hlast : n % 10 < 10 := Nat.mod_lt n (by decide)
      have hquotient := ih (n / 10) (Nat.div_lt_self (by omega) (by decide))
      rw [Numeral.bytes] at hquotient
      rw [Numeral.bytes, Numeral.codes_of_base_le (by decide) (Nat.le_of_not_lt hsmall),
        List.map_append, List.map_singleton, spelled_concat, hdigit hlast, hquotient,
        Nat.mod_add_div]

theorem isDigit_of_mem_bytes {n : Nat} : ∀ d ∈ Numeral.bytes 10 n, isDigit d := by
  intro d hd
  obtain ⟨code, hcode, rfl⟩ := List.mem_map.mp hd
  obtain ⟨digit, hdigit, rfl⟩ := Numeral.exists_symbol_of_mem_codes (by decide) hcode
  interval_cases digit <;> rfl

theorem output_text_digits {length : Nat} (hlength : length < 2 ^ 32) (bytes : List UInt8) :
    output ([percent, dot] ++ Numeral.bytes 10 length ++ [115]) [.text bytes] =
      bytes.take length := by
  have hclosed := Precision.closed_text (isDigit_of_mem_bytes (n := length))
  have hreading : (Precision.digits (Numeral.bytes 10 length)).reading [.text bytes] =
      some length := by
    rw [Precision.reading, Precision.spelled_bytes, Nat.min_eq_left (by omega)]
  refine (output_bytes_conversion hclosed (by decide) _).trans ?_
  simp [Item.text, Arg.shown, Precision.need, hreading, Arg.bytes, percent]

/-- A text as a format, with every percent sign written twice. -/
def doubled (bytes : List UInt8) : List UInt8 :=
  bytes.flatMap fun byte => if byte = percent then [percent, percent] else [byte]

/-- Two percent signs print one and take no argument. -/
theorem output_doubled {bytes : List UInt8} (hnul : 0 ∉ bytes) (args : List Arg) :
    output (doubled bytes) args = bytes := by
  induction bytes with
  | nil => exact output_nil args
  | cons byte rest ih =>
    have hbyte : byte ≠ 0 := fun h => hnul (by simp [h])
    have hrest : 0 ∉ rest := fun h => hnul (List.mem_cons_of_mem _ h)
    rw [doubled, List.flatMap_cons, ← doubled]
    by_cases hpercent : byte = percent
    · have hclosed : Precision.absent.Closed (some percent) := Precision.closed_absent (by decide)
      have hprints := output_conversion hclosed (by decide) (doubled rest) args
      rw [if_pos hpercent]
      refine hprints.trans ?_
      simp [Item.text, Item.need, Precision.need, hpercent, ih hrest]
    · rw [if_neg hpercent, List.singleton_append, output_literal hpercent hbyte, ih hrest]

end HartRuntime.Format
