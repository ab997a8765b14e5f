import Mathlib.Data.Nat.Digits.Defs
import Mathlib.Tactic.IntervalCases
import HartRuntime.Numeral.Scratch

namespace HartRuntime.Numeral

theorem codes_of_lt {base n : Nat} (hbase : 2 ≤ base) (hn : n < base) :
    codes base n = [symbol n] := by
  by_cases hzero : n = 0
  · simp [codes, hzero]
  · simp [codes, hzero, lowDigits, hbase, Nat.mod_eq_of_lt hn, Nat.div_eq_of_lt hn]

/-- The last digit comes off the end. -/
theorem codes_of_base_le {base n : Nat} (hbase : 2 ≤ base) (hn : base ≤ n) :
    codes base n = codes base (n / base) ++ [symbol (n % base)] := by
  have hpos : n ≠ 0 := by omega
  have hquotient : n / base ≠ 0 := (Nat.div_pos hn (by omega)).ne'
  rw [codes, if_neg hpos, lowDigits, dif_pos ⟨hbase, hpos⟩, codes, if_neg hquotient]
  simp

theorem exists_symbol_of_mem_codes {base n code : Nat} (hbase : 2 ≤ base)
    (hcode : code ∈ codes base n) : ∃ digit < base, code = symbol digit := by
  induction n using Nat.strongRecOn with
  | ind n ih =>
    by_cases hsmall : n < base
    · rw [codes_of_lt hbase hsmall, List.mem_singleton] at hcode
      exact ⟨n, hsmall, hcode⟩
    · rw [codes_of_base_le hbase (by omega), List.mem_append, List.mem_singleton] at hcode
      rcases hcode with hfront | rfl
      · exact ih (n / base) (Nat.div_lt_self (by omega) hbase) hfront
      · exact ⟨n % base, Nat.mod_lt n (by omega), rfl⟩

theorem symbol_eq_digitChar {digit : Nat} (hdigit : digit < 16) :
    symbol digit = (Nat.digitChar digit).toNat := by
  interval_cases digit <;> rfl

/-- A symbol is read as the digit that it stands for. -/
theorem digit?_symbol {digit : Nat} (hdigit : digit < 36) : digit? (symbol digit) = some digit := by
  unfold symbol digit?
  split
  · rw [if_pos (by omega), Nat.add_sub_cancel_left]
  · rw [if_neg (by omega), if_pos (by omega), Nat.add_sub_cancel_left]

theorem toNat_ofNat_symbol {digit : Nat} (hdigit : digit < 36) :
    (Char.ofNat (symbol digit)).toNat = symbol digit := by
  interval_cases digit <;> rfl

/-- Up to base sixteen, numerals are spelled as the standard library spells them. Above
    it the standard library has no symbols left. -/
theorem codes_eq_toDigits {base : Nat} (hlow : 2 ≤ base) (hhigh : base ≤ 16) (n : Nat) :
    codes base n = (Nat.toDigits base n).map Char.toNat := by
  induction n using Nat.strongRecOn with
  | ind n ih =>
    by_cases hsmall : n < base
    · rw [codes_of_lt hlow hsmall, Nat.toDigits_of_lt_base hsmall,
        symbol_eq_digitChar (by omega)]
      rfl
    · have hlast : n % base < base := Nat.mod_lt n (by omega)
      rw [codes_of_base_le hlow (by omega), Nat.toDigits_of_base_le hlow (by omega),
        ih (n / base) (Nat.div_lt_self (by omega) hlow), symbol_eq_digitChar (by omega)]
      simp

theorem bytes_eq_toDigits {base : Nat} (hlow : 2 ≤ base) (hhigh : base ≤ 16) (n : Nat) :
    bytes base n = (Nat.toDigits base n).map fun c => UInt8.ofNat c.toNat := by
  rw [bytes, codes_eq_toDigits hlow hhigh, List.map_map]
  rfl

theorem text_ten (n : Nat) : text 10 n = toString n := by
  have hchars : Char.ofNat ∘ Char.toNat = id := funext fun c => Char.ofNat_toNat c
  rw [text, codes_eq_toDigits (by omega) (by omega), List.map_map, hchars, List.map_id]
  rfl

theorem toNat_toUInt32_of_nonneg {value : Int32} (hvalue : 0 ≤ value.toInt) :
    value.toUInt32.toNat = value.toInt.natAbs := by
  have hcond : value.toInt = if 2 * value.toUInt32.toNat < 2 ^ 32
      then (value.toUInt32.toNat : Int) else value.toUInt32.toNat - 2 ^ 32 :=
    BitVec.toInt_eq_toNat_cond value.toBitVec
  have hword := value.toUInt32.toNat_lt
  split at hcond <;> omega

/-- A decimal numeral is that of the signed value, the least one included. -/
theorem ofInt32_ten (value : Int32) :
    ofInt32 value 10 = value.toInt.repr.toList.map fun c => UInt8.ofNat c.toNat := by
  have hbase : Base 10 := by decide
  rw [ofInt32, if_pos hbase, bytes_eq_toDigits (by omega) (by omega)]
  by_cases hneg : value < 0
  · have hsigned : signed value 10 = true := by simp [signed, hneg]
    have hlt : value.toInt < 0 := Int32.lt_iff_toInt_lt.mp hneg
    obtain ⟨m, hm⟩ := Int.eq_negSucc_of_lt_zero hlt
    simp [magnitude, hsigned, hm, Int.repr]
  · have hsigned : signed value 10 = false := by simp [signed, hneg]
    have hle : 0 ≤ value.toInt := Int32.le_iff_toInt_le.mp (Int32.not_lt.mp hneg)
    obtain ⟨m, hm⟩ := Int.eq_ofNat_of_zero_le hle
    simp [magnitude, hsigned, toNat_toUInt32_of_nonneg hle, hm, Int.repr]

/-- Every other base shows the pattern of the word. -/
theorem ofInt32_toInt32 (word : UInt32) {base : Nat} (hbase : Base base) (hten : base ≠ 10) :
    ofInt32 word.toInt32 base = bytes base word.toNat := by
  have hsigned : signed word.toInt32 base = false := by simp [signed, hten]
  rw [ofInt32, if_pos hbase, magnitude, hsigned]
  simp

theorem lowDigits_length_le {base n width : Nat} (hn : n < base ^ width) :
    (lowDigits base n).length ≤ width := by
  fun_induction lowDigits base n generalizing width with
  | case1 n h ih =>
    cases width with
    | zero =>
      simp only [pow_zero] at hn
      omega
    | succ width =>
      rw [pow_succ, mul_comm] at hn
      have hrest := ih (Nat.div_lt_of_lt_mul hn)
      simp only [List.length_cons]
      omega
  | case2 => simp

theorem magnitude_lt (value : Int32) (base : Nat) : magnitude value base < 2 ^ 32 := by
  have hword := value.toUInt32.toNat_lt
  have hlow := value.le_toInt
  have hhigh := value.toInt_lt
  unfold magnitude
  split <;> omega

/-- A word has at most 32 digits in any base. -/
theorem length_lowDigits_magnitude_le (value : Int32) {base : Nat} (hbase : 2 ≤ base) :
    (lowDigits base (magnitude value base)).length ≤ 32 := by
  apply lowDigits_length_le
  calc magnitude value base < 2 ^ 32 := magnitude_lt value base
    _ ≤ base ^ 32 := Nat.pow_le_pow_left hbase 32

theorem magnitude_eq_zero {value : Int32} {base : Nat} : magnitude value base = 0 ↔ value = 0 := by
  unfold magnitude
  split
  · simp [← Int32.toInt_inj]
  · constructor
    · intro h
      apply Int32.toBitVec_inj.mp
      exact BitVec.eq_of_toNat_eq h
    · rintro rfl
      rfl

theorem Filled.text_push (f : Filled) (byte : UInt8) (hroom : f.length < 34) :
    (f.push byte).text = f.text ++ [byte] := by
  have hlen : f.length < f.buffer.toList.length := by simpa using hroom
  simp only [Filled.text, Filled.push, Vector.toList_setIfInBounds]
  rw [List.take_add_one, List.getElem?_set_self hlen, List.take_set_of_le (Nat.le_refl _)]
  rfl

theorem Filled.text_reverse (f : Filled) (hfits : f.length ≤ 34) :
    f.reverse.text = f.text.reverse := by
  apply List.ext_getElem
  · simp [Filled.text, Filled.reverse]
  · intro i hi _
    have hlt : i < f.length := by
      simp only [Filled.text, Filled.reverse, List.length_take] at hi
      omega
    have hback : f.length - 1 - i < 34 := by omega
    simp [Filled.text, Filled.reverse, hlt, Vector.getD, hback, hfits]

theorem Filled.length_pushDigits (base n : Nat) (f : Filled) :
    (f.pushDigits base n).length = f.length + (lowDigits base n).length := by
  fun_induction Filled.pushDigits base n f with
  | case1 n f h ih =>
    rw [ih, lowDigits.eq_def base n, dif_pos h]
    simp only [Filled.push, List.length_cons]
    omega
  | case2 n f h => simp [lowDigits, h]

theorem Filled.text_pushDigits (base n : Nat) (f : Filled)
    (hroom : f.length + (lowDigits base n).length ≤ 34) :
    (f.pushDigits base n).text = f.text ++ (lowDigits base n).map (UInt8.ofNat ∘ symbol) := by
  fun_induction Filled.pushDigits base n f with
  | case1 n f h ih =>
    have hdigits : lowDigits base n = n % base :: lowDigits base (n / base) := by
      rw [lowDigits, dif_pos h]
    rw [hdigits, List.length_cons] at hroom
    rw [ih (by simp only [Filled.push]; omega), Filled.text_push _ _ (by omega), hdigits]
    simp
  | case2 n f h => simp [lowDigits, h]

/-- A numeral comes out of the buffer as it is spelled, whatever was in the buffer. No store is
    lost. -/
theorem Scratch.text_convert (buffer : Scratch) (value : Int32) (base : UInt32) :
    (buffer.convert value base).text = ofInt32 value base.toNat := by
  unfold Scratch.convert ofInt32
  by_cases hbase : Base base.toNat
  swap
  · simp [hbase, Scratch.empty, Filled.text]
  rw [if_neg (not_not_intro hbase), if_pos hbase]
  by_cases hzero : value = 0
  · subst hzero
    rw [if_pos rfl, Filled.text_push _ _ (by simp [Scratch.empty]), magnitude_eq_zero.mpr rfl]
    simp [Scratch.empty, Filled.text, signed, bytes, codes, symbol]
  rw [if_neg hzero]
  -- The sign needs a place of its own, which the digits leave free.
  have hfits := length_lowDigits_magnitude_le value hbase.1
  have hdigits := Filled.text_pushDigits base.toNat (magnitude value base.toNat) buffer.empty
    (by simp only [Scratch.empty]; omega)
  have hlength := Filled.length_pushDigits base.toNat (magnitude value base.toNat) buffer.empty
  have hempty : buffer.empty.text = [] ∧ buffer.empty.length = 0 := ⟨rfl, rfl⟩
  rw [hempty.1, List.nil_append] at hdigits
  rw [hempty.2, Nat.zero_add] at hlength
  have hbytes : bytes base.toNat (magnitude value base.toNat) =
      ((lowDigits base.toNat (magnitude value base.toNat)).map (UInt8.ofNat ∘ symbol)).reverse := by
    simp [bytes, codes, magnitude_eq_zero, hzero]
  by_cases hsign : signed value base.toNat
  · simp only [hsign, if_true]
    rw [Filled.text_reverse _ (by simp only [Filled.push]; omega), Filled.text_push _ _ (by omega),
      hdigits, hbytes]
    simp
  · simp only [hsign]
    rw [if_neg Bool.false_ne_true, Filled.text_reverse _ (by omega), hdigits, hbytes]
    simp

end HartRuntime.Numeral
