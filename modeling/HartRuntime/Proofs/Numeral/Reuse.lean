import HartRuntime.Proofs.Numeral.Canonical

namespace HartRuntime.Numeral

namespace Filled

/-- The loop that stores the digits of a number, with the count of its rounds: it goes on until
    nothing is left of the number, which a base below two would never bring about. -/
inductive Rounds (base : Nat) : Nat → Nat → Filled → Filled → Prop where
  | done (f : Filled) : Rounds base 0 0 f f
  | round {n rounds : Nat} {f last : Filled} (hn : n ≠ 0)
      (hrest : Rounds base (n / base) rounds (f.push (UInt8.ofNat (symbol (n % base)))) last) :
      Rounds base n (rounds + 1) f last

theorem rounds_pushDigits {base : Nat} (hbase : 2 ≤ base) (n : Nat) (f : Filled) :
    Rounds base n (lowDigits base n).length f (f.pushDigits base n) := by
  fun_induction pushDigits base n f with
  | case1 n f h ih =>
    rw [lowDigits, dif_pos h, List.length_cons]
    exact .round h.2 ih
  | case2 n f h =>
    have hn : n = 0 := by
      by_contra hn
      exact h ⟨hbase, hn⟩
    subst hn
    rw [lowDigits, dif_neg h]
    exact .done f

/-- A buffer that was filled from its start: each place in use was stored to once, one place
    after the other, and the bytes behind them are those that were there before. -/
structure From (f : Filled) (before : Scratch) : Prop where
  stores : f.stores = (List.range f.length).reverse
  kept : ∀ index (h : index < 34), f.length ≤ index → f.buffer[index] = before[index]

theorem from_empty (before : Scratch) : before.empty.From before where
  stores := rfl
  kept _ _ _ := rfl

theorem From.push {f : Filled} {before : Scratch} (h : f.From before) (byte : UInt8) :
    (f.push byte).From before where
  stores := by
    rw [Filled.push, h.stores, List.range_succ, List.reverse_concat]
  kept index hindex hbehind := by
    have hother : f.length < index := hbehind
    rw [← h.kept index hindex (Nat.le_of_lt hother)]
    exact Vector.getElem_setIfInBounds_ne hindex (Nat.ne_of_lt hother)

theorem From.pushDigits {f : Filled} {before : Scratch} (h : f.From before) (base n : Nat) :
    (f.pushDigits base n).From before := by
  fun_induction Filled.pushDigits base n f with
  | case1 n f _ ih => exact ih (h.push _)
  | case2 => exact h

/-- The bytes in use are reversed where they are. -/
theorem From.reverse {f : Filled} {before : Scratch} (h : f.From before) :
    f.reverse.From before where
  stores := by
    rw [Filled.reverse]
    exact h.stores
  kept index hindex hbehind := by
    rw [Filled.reverse] at hbehind ⊢
    rw [Vector.getElem_ofFn, if_neg (Nat.not_lt.mpr hbehind)]
    exact h.kept index hindex hbehind

theorem length_text {f : Filled} (hfits : f.length ≤ 34) : f.text.length = f.length := by
  rw [text, List.length_take, Vector.length_toList, Nat.min_eq_left hfits]

end Filled

namespace Scratch

theorem from_convert (buffer : Scratch) (value : Int32) (base : UInt32) :
    (buffer.convert value base).From buffer := by
  have hempty := Filled.from_empty buffer
  have hdigits := hempty.pushDigits base.toNat (magnitude value base.toNat)
  unfold convert
  split
  · exact hempty
  · split
    · exact hempty.push 48
    · simp only
      split
      · exact (hdigits.push 45).reverse
      · exact hdigits.reverse

/-- The sign takes a place only in base ten, where there are few digits. -/
theorem length_convert_le (buffer : Scratch) (value : Int32) (base : UInt32) :
    (buffer.convert value base).length ≤ 32 := by
  have hlength := Filled.length_pushDigits base.toNat (magnitude value base.toNat) buffer.empty
  have hempty : buffer.empty.length = 0 := rfl
  unfold convert
  split
  · exact Nat.zero_le 32
  · next hbase =>
    have hdigits := length_lowDigits_magnitude_le value (not_not.mp hbase).1
    split
    · exact Nat.le_add_left 1 31
    · simp only
      split
      · next hsigned =>
        have hten : base.toNat = 10 := (signed_eq_true_iff.mp hsigned).1
        have hfew : (lowDigits base.toNat (magnitude value base.toNat)).length ≤ 10 := by
          apply lowDigits_length_le
          have hword := magnitude_lt value base.toNat
          rw [hten] at hword ⊢
          omega
        simp only [Filled.reverse, Filled.push]
        omega
      · simp only [Filled.reverse]
        omega

/-- What was converted before is never seen again. -/
theorem convertAll_eq (buffer : Scratch) (cases : List (Int32 × UInt32)) :
    buffer.convertAll cases = cases.map fun pair => (fresh.convert pair.1 pair.2).text := by
  induction cases generalizing buffer with
  | nil => rfl
  | cons pair rest ih =>
    obtain ⟨value, base⟩ := pair
    rw [convertAll, List.map_cons, ih, text_convert, text_convert]

end Scratch

/-- A conversion ends, and it stays within the first 32 bytes of its buffer, sign included: the
    bytes in use are its text, and those behind them are as they were. What was there before does
    not show in the text, so that one buffer serves any number of conversions. -/
theorem contained_convert (buffer : Scratch) (value : Int32) (base : UInt32) :
    let filled := buffer.convert value base
    (Base base.toNat → ∃ rounds ≤ 32,
        Filled.Rounds base.toNat (magnitude value base.toNat) rounds buffer.empty
          (buffer.empty.pushDigits base.toNat (magnitude value base.toNat))) ∧
      (∀ index ∈ filled.stores, index < 32) ∧
      filled.From buffer ∧
      (filled.text = filled.buffer.toList.take filled.length ∧
        filled.text.length = filled.length ∧ filled.length ≤ 32) ∧
      (¬ Base base.toNat → filled.buffer = buffer ∧ filled.stores = []) ∧
      (∀ other : Scratch, (other.convert value base).text = filled.text) ∧
      ∀ cases, buffer.convertAll cases =
        cases.map fun pair => (Scratch.fresh.convert pair.1 pair.2).text := by
  intro filled
  have hfrom : filled.From buffer := Scratch.from_convert buffer value base
  have hlength : filled.length ≤ 32 := Scratch.length_convert_le buffer value base
  refine ⟨fun hbase => ?_, fun index hindex => ?_, hfrom, ⟨rfl, ?_, hlength⟩, fun hbase => ?_,
    fun other => ?_, Scratch.convertAll_eq buffer⟩
  · exact ⟨_, length_lowDigits_magnitude_le value hbase.1, Filled.rounds_pushDigits hbase.1 _ _⟩
  · rw [hfrom.stores, List.mem_reverse, List.mem_range] at hindex
    omega
  · exact Filled.length_text (by omega)
  · have hnone : filled = buffer.empty := if_pos hbase
    rw [hnone]
    exact ⟨rfl, rfl⟩
  · rw [Scratch.text_convert, Scratch.text_convert]

/-- A word of all ones takes up every one of the 32 bytes and leaves the other two; a minus sign
    that follows it in the same buffer is as it would be in a fresh one. -/
theorem contained_convert_widest :
    let nines : Scratch := Vector.replicate 34 57
    Base (2 : UInt32).toNat ∧ (nines.convert (-1) 2).text = List.replicate 32 49 ∧
      (nines.convert (-1) 2).buffer[32] = 57 ∧ (nines.convert (-1) 2).buffer[33] = 57 ∧
      nines.convertAll [(-1, 2), (-7, 10)] = [List.replicate 32 49, [45, 55]] := by
  intro nines
  obtain ⟨-, -, hfrom, ⟨-, -, hfits⟩, -, -, hall⟩ := contained_convert nines (-1) 2
  have hones : (nines.convert (-1) 2).text = List.replicate 32 49 := by
    rw [Scratch.text_convert]
    decide +kernel
  refine ⟨by decide, hones, ?_, ?_, ?_⟩
  · rw [hfrom.kept 32 (by decide) hfits, Vector.getElem_replicate]
  · rw [hfrom.kept 33 (by decide) (by omega), Vector.getElem_replicate]
  · rw [hall, List.map_cons, List.map_singleton, Scratch.text_convert, Scratch.text_convert]
    decide +kernel

end HartRuntime.Numeral
