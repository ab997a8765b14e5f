import Mathlib.Algebra.BigOperators.Ring.Finset
import Mathlib.Tactic.Ring
import HartRuntime.Register

namespace HartRuntime

/-- Little-endian digits are bytes, the lowest first. -/
theorem getElem?_littleEndianBytes (count value i : Nat) :
    (littleEndianBytes count value)[i]? =
      if i < count then some (UInt8.ofNat (value / 256 ^ i)) else none := by
  induction count generalizing value i with
  | zero => simp [littleEndianBytes]
  | succ count ih =>
    cases i with
    | zero => simp [littleEndianBytes]
    | succ i =>
      have hdiv : value / 256 / 256 ^ i = value / 256 ^ (i + 1) := by
        rw [Nat.div_div_eq_div_mul, Nat.pow_succ']
      rw [littleEndianBytes, List.getElem?_cons_succ, ih, hdiv]
      simp only [Nat.add_lt_add_iff_right]

theorem littleEndian_map_range (byte : Nat → UInt8) (count : Nat) :
    littleEndian ((List.range count).map byte) =
      ∑ i ∈ Finset.range count, (byte i).toNat * 256 ^ i := by
  induction count generalizing byte with
  | zero => rfl
  | succ count ih =>
    rw [List.range_succ_eq_map, List.map_cons, List.map_map, littleEndian, ih, Finset.sum_range_succ',
      Finset.mul_sum, Nat.pow_zero, Nat.mul_one, Nat.add_comm]
    congr 1
    apply Finset.sum_congr rfl
    intro i _
    rw [Function.comp_apply, Nat.pow_succ', Nat.mul_left_comm]

theorem littleEndian_append (first second : List UInt8) :
    littleEndian (first ++ second) =
      littleEndian first + 256 ^ first.length * littleEndian second := by
  induction first with
  | nil => simp [littleEndian]
  | cons byte rest ih =>
    rw [List.cons_append, littleEndian, littleEndian, ih, List.length_cons, Nat.pow_succ']
    ring

theorem littleEndian_lt (bytes : List UInt8) : littleEndian bytes < 256 ^ bytes.length := by
  induction bytes with
  | nil => simp [littleEndian]
  | cons byte rest ih =>
    have hbyte := byte.toNat_lt
    rw [littleEndian, List.length_cons, Nat.pow_succ']
    omega

namespace Memory

@[simp] theorem length_load (memory : Memory) (offset count : Nat) :
    (memory.load offset count).length = count := by
  rw [load, List.length_map, List.length_range]

theorem load_add (memory : Memory) (offset first second : Nat) :
    memory.load offset (first + second) =
      memory.load offset first ++ memory.load (offset + first) second := by
  rw [load, List.range_add, List.map_append, List.map_map, load, load]
  simp only [Function.comp_def, Nat.add_assoc]

@[simp] theorem length_store (memory : Memory) (offset : Nat) (bytes : List UInt8) :
    (memory.store offset bytes).length = memory.length := by
  induction bytes generalizing memory offset with
  | nil => rfl
  | cons byte rest ih => rw [store, ih, List.length_set]

/-- A store replaces the bytes that it covers, and no others. -/
theorem getElem?_store (memory : Memory) (offset : Nat) (bytes : List UInt8) (i : Nat) :
    (memory.store offset bytes)[i]? =
      memory[i]?.map fun old => if offset ≤ i then bytes[i - offset]?.getD old else old := by
  induction bytes generalizing memory offset with
  | nil => simp [store]
  | cons byte rest ih =>
    rw [store, ih]
    rcases Nat.lt_trichotomy i offset with hbelow | hhere | habove
    · have hnow : ¬ offset ≤ i := Nat.not_le.mpr hbelow
      have hlater : ¬ offset + 1 ≤ i := fun h => hnow (Nat.le_of_succ_le h)
      rw [List.getElem?_set_ne (Nat.ne_of_gt hbelow)]
      simp only [hnow, hlater, if_false]
    · subst hhere
      have hlater : ¬ i + 1 ≤ i := Nat.not_succ_le_self i
      rw [List.getElem?_set_self']
      simp [Function.const_def, hlater]
    · have hindex : i - offset = i - (offset + 1) + 1 := by omega
      have hnow : offset ≤ i := Nat.le_of_lt habove
      have hlater : offset + 1 ≤ i := habove
      rw [List.getElem?_set_ne (Nat.ne_of_lt habove), hindex]
      simp only [hnow, hlater, if_true, List.getElem?_cons_succ]

theorem littleEndian_load (memory : Memory) (offset count : Nat) :
    littleEndian (memory.load offset count) =
      ∑ i ∈ Finset.range count, (memory.getD (offset + i) 0).toNat * 256 ^ i :=
  littleEndian_map_range (fun i => memory.getD (offset + i) 0) count

end Memory

end HartRuntime
