namespace HartRuntime.SplitRead

/-- A load of one half of a 64-bit counter. -/
inductive Half where
  | high
  | low
  deriving DecidableEq

/-- The loads of one round: high, low, and high again. -/
def roundLoads : List Half := [.high, .low, .high]

/-- The counter value that two halves make. -/
def join (high low : UInt32) : UInt64 :=
  UInt64.ofNat (high.toNat * 0x100000000 + low.toNat)

/-- What a split read returned, and the loads it made in order. -/
structure Reading where
  value : UInt64
  loads : List Half
  deriving DecidableEq

/-- Reads in rounds, from a given one on and at most as many as allowed, until both
    loads of the high half agree, so that a carry between the loads is never observed.
    `high k` and `low k` are what the load number `k` of a half returns. -/
def within (high low : Nat → UInt32) : (rounds round : Nat) → Option Reading
  | 0, _ => none
  | rounds + 1, round =>
    if high (2 * round) = high (2 * round + 1) then
      some ⟨join (high (2 * round)) (low round), roundLoads⟩
    else
      (within high low rounds (round + 1)).map fun reading =>
        { reading with loads := roundLoads ++ reading.loads }

/-- A list whose last value repeats for ever; the empty list repeats zero. -/
def padded (values : List UInt32) (k : Nat) : UInt32 :=
  values.getD k (values.getLastD 0)

theorem padded_eq_of_length_le_succ {values : List UInt32} {i j : Nat}
    (hi : values.length ≤ i + 1) (hj : values.length ≤ j + 1) : padded values i = padded values j := by
  have hlast : ∀ k, values.length ≤ k + 1 → padded values k = values.getLastD 0 := by
    intro k hk
    rw [padded, List.getD_eq_getElem?_getD]
    by_cases hlt : k < values.length
    · have hindex : k = values.length - 1 := by omega
      rw [hindex, ← List.getLast?_eq_getElem?]
      cases hvalues : values.getLast? <;> simp [List.getLastD_eq_getLast?, hvalues]
    · rw [List.getElem?_eq_none (by omega)]
      rfl
  rw [hlast i hi, hlast j hj]

/-- The round in which the list of high halves runs out is accepted at the latest. -/
theorem within_isSome {high : List UInt32} {low : Nat → UInt32} {rounds round : Nat}
    (hpositive : 0 < rounds) (hrounds : high.length / 2 ≤ round + rounds - 1) :
    (within (padded high) low rounds round).isSome := by
  induction rounds generalizing round with
  | zero => omega
  | succ rounds ih =>
    rw [within]
    split
    · rfl
    · rename_i hdiffer
      rw [Option.isSome_map]
      apply ih
      · rcases Nat.eq_zero_or_pos rounds with hzero | hmore
        · exact absurd (padded_eq_of_length_le_succ (by omega) (by omega)) hdiffer
        · exact hmore
      · omega

/-- A split read of two halves whose loads return the given values in order, the last
    of each list for ever. -/
def ofLists (high low : List UInt32) : Reading :=
  (within (padded high) (padded low) (high.length / 2 + 1) 0).get
    (within_isSome (by omega) (by omega))

end HartRuntime.SplitRead
