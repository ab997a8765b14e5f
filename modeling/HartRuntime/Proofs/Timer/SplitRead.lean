import Mathlib.Order.Nat
import Mathlib.Tactic.IntervalCases
import HartRuntime.Timer.SplitRead

namespace HartRuntime.SplitRead

/-- A split read ends in the first round that it accepts, if it is allowed to get there. -/
theorem within_eq_of_first {high low : Nat → UInt32} {round first : Nat} (hround : round ≤ first)
    (hagree : high (2 * first) = high (2 * first + 1))
    (hbefore : ∀ i, round ≤ i → i < first → high (2 * i) ≠ high (2 * i + 1)) (rounds : Nat) :
    within high low rounds round =
      if first < round + rounds then
        some ⟨join (high (2 * first)) (low first),
          (List.replicate (first - round + 1) roundLoads).flatten⟩
      else none := by
  induction rounds generalizing round with
  | zero => rw [within, if_neg (by omega)]
  | succ rounds ih =>
    rw [within]
    rcases Nat.eq_or_lt_of_le hround with heq | hlt
    · subst heq
      rw [if_pos hagree, if_pos (by omega), Nat.sub_self]
      rfl
    · have hrest := ih (show round + 1 ≤ first from hlt) (fun i hi => hbefore i (by omega))
      rw [if_neg (hbefore round (Nat.le_refl round) hlt), hrest]
      by_cases hlater : first < round + (rounds + 1)
      · have hcount : first - round = first - (round + 1) + 1 := by omega
        rw [if_pos hlater, if_pos (by omega), hcount, List.replicate_succ (n := first - (round + 1) + 1)]
        rfl
      · rw [if_neg hlater, if_neg (by omega)]
        rfl

/-- The upper half of a count. -/
def upper (count : UInt64) : UInt32 :=
  UInt32.ofNat (count.toNat / 0x100000000)

/-- The lower half of a count. -/
def lower (count : UInt64) : UInt32 :=
  UInt32.ofNat count.toNat

theorem toNat_upper (count : UInt64) : (upper count).toNat = count.toNat / 0x100000000 := by
  have hbound := count.toNat_lt
  rw [upper, UInt32.toNat_ofNat']
  omega

theorem join_upper_lower (count : UInt64) : join (upper count) (lower count) = count := by
  have hlower : (lower count).toNat = count.toNat % 0x100000000 := UInt32.toNat_ofNat'
  rw [join, toNat_upper, hlower, Nat.div_add_mod', UInt64.ofNat_toNat]

theorem upper_le_upper {earlier later : UInt64} (h : earlier ≤ later) :
    (upper earlier).toNat ≤ (upper later).toNat := by
  rw [toNat_upper, toNat_upper]
  exact Nat.div_le_div_right (UInt64.le_iff_toNat_le.mp h)

/-- A counter that is sampled again and again and never found to have decreased. -/
def Rising (count : Nat → UInt64) : Prop :=
  ∀ k, count k ≤ count (k + 1)

theorem Rising.le {count : Nat → UInt64} (hrising : Rising count) {i j : Nat} (h : i ≤ j) :
    count i ≤ count j := by
  induction h with
  | refl => exact UInt64.le_refl _
  | step _ ih => exact UInt64.le_trans ih (hrising _)

/-- The loads of a split read of a counter. The counter is sampled once for each load: round
    `j` observes the upper half of sample `3 * j`, the lower half of the next sample, and the
    upper half of the one after it. -/
structure Samples (count : Nat → UInt64) (high low : Nat → UInt32) : Prop where
  first (round : Nat) : high (2 * round) = upper (count (3 * round))
  middle (round : Nat) : low round = lower (count (3 * round + 1))
  last (round : Nat) : high (2 * round + 1) = upper (count (3 * round + 2))

/-- A counter that never decreases loses a round only to a carry, so that its upper half
    keeps up with the number of the rounds lost. -/
theorem Samples.le_upper {count : Nat → UInt64} {high low : Nat → UInt32}
    (hsamples : Samples count high low) (hrising : Rising count) {round : Nat}
    (hlost : ∀ i < round, high (2 * i) ≠ high (2 * i + 1)) :
    round ≤ (upper (count (3 * round))).toNat := by
  induction round with
  | zero => exact Nat.zero_le _
  | succ round ih =>
    have hbefore := ih fun i hi => hlost i (Nat.lt_succ_of_lt hi)
    have hwithin : (upper (count (3 * round))).toNat ≤ (upper (count (3 * round + 2))).toNat :=
      upper_le_upper (hrising.le (by omega))
    have hcarry : (upper (count (3 * round))).toNat ≠ (upper (count (3 * round + 2))).toNat := by
      have hdiffer := hlost round (Nat.lt_succ_self round)
      rw [hsamples.first, hsamples.last] at hdiffer
      exact fun h => hdiffer (UInt32.toNat_inj.mp h)
    have hafter : (upper (count (3 * round + 2))).toNat ≤ (upper (count (3 * (round + 1)))).toNat :=
      upper_le_upper (hrising.le (by omega))
    omega

/-- The upper half has run out of room for carries before `2 ^ 32` rounds are lost. -/
theorem Samples.exists_agree {count : Nat → UInt64} {high low : Nat → UInt32}
    (hsamples : Samples count high low) (hrising : Rising count) :
    ∃ round < 2 ^ 32, high (2 * round) = high (2 * round + 1) := by
  by_contra hnone
  have hlost : ∀ i < 2 ^ 32, high (2 * i) ≠ high (2 * i + 1) :=
    fun i hi hagree => hnone ⟨i, hi, hagree⟩
  have hle := hsamples.le_upper hrising hlost
  have hlt := (upper (count (3 * 2 ^ 32))).toNat_lt
  omega

/-- An accepted round has seen both halves of its middle sample: the upper half lies between
    two equal ones. -/
theorem Samples.join_of_agree {count : Nat → UInt64} {high low : Nat → UInt32}
    (hsamples : Samples count high low) (hrising : Rising count) {round : Nat}
    (hagree : high (2 * round) = high (2 * round + 1)) :
    join (high (2 * round)) (low round) = count (3 * round + 1) := by
  have hbelow : (upper (count (3 * round))).toNat ≤ (upper (count (3 * round + 1))).toNat :=
    upper_le_upper (hrising.le (by omega))
  have habove : (upper (count (3 * round + 1))).toNat ≤ (upper (count (3 * round + 2))).toNat :=
    upper_le_upper (hrising.le (by omega))
  rw [hsamples.first, hsamples.last] at hagree
  have hmiddle : upper (count (3 * round)) = upper (count (3 * round + 1)) := by
    rw [← hagree] at habove
    exact UInt32.toNat_inj.mp (Nat.le_antisymm hbelow habove)
  rw [hsamples.first, hsamples.middle, hmiddle, join_upper_lower]

/-- A split read of a counter that never decreases ends within `2 ^ 32` rounds, and however
    many rounds it is allowed beyond its last one it returns what the counter was at the load
    of the lower half in that round. Any fewer rounds are not enough. -/
theorem within_of_rising {count : Nat → UInt64} {high low : Nat → UInt32}
    (hrising : Rising count) (hsamples : Samples count high low) :
    ∃ round < 2 ^ 32,
      (∀ rounds, within high low rounds 0 =
        if round < rounds then
          some ⟨count (3 * round + 1), (List.replicate (round + 1) roundLoads).flatten⟩
        else none) ∧
      count 0 ≤ count (3 * round + 1) ∧ count (3 * round + 1) ≤ count (3 * round + 2) := by
  have hexists := hsamples.exists_agree hrising
  have hsome : ∃ round, high (2 * round) = high (2 * round + 1) := by
    obtain ⟨round, -, hagree⟩ := hexists
    exact ⟨round, hagree⟩
  have hagree := Nat.find_spec hsome
  refine ⟨Nat.find hsome, ?_, ?_, hrising.le (by omega), hrising.le (by omega)⟩
  · obtain ⟨round, hround, haccepted⟩ := hexists
    exact Nat.lt_of_le_of_lt (Nat.find_min' hsome haccepted) hround
  · intro rounds
    have hread : within high low rounds 0 = _ :=
      within_eq_of_first (Nat.zero_le (Nat.find hsome)) hagree
        (fun i _ hi => Nat.find_min hsome hi) rounds
    rw [hread, hsamples.join_of_agree hrising hagree, Nat.zero_add, Nat.sub_zero]

/-- What loads of the upper half find of a counter that is sampled at every load. -/
def highLoads (count : Nat → UInt64) (load : Nat) : UInt32 :=
  upper (count (3 * (load / 2) + 2 * (load % 2)))

def lowLoads (count : Nat → UInt64) (load : Nat) : UInt32 :=
  lower (count (3 * load + 1))

theorem samples_loads (count : Nat → UInt64) :
    Samples count (highLoads count) (lowLoads count) where
  first round := by
    have hindex : 3 * (2 * round / 2) + 2 * (2 * round % 2) = 3 * round := by omega
    rw [highLoads, hindex]
  middle _ := rfl
  last round := by
    have hindex : 3 * ((2 * round + 1) / 2) + 2 * ((2 * round + 1) % 2) = 3 * round + 2 := by omega
    rw [highLoads, hindex]

/-- A counter with a carry between the first two loads. -/
def carrying (k : Nat) : UInt64 :=
  if k = 0 then 0xffffffff else if k < 4 then 0x100000000 else 0x100000005

/-- The carry costs the first round, which would have put an old upper half before a new
    lower one; the second round reads the counter as it is by then. -/
theorem within_of_rising_carrying :
    Rising carrying ∧ Samples carrying (highLoads carrying) (lowLoads carrying) ∧
      join (highLoads carrying 0) (lowLoads carrying 0) = 0 ∧
      ∀ rounds, within (highLoads carrying) (lowLoads carrying) rounds 0 =
        if 1 < rounds then some ⟨0x100000005, roundLoads ++ roundLoads⟩ else none := by
  have hrising : Rising carrying := by
    intro k
    rcases Nat.lt_or_ge k 4 with hk | hk
    · interval_cases k <;> decide
    · rw [carrying, if_neg (by omega), if_neg (by omega), carrying, if_neg (by omega), if_neg (by omega)]
      exact UInt64.le_refl _
  have hsamples := samples_loads carrying
  obtain ⟨round, -, hread, -⟩ := within_of_rising hrising hsamples
  have hlost : ¬ round < 1 := by
    intro h
    have hfirst : within (highLoads carrying) (lowLoads carrying) 1 0 = none := by decide
    rw [hread, if_pos h] at hfirst
    cases hfirst
  have hdone : round < 2 := by
    by_contra h
    have hsecond := hread 2
    rw [if_neg h] at hsecond
    exact absurd hsecond (by decide)
  obtain rfl : round = 1 := by omega
  exact ⟨hrising, hsamples, by decide, hread⟩

theorem toNat_join (high low : UInt32) :
    (join high low).toNat = high.toNat * 2 ^ 32 + low.toNat := by
  have hhigh := high.toNat_lt
  have hlow := low.toNat_lt
  rw [join, UInt64.toNat_ofNat', Nat.mod_eq_of_lt (by omega)]
  rfl

end HartRuntime.SplitRead
