import HartRuntime.Image.Layout

namespace HartRuntime.Image

/-- Consecutive words of a memory. -/
structure Span where
  start : Nat
  words : Nat
  deriving DecidableEq

namespace Span

/-- The addresses of the bytes of a span. -/
def Covers (span : Span) (address : Nat) : Prop :=
  span.start ≤ address ∧ address < span.start + 4 * span.words

instance (span : Span) (address : Nat) : Decidable (span.Covers address) :=
  inferInstanceAs (Decidable (_ ∧ _))

def Inside (span : Span) (memory : Words) : Prop :=
  ∀ address, span.Covers address → address < 4 * memory.length

/-- Spans without a byte in common. -/
def Disjoint (first second : Span) : Prop :=
  ∀ address, first.Covers address → ¬ second.Covers address

theorem disjoint_iff {first second : Span} :
    first.Disjoint second ↔ first.words = 0 ∨ second.words = 0 ∨
      first.start + 4 * first.words ≤ second.start ∨
        second.start + 4 * second.words ≤ first.start := by
  constructor
  · intro h
    have hlater := h (max first.start second.start)
    unfold Covers at hlater
    omega
  · intro h address hfirst hsecond
    unfold Covers at hfirst hsecond
    omega

instance (first second : Span) : Decidable (first.Disjoint second) :=
  decidable_of_iff _ disjoint_iff.symm

/-- A span that starts at a word covers either all or nothing of a word. -/
theorem covers_iff {span : Span} (h : 4 ∣ span.start) (address : Nat) :
    span.Covers address ↔
      span.start / 4 ≤ address / 4 ∧ address / 4 < span.start / 4 + span.words := by
  unfold Covers
  omega

theorem inside_iff {span : Span} {memory : Words} :
    span.Inside memory ↔ span.words = 0 ∨ span.start + 4 * span.words ≤ 4 * memory.length := by
  constructor
  · intro h
    by_cases hwords : span.words = 0
    · exact .inl hwords
    · have hlast := h (span.start + 4 * span.words - 1) ⟨by omega, by omega⟩
      exact .inr (by omega)
  · intro h address haddress
    unfold Covers at haddress
    omega

instance (span : Span) (memory : Words) : Decidable (span.Inside memory) :=
  decidable_of_iff _ inside_iff.symm

theorem Inside.lt_length {span : Span} {memory : Words} (h : span.Inside memory) {j : Nat}
    (hj : j < span.words) : span.start / 4 + j < memory.length := by
  have hlast := h (span.start + 4 * j) ⟨by omega, by omega⟩
  omega

end Span

namespace Words

@[simp] theorem length_store (memory : Words) (address : Nat) (word : UInt32) :
    (memory.store address word).length = memory.length :=
  List.length_set

theorem load_congr (memory : Words) {first second : Nat} (h : first / 4 = second / 4) :
    memory.load first = memory.load second := by
  rw [load, load, h]

theorem load_store (memory : Words) (address other : Nat) (word : UInt32) :
    (memory.store address word).load other =
      if address / 4 = other / 4 ∧ address / 4 < memory.length then word else memory.load other := by
  simp only [load, store, List.getD_eq_getElem?_getD, List.getElem?_set]
  by_cases hsame : address / 4 = other / 4
  · by_cases hinside : address / 4 < memory.length
    · rw [if_pos hsame, if_pos hinside, if_pos ⟨hsame, hinside⟩]
      rfl
    · rw [if_pos hsame, if_neg hinside, if_neg fun h => hinside h.2, ← hsame,
        List.getElem?_eq_none (Nat.le_of_not_lt hinside)]
  · rw [if_neg hsame, if_neg fun h => hsame h.1]

/-- To store what is there already changes nothing. -/
theorem store_load (memory : Words) (address : Nat) :
    memory.store address (memory.load address) = memory := by
  rw [store, load, List.getD_eq_getElem?_getD]
  by_cases hinside : address / 4 < memory.length
  · rw [List.getElem?_eq_getElem hinside]
    exact List.set_getElem_self hinside
  · exact List.set_eq_of_length_le (Nat.le_of_not_lt hinside)

end Words

namespace Layout

/-- The number of words that begin between a start and an end. -/
def wordsBetween (start stop : Nat) : Nat :=
  (stop - start + 3) / 4

theorem wordsBetween_of_le {start stop : Nat} (h : stop ≤ start) : wordsBetween start stop = 0 := by
  unfold wordsBetween
  omega

theorem wordsBetween_of_lt {start stop : Nat} (h : start < stop) :
    wordsBetween start stop = wordsBetween (start + 4) stop + 1 := by
  unfold wordsBetween
  omega

@[simp] theorem length_copyWords (memory : Words) (source target stop : Nat) :
    (copyWords memory source target stop).length = memory.length := by
  fun_induction copyWords memory source target stop with
  | case1 memory source target _ ih => rw [ih, Words.length_store]
  | case2 => rfl

/-- Words are copied one a round, until those that begin in front of the end are done. -/
theorem copyWords_eq_foldl (memory : Words) (source target stop : Nat) :
    copyWords memory source target stop =
      (List.range (wordsBetween target stop)).foldl
        (fun memory j => memory.store (target + 4 * j) (memory.load (source + 4 * j))) memory := by
  fun_induction copyWords memory source target stop with
  | case1 memory source target hstop ih =>
    have hnext (start j : Nat) : start + 4 + 4 * j = start + 4 * j.succ := by omega
    rw [ih, wordsBetween_of_lt hstop, List.range_succ_eq_map, List.foldl_cons, List.foldl_map]
    simp only [hnext]
    rfl
  | case2 memory source target hstop =>
    rw [wordsBetween_of_le (Nat.le_of_not_lt hstop)]
    rfl

/-- Data that already lies where it runs would be copied onto itself. -/
theorem copyWords_of_eq {memory : Words} {source target stop : Nat} (h : source = target) :
    copyWords memory source target stop = memory := by
  fun_induction copyWords memory source target stop with
  | case1 memory source target _ ih => rw [ih (by rw [h]), h, Words.store_load]
  | case2 => rfl

theorem perform_copyData (layout : Layout) (memory : Words) :
    layout.perform memory .copyData =
      copyWords memory layout.load layout.dataStart layout.dataEnd := by
  by_cases h : layout.load = layout.dataStart
  · rw [copyWords_of_eq h, perform, if_pos h]
  · rw [perform, if_neg h]

theorem succ_mod (j d : Nat) : (j + 1) % d = if j % d + 1 = d then 0 else j % d + 1 := by
  have hsplit : j + 1 = d * (j / d) + (j % d + 1) := by
    rw [← Nat.add_assoc, Nat.div_add_mod]
  split
  · next hfull => rw [hsplit, hfull, Nat.mul_add_mod, Nat.mod_self]
  · next hopen =>
    -- A period of zero, which is that of a copy to lower addresses, never comes round.
    rcases Nat.eq_zero_or_pos d with rfl | hpos
    · simp
    · have hlt := Nat.mod_lt j hpos
      rw [hsplit, Nat.mul_add_mod, Nat.mod_eq_of_lt (by omega)]

/-- A copy to higher addresses repeats the words that lie in front of its target over and over;
    without such words, where the period is zero, it is a copy of its source. -/
theorem load_copyWords {memory : Words} {source target stop : Nat}
    (hroom : ∀ j < wordsBetween target stop, target / 4 + j < memory.length) (address : Nat) :
    (copyWords memory source target stop).load address =
      if target / 4 ≤ address / 4 ∧ address / 4 < target / 4 + wordsBetween target stop then
        memory.load (source + 4 * ((address / 4 - target / 4) % (target / 4 - source / 4)))
      else memory.load address := by
  fun_induction copyWords memory source target stop with
  | case2 memory source target hstop =>
    rw [wordsBetween_of_le (Nat.le_of_not_lt hstop), if_neg (by omega)]
  | case1 memory source target hstop ih =>
    have hwords := wordsBetween_of_lt hstop
    have htarget : (target + 4) / 4 = target / 4 + 1 := by omega
    have hperiod : (target + 4) / 4 - (source + 4) / 4 = target / 4 - source / 4 := by omega
    have hinside : target / 4 < memory.length := hroom 0 (by omega)
    have hrest := ih fun j hj => by
      rw [Words.length_store, htarget, Nat.add_right_comm]
      exact hroom (j + 1) (by omega)
    rw [hrest, hperiod, htarget]
    rcases Nat.lt_trichotomy (address / 4) (target / 4) with hbelow | hfirst | habove
    · rw [if_neg (by omega), if_neg (by omega), Words.load_store, if_neg (by omega)]
    · rw [if_neg (by omega), if_pos (by omega), Words.load_store, if_pos ⟨hfirst.symm, hinside⟩,
        hfirst, Nat.sub_self, Nat.zero_mod]
      rfl
    · by_cases hcopied : address / 4 < target / 4 + wordsBetween target stop
      · obtain ⟨j, hj⟩ : ∃ j, address / 4 = target / 4 + 1 + j :=
          ⟨address / 4 - (target / 4 + 1), by omega⟩
        have hlater : address / 4 - (target / 4 + 1) = j := by omega
        have hindex : address / 4 - target / 4 = j + 1 := by omega
        rw [if_pos (by omega), if_pos (by omega), hlater, hindex, succ_mod, Words.load_store]
        -- A whole period on, the copy reads the word that it wrote in this round.
        by_cases hround : j % (target / 4 - source / 4) + 1 = target / 4 - source / 4
        · rw [if_pos hround, if_pos ⟨by omega, hinside⟩]
          rfl
        · rw [if_neg hround, if_neg (by omega)]
          exact Words.load_congr memory (by omega)
      · rw [if_neg (by omega), if_neg (by omega), Words.load_store, if_neg (by omega)]

/-- Where the initial values of the data are loaded. -/
def source (layout : Layout) : Span :=
  ⟨layout.load, wordsBetween layout.dataStart layout.dataEnd⟩

/-- Where the data runs. -/
def data (layout : Layout) : Span :=
  ⟨layout.dataStart, wordsBetween layout.dataStart layout.dataEnd⟩

/-- The data that starts as zero. -/
def bss (layout : Layout) : Span :=
  ⟨layout.bssStart, wordsBetween layout.bssStart layout.bssEnd⟩

/-- A layout of words of a memory. Only its ends may lie within words. -/
structure Fits (layout : Layout) (memory : Words) : Prop where
  source_aligned : 4 ∣ layout.load
  data_aligned : 4 ∣ layout.dataStart
  bss_aligned : 4 ∣ layout.bssStart
  source_inside : layout.source.Inside memory
  data_inside : layout.data.Inside memory
  bss_inside : layout.bss.Inside memory

theorem Fits.data_room {layout : Layout} {memory : Words} (h : layout.Fits memory) :
    ∀ j < wordsBetween layout.dataStart layout.dataEnd, layout.dataStart / 4 + j < memory.length :=
  fun _ hj => h.data_inside.lt_length hj

/-- Data that runs in front of where it is loaded has no words in front of it to repeat, and
    the period is zero then. -/
theorem Fits.load_data {layout : Layout} {memory : Words} (h : layout.Fits memory) {j : Nat}
    (hj : j < layout.data.words) :
    (layout.perform memory .copyData).load (layout.dataStart + 4 * j) =
      memory.load (layout.load + 4 * (j % ((layout.dataStart - layout.load) / 4))) := by
  have hsource := h.source_aligned
  have hdata := h.data_aligned
  have hindex : (layout.dataStart + 4 * j) / 4 - layout.dataStart / 4 = j := by omega
  have hperiod : layout.dataStart / 4 - layout.load / 4 = (layout.dataStart - layout.load) / 4 := by
    omega
  have hcovers : layout.dataStart / 4 ≤ (layout.dataStart + 4 * j) / 4 ∧
      (layout.dataStart + 4 * j) / 4 <
        layout.dataStart / 4 + wordsBetween layout.dataStart layout.dataEnd := by
    simp only [data] at hj
    omega
  rw [perform_copyData, load_copyWords h.data_room, if_pos hcovers, hindex, hperiod]

theorem Fits.load_data_of_exact {layout : Layout} {memory : Words} (h : layout.Fits memory)
    (hexact : layout.source.Disjoint layout.data ∨ layout.dataStart ≤ layout.load) {j : Nat}
    (hj : j < layout.data.words) :
    (layout.perform memory .copyData).load (layout.dataStart + 4 * j) =
      memory.load (layout.load + 4 * j) := by
  rw [h.load_data hj]
  rcases Nat.lt_or_ge layout.load layout.dataStart with hbehind | hahead
  · -- The words in front of the data are too many to be repeated.
    have hperiod : j < (layout.dataStart - layout.load) / 4 := by
      have hsource := h.source_aligned
      have hdata := h.data_aligned
      have hdisjoint := hexact.resolve_right (by omega)
      apply Nat.lt_of_not_le
      intro hrepeat
      simp only [data] at hj
      have hsourceCovers : layout.source.Covers layout.dataStart := by
        simp only [Span.Covers, source]
        omega
      have hdataCovers : layout.data.Covers layout.dataStart := by
        simp only [Span.Covers, data]
        omega
      exact hdisjoint layout.dataStart hsourceCovers hdataCovers
    rw [Nat.mod_eq_of_lt hperiod]
  · rw [Nat.sub_eq_zero_of_le hahead, Nat.zero_div, Nat.mod_zero]

theorem Fits.load_outside {layout : Layout} {memory : Words} (h : layout.Fits memory)
    {address : Nat} (haddress : ¬ layout.data.Covers address) :
    (layout.perform memory .copyData).load address = memory.load address := by
  rw [Span.covers_iff h.data_aligned] at haddress
  rw [perform_copyData, load_copyWords h.data_room]
  exact if_neg haddress

/-- What has become of a memory whose data was copied to where it runs: a copy of what was
    loaded, except that the words in front of the data are repeated if some of what was loaded
    lies there. -/
structure Copied (layout : Layout) (memory after : Words) : Prop where
  length : after.length = memory.length
  ahead (h : layout.dataStart ≤ layout.load) : ∀ j < layout.data.words,
    after.load (layout.dataStart + 4 * j) = memory.load (layout.load + 4 * j)
  behind (h : layout.load < layout.dataStart) : ∀ j < layout.data.words,
    after.load (layout.dataStart + 4 * j) =
      memory.load (layout.load + 4 * (j % ((layout.dataStart - layout.load) / 4)))
  outside : ∀ address, ¬ layout.data.Covers address → after.load address = memory.load address

/-- However the loaded data and the place where it runs overlap, it is copied word by word in
    as many rounds as there are words. The copy is exact if they do not overlap or if the data
    moves to lower addresses. Nothing depends on whether data that stays in place is copied. -/
theorem copied_perform {layout : Layout} {memory : Words} (h : layout.Fits memory) :
    let after := layout.perform memory .copyData
    layout.Copied memory after ∧
      (layout.source.Disjoint layout.data ∨ layout.dataStart ≤ layout.load →
        ∀ j < layout.data.words,
          after.load (layout.dataStart + 4 * j) = memory.load (layout.load + 4 * j)) ∧
      after = copyWords memory layout.load layout.dataStart layout.dataEnd ∧
      after = (List.range layout.data.words).foldl
        (fun memory j =>
          memory.store (layout.dataStart + 4 * j) (memory.load (layout.load + 4 * j))) memory := by
  have hloop := perform_copyData layout memory
  refine ⟨?_, fun hexact j hj => h.load_data_of_exact hexact hj, hloop,
    hloop.trans (copyWords_eq_foldl _ _ _ _)⟩
  exact
    { length := by rw [hloop, length_copyWords]
      ahead := fun hahead j hj => h.load_data_of_exact (.inr hahead) hj
      behind := fun _ j hj => h.load_data hj
      outside := fun _ haddress => h.load_outside haddress }

/-- Five words that run two words behind where they are loaded, the last of them in part. -/
def overlapping : Layout where
  load := 4
  dataStart := 12
  dataEnd := 30
  bssStart := 0
  bssEnd := 0

theorem copied_perform_overlapping :
    overlapping.Fits [10, 11, 12, 13, 14, 15, 16, 17, 18] ∧
      overlapping.perform [10, 11, 12, 13, 14, 15, 16, 17, 18] .copyData =
        [10, 11, 12, 11, 12, 11, 12, 11, 18] := by
  have hfits : overlapping.Fits [10, 11, 12, 13, 14, 15, 16, 17, 18] :=
    ⟨by decide, by decide, by decide, by decide, by decide, by decide⟩
  obtain ⟨-, -, -, hrounds⟩ := copied_perform hfits
  exact ⟨hfits, hrounds.trans (by decide)⟩

end Layout

end HartRuntime.Image
