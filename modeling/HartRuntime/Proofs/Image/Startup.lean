import HartRuntime.Proofs.Image.Copy

namespace HartRuntime.Image

theorem Words.ext_load {first second : Words} (hlength : first.length = second.length)
    (hload : ∀ address, first.load address = second.load address) : first = second := by
  apply List.ext_getElem hlength
  intro i hfirst hsecond
  have hword := hload (4 * i)
  rw [load, load, Nat.mul_div_cancel_left i (by decide)] at hword
  simpa [List.getD_eq_getElem?_getD, hfirst, hsecond] using hword

namespace Layout

@[simp] theorem length_zeroWords (memory : Words) (target stop : Nat) :
    (zeroWords memory target stop).length = memory.length := by
  fun_induction zeroWords memory target stop with
  | case1 memory target _ ih => rw [ih, Words.length_store]
  | case2 => rfl

theorem load_zeroWords {memory : Words} {target stop : Nat}
    (hroom : ∀ j < wordsBetween target stop, target / 4 + j < memory.length) (address : Nat) :
    (zeroWords memory target stop).load address =
      if target / 4 ≤ address / 4 ∧ address / 4 < target / 4 + wordsBetween target stop then 0
      else memory.load address := by
  fun_induction zeroWords memory target stop with
  | case2 memory target hstop =>
    rw [wordsBetween_of_le (Nat.le_of_not_lt hstop), if_neg (by omega)]
  | case1 memory target hstop ih =>
    have hwords := wordsBetween_of_lt hstop
    have htarget : (target + 4) / 4 = target / 4 + 1 := by omega
    have hinside : target / 4 < memory.length := hroom 0 (by omega)
    have hrest := ih fun j hj => by
      rw [Words.length_store, htarget, Nat.add_right_comm]
      exact hroom (j + 1) (by omega)
    rw [hrest, htarget]
    by_cases hlater : target / 4 + 1 ≤ address / 4 ∧
        address / 4 < target / 4 + 1 + wordsBetween (target + 4) stop
    · rw [if_pos hlater, if_pos (by omega)]
    · rw [if_neg hlater, Words.load_store]
      by_cases hfirst : target / 4 = address / 4
      · rw [if_pos ⟨hfirst, hinside⟩, if_pos (by omega)]
      · rw [if_neg (fun h => hfirst h.1), if_neg (by omega)]

theorem length_perform (layout : Layout) (memory : Words) (step : Step) :
    (layout.perform memory step).length = memory.length := by
  cases step with
  | copyData => rw [perform_copyData, length_copyWords]
  | zeroBss => exact length_zeroWords _ _ _

theorem Fits.of_length {layout : Layout} {memory other : Words} (h : layout.Fits memory)
    (hlength : other.length = memory.length) : layout.Fits other :=
  { h with
    source_inside := fun address haddress => hlength ▸ h.source_inside address haddress
    data_inside := fun address haddress => hlength ▸ h.data_inside address haddress
    bss_inside := fun address haddress => hlength ▸ h.bss_inside address haddress }

theorem Fits.load_zeroBss {layout : Layout} {memory : Words} (h : layout.Fits memory)
    (address : Nat) :
    (layout.perform memory .zeroBss).load address =
      if layout.bss.Covers address then 0 else memory.load address := by
  have hroom : ∀ j < wordsBetween layout.bssStart layout.bssEnd,
      layout.bssStart / 4 + j < memory.length := fun _ hj => h.bss_inside.lt_length hj
  have hcovers : layout.bss.Covers address ↔ _ := Span.covers_iff h.bss_aligned address
  rw [perform, load_zeroWords hroom]
  by_cases hbss : layout.bss.Covers address
  · rw [if_pos hbss]
    exact if_pos (hcovers.mp hbss)
  · rw [if_neg hbss]
    exact if_neg fun h => hbss (hcovers.mpr h)

/-- A layout without overlaps. -/
structure Apart (layout : Layout) : Prop where
  source_data : layout.source.Disjoint layout.data
  source_bss : layout.source.Disjoint layout.bss
  data_bss : layout.data.Disjoint layout.bss

theorem Fits.load_copyData {layout : Layout} {memory : Words} (h : layout.Fits memory)
    (hapart : layout.source.Disjoint layout.data) (address : Nat) :
    (layout.perform memory .copyData).load address =
      if layout.data.Covers address then
        memory.load (layout.load + (address - layout.dataStart))
      else memory.load address := by
  by_cases haddress : layout.data.Covers address
  · have hsource := h.source_aligned
    have hdata := h.data_aligned
    obtain ⟨hlow, hhigh⟩ := haddress
    simp only [data] at hlow hhigh
    have hword : (address - layout.dataStart) / 4 < layout.data.words := by
      simp only [data]
      omega
    have hexact := h.load_data_of_exact (.inl hapart) hword
    have htarget : address / 4 = (layout.dataStart + 4 * ((address - layout.dataStart) / 4)) / 4 := by
      omega
    have horigin : (layout.load + 4 * ((address - layout.dataStart) / 4)) / 4 =
        (layout.load + (address - layout.dataStart)) / 4 := by
      omega
    rw [if_pos ⟨hlow, hhigh⟩, Words.load_congr _ htarget, hexact, Words.load_congr memory horigin]
  · rw [if_neg haddress, h.load_outside haddress]

/-- The memory that a sequence of steps leaves. -/
def performAll (layout : Layout) (memory : Words) (steps : List Step) : Words :=
  steps.foldl layout.perform memory

/-- What has become of a memory after some steps of start-up. -/
structure Started (layout : Layout) (memory : Words) (steps : List Step) (after : Words) : Prop where
  length : after.length = memory.length
  data : ∀ address, layout.data.Covers address → after.load address =
    if .copyData ∈ steps then memory.load (layout.load + (address - layout.dataStart))
    else memory.load address
  bss : ∀ address, layout.bss.Covers address → after.load address =
    if .zeroBss ∈ steps then 0 else memory.load address
  rest : ∀ address, ¬ layout.data.Covers address → ¬ layout.bss.Covers address →
    after.load address = memory.load address

theorem started_nil (layout : Layout) (memory : Words) : layout.Started memory [] memory where
  length := rfl
  data _ _ := rfl
  bss _ _ := rfl
  rest _ _ _ := rfl

theorem Started.source {layout : Layout} {memory after : Words} {steps : List Step}
    (h : layout.Started memory steps after) (hapart : layout.Apart) {address : Nat}
    (haddress : layout.source.Covers address) : after.load address = memory.load address :=
  h.rest address (hapart.source_data address haddress) (hapart.source_bss address haddress)

theorem Started.next {layout : Layout} {memory before : Words} {steps : List Step}
    (h : layout.Started memory steps before) (hfits : layout.Fits memory) (hapart : layout.Apart)
    (step : Step) : layout.Started memory (steps ++ [step]) (layout.perform before step) := by
  have hnow := hfits.of_length h.length
  have hlength := (length_perform layout before step).trans h.length
  cases step with
  | copyData =>
    refine ⟨hlength, fun address hdata => ?_, fun address hbss => ?_, fun address hdata hbss => ?_⟩
    · have hsource : layout.source.Covers (layout.load + (address - layout.dataStart)) := by
        obtain ⟨hlow, hhigh⟩ := hdata
        simp only [Span.Covers, Layout.source, Layout.data] at *
        omega
      rw [hnow.load_copyData hapart.source_data, if_pos hdata, h.source hapart hsource,
        if_pos (by simp)]
    · have hdata : ¬ layout.data.Covers address := fun hdata => hapart.data_bss address hdata hbss
      rw [hnow.load_copyData hapart.source_data, if_neg hdata, h.bss address hbss]
      simp
    · rw [hnow.load_copyData hapart.source_data, if_neg hdata, h.rest address hdata hbss]
  | zeroBss =>
    refine ⟨hlength, fun address hdata => ?_, fun address hbss => ?_, fun address hdata hbss => ?_⟩
    · rw [hnow.load_zeroBss, if_neg (hapart.data_bss address hdata), h.data address hdata]
      simp
    · rw [hnow.load_zeroBss, if_pos hbss, if_pos (by simp)]
    · rw [hnow.load_zeroBss, if_neg hbss, h.rest address hdata hbss]

theorem Started.performAll {layout : Layout} {memory before : Words} {done : List Step}
    (h : layout.Started memory done before) (hfits : layout.Fits memory) (hapart : layout.Apart)
    (steps : List Step) : layout.Started memory (done ++ steps) (layout.performAll before steps) := by
  induction steps generalizing done before with
  | nil => rwa [List.append_nil]
  | cons step rest ih =>
    have hrest := ih (h.next hfits hapart step)
    rwa [List.append_assoc] at hrest

theorem Started.eq_of_mem_iff {layout : Layout} {memory first second : Words}
    {steps others : List Step} (hfirst : layout.Started memory steps first)
    (hsecond : layout.Started memory others second) (h : ∀ step, step ∈ steps ↔ step ∈ others) :
    first = second := by
  refine Words.ext_load (hfirst.length.trans hsecond.length.symm) fun address => ?_
  by_cases hdata : layout.data.Covers address
  · rw [hfirst.data address hdata, hsecond.data address hdata]
    simp only [h]
  · by_cases hbss : layout.bss.Covers address
    · rw [hfirst.bss address hbss, hsecond.bss address hbss]
      simp only [h]
    · rw [hfirst.rest address hdata hbss, hsecond.rest address hdata hbss]

theorem getElem?_trace (layout : Layout) (memory : Words) (steps : List Step) (k : Nat) :
    (layout.trace memory steps)[k]? =
      if k < steps.length then some (layout.performAll memory (steps.take (k + 1))) else none := by
  induction steps generalizing memory k with
  | nil => rfl
  | cons step rest ih =>
    cases k with
    | zero => rfl
    | succ k =>
      rw [trace, List.getElem?_cons_succ, ih]
      simp [performAll]

/-- Start-up may take its steps in any order and any number of times: where nothing overlaps,
    the memory after them tells only which of them were taken. Data is what was loaded, zeroed
    data is zero, and all else is as it was. -/
theorem started_performAll {layout : Layout} {memory : Words} (hfits : layout.Fits memory)
    (hapart : layout.Apart) :
    (∀ steps, layout.Started memory steps (layout.performAll memory steps) ∧
        ∀ address, layout.source.Covers address →
          (layout.performAll memory steps).load address = memory.load address) ∧
      (∀ steps others, (∀ step, step ∈ steps ↔ step ∈ others) →
        layout.performAll memory steps = layout.performAll memory others) ∧
      ∀ steps k, (layout.trace memory steps)[k]? =
        if k < steps.length then some (layout.performAll memory (steps.take (k + 1))) else none := by
  have hstarted (steps : List Step) :
      layout.Started memory steps (layout.performAll memory steps) :=
    (started_nil layout memory).performAll hfits hapart steps
  refine ⟨fun steps => ⟨hstarted steps, fun _ => (hstarted steps).source hapart⟩, ?_,
    getElem?_trace layout memory⟩
  exact fun steps others hsame => (hstarted steps).eq_of_mem_iff (hstarted others) hsame

/-- Three words that are loaded in front of where they run, and two zeroed ones right behind
    them, with the last of each in part. -/
def adjoining : Layout where
  load := 0
  dataStart := 12
  dataEnd := 22
  bssStart := 24
  bssEnd := 30

theorem started_performAll_adjoining :
    let memory : Words := [1, 2, 3, 4, 5, 6, 7, 8, 9]
    let after := adjoining.performAll memory [.zeroBss, .copyData, .copyData, .zeroBss]
    adjoining.Fits memory ∧ adjoining.Apart ∧
      after = adjoining.performAll memory [.copyData, .zeroBss] ∧
      after.load 8 = 3 ∧ after.load 20 = 3 ∧ after.load 24 = 0 ∧ after.load 28 = 0 ∧
      after.load 32 = 9 := by
  intro memory after
  have hfits : adjoining.Fits memory :=
    ⟨by decide, by decide, by decide, by decide, by decide, by decide⟩
  have hapart : adjoining.Apart := ⟨by decide, by decide, by decide⟩
  obtain ⟨hstarted, hsame, -⟩ := started_performAll hfits hapart
  obtain ⟨h, hsource⟩ := hstarted [.zeroBss, .copyData, .copyData, .zeroBss]
  refine ⟨hfits, hapart, hsame _ _ (fun step => by cases step <;> decide), ?_, ?_, ?_, ?_, ?_⟩
  · exact hsource 8 (by decide)
  · exact h.data 20 (by decide)
  · exact h.bss 24 (by decide)
  · exact h.bss 28 (by decide)
  · exact h.rest 32 (by decide) (by decide)

end Layout

end HartRuntime.Image
