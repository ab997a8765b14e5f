import HartRuntime.Proofs.Image.Startup

namespace HartRuntime.Image.Layout

/-- A layout whose regions start at words, wherever they end. -/
structure Aligned (layout : Layout) : Prop where
  source_aligned : 4 ∣ layout.load
  data_aligned : 4 ∣ layout.dataStart
  bss_aligned : 4 ∣ layout.bssStart

theorem Aligned.exists_fits {layout : Layout} (h : layout.Aligned) :
    ∃ memory, layout.Fits memory := by
  let length := layout.load + layout.dataStart + layout.data.words + layout.bssStart +
    layout.bss.words
  have hinside (span : Span) (hspan : span.start + span.words ≤ length) :
      span.Inside (List.replicate length 0) := by
    apply Span.inside_iff.mpr
    rw [List.length_replicate]
    omega
  refine ⟨List.replicate length 0, h.source_aligned, h.data_aligned, h.bss_aligned,
    hinside _ ?_, hinside _ ?_, hinside _ ?_⟩
  · simp only [length, source, data]
    omega
  · simp only [length, data]
    omega
  · simp only [length, bss]
    omega

/-- To copy the data once more changes nothing. -/
def Settles (layout : Layout) (memory : Words) : Prop :=
  layout.performAll memory [.copyData, .copyData] = layout.performAll memory [.copyData]

/-- The word of the data that holds an address. -/
theorem Fits.exists_word {layout : Layout} {memory : Words} (h : layout.Fits memory)
    {address : Nat} (haddress : layout.data.Covers address) :
    ∃ j < layout.data.words, address / 4 = (layout.dataStart + 4 * j) / 4 := by
  have haligned : 4 ∣ layout.data.start := h.data_aligned
  obtain ⟨hlow, hhigh⟩ := (Span.covers_iff haligned address).mp haddress
  simp only [data] at hlow hhigh haligned ⊢
  exact ⟨address / 4 - layout.dataStart / 4, by omega, by omega⟩

/-- Where a word of the data comes from: the words in front of the data are repeated if it is
    loaded there. -/
def origin (layout : Layout) (j : Nat) : Nat :=
  layout.load + 4 * (j % ((layout.dataStart - layout.load) / 4))

/-- A copy that reads none of the words that it writes may be made again. -/
theorem Fits.settles_of_unwritten {layout : Layout} {memory : Words} (h : layout.Fits memory)
    (hunwritten : ∀ j < layout.data.words, ¬ layout.data.Covers (layout.origin j)) :
    layout.Settles memory := by
  have hlength := length_perform layout memory .copyData
  have hagain : layout.Fits (layout.perform memory .copyData) := h.of_length hlength
  refine Words.ext_load (length_perform layout _ .copyData) fun address => ?_
  by_cases haddress : layout.data.Covers address
  · obtain ⟨j, hj, hword⟩ := h.exists_word haddress
    calc (layout.perform (layout.perform memory .copyData) .copyData).load address
        = (layout.perform (layout.perform memory .copyData) .copyData).load
            (layout.dataStart + 4 * j) := Words.load_congr _ hword
      _ = (layout.perform memory .copyData).load (layout.origin j) := hagain.load_data hj
      _ = memory.load (layout.origin j) := h.load_outside (hunwritten j hj)
      _ = (layout.perform memory .copyData).load (layout.dataStart + 4 * j) := (h.load_data hj).symm
      _ = (layout.perform memory .copyData).load address := Words.load_congr _ hword.symm
  · exact hagain.load_outside haddress

theorem Fits.settles_of_behind {layout : Layout} {memory : Words} (h : layout.Fits memory)
    (hload : layout.load < layout.dataStart) : layout.Settles memory := by
  have hsource := h.source_aligned
  have hdata := h.data_aligned
  apply h.settles_of_unwritten
  intro j _ hcovers
  -- What is read over and over lies in front of the data as a whole.
  have hperiod : 0 < (layout.dataStart - layout.load) / 4 := by omega
  have hrepeated := Nat.mod_lt j hperiod
  have hlow : layout.dataStart ≤ layout.origin j := hcovers.1
  unfold origin at hlow
  omega

theorem Fits.settles_of_beyond {layout : Layout} {memory : Words} (h : layout.Fits memory)
    (hload : layout.dataStart + 4 * layout.data.words ≤ layout.load) : layout.Settles memory := by
  apply h.settles_of_unwritten
  intro j _ hcovers
  have hhigh : layout.origin j < layout.dataStart + 4 * layout.data.words := hcovers.2
  unfold origin at hhigh
  omega

theorem settles_of_eq {layout : Layout} (memory : Words) (hload : layout.load = layout.dataStart) :
    layout.Settles memory := by
  simp only [Settles, performAll, List.foldl_cons, List.foldl_nil, perform, if_pos hload]

/-- The first word of data that is loaded where other data runs: each copy moves on what the
    one before it brought. -/
theorem Fits.load_dataStart {layout : Layout} {memory : Words} (h : layout.Fits memory)
    (hahead : layout.dataStart < layout.load)
    (hwithin : layout.load < layout.dataStart + 4 * layout.data.words) :
    let once := layout.performAll memory [.copyData]
    let twice := layout.performAll memory [.copyData, .copyData]
    once.load layout.dataStart = memory.load layout.load ∧
      twice.load layout.dataStart =
        memory.load (layout.load + (layout.load - layout.dataStart)) := by
  have hsource := h.source_aligned
  have hdata := h.data_aligned
  have hle := Nat.le_of_lt hahead
  have hagain : layout.Fits (layout.perform memory .copyData) :=
    h.of_length (length_perform layout memory .copyData)
  have hfirst : 0 < layout.data.words := by omega
  have hlater : (layout.load - layout.dataStart) / 4 < layout.data.words := by omega
  have hstep : 4 * ((layout.load - layout.dataStart) / 4) = layout.load - layout.dataStart := by
    omega
  have hmoved := h.load_data_of_exact (.inr hle) hlater
  rw [hstep, Nat.add_sub_cancel' hle] at hmoved
  exact ⟨h.load_data_of_exact (.inr hle) hfirst,
    (hagain.load_data_of_exact (.inr hle) hfirst).trans hmoved⟩

/-- Where the data is loaded within the region where it runs, every memory has a first word to
    load with which a second copy changes it. -/
theorem Fits.exists_not_settles {layout : Layout} {memory : Words} (h : layout.Fits memory)
    (hahead : layout.dataStart < layout.load)
    (hwithin : layout.load < layout.dataStart + 4 * layout.data.words) :
    ∃ word, ¬ layout.Settles (memory.store layout.load word) := by
  have hsource := h.source_aligned
  have hdata := h.data_aligned
  have hroom : layout.load / 4 < memory.length :=
    h.source_inside.lt_length (j := 0) (by simp only [source, data] at *; omega)
  have hother : ¬ (layout.load / 4 = (layout.load + (layout.load - layout.dataStart)) / 4 ∧
      layout.load / 4 < memory.length) := by
    omega
  obtain ⟨word, hword⟩ :
      ∃ word, word ≠ memory.load (layout.load + (layout.load - layout.dataStart)) :=
    ⟨memory.load (layout.load + (layout.load - layout.dataStart)) + 1, by simp⟩
  refine ⟨word, fun hsettles => ?_⟩
  have hfits := h.of_length (Words.length_store memory layout.load word)
  obtain ⟨honce, htwice⟩ := hfits.load_dataStart hahead hwithin
  rw [Words.load_store, if_pos ⟨rfl, hroom⟩] at honce
  rw [hsettles, honce, Words.load_store, if_neg hother] at htwice
  exact hword htwice

/-- Data may be copied again where it is not loaded inside the region where it runs, whatever
    else overlaps. Where it is, some memory of every size that has room for the layout changes
    with the second copy. -/
theorem settles_or_exists_not_settles {layout : Layout} (haligned : layout.Aligned) :
    (∃ memory, layout.Fits memory) ∧
      (layout.load ≤ layout.dataStart ∨
          layout.dataStart + 4 * layout.data.words ≤ layout.load →
        ∀ memory, layout.Fits memory → layout.Settles memory) ∧
      (layout.dataStart < layout.load →
        layout.load < layout.dataStart + 4 * layout.data.words →
          ∀ memory, layout.Fits memory →
            ∃ other, other.length = memory.length ∧ layout.Fits other ∧
              ¬ layout.Settles other) := by
  refine ⟨haligned.exists_fits, fun houtside memory hfits => ?_,
    fun hahead hwithin memory hfits => ?_⟩
  · rcases houtside with hbehind | hbeyond
    · rcases Nat.lt_or_eq_of_le hbehind with hlt | heq
      · exact hfits.settles_of_behind hlt
      · exact settles_of_eq memory heq
    · exact hfits.settles_of_beyond hbeyond
  · obtain ⟨word, hword⟩ := hfits.exists_not_settles hahead hwithin
    have hlength := Words.length_store memory layout.load word
    exact ⟨_, hlength, hfits.of_length hlength, hword⟩

/-- Four words that run one word in front of where they are loaded, the last of them in part. -/
def advancing : Layout where
  load := 8
  dataStart := 4
  dataEnd := 18
  bssStart := 0
  bssEnd := 0

theorem settles_or_exists_not_settles_overlapping :
    overlapping.Settles [10, 11, 12, 13, 14, 15, 16, 17, 18] ∧
      ∃ other, other.length = 6 ∧ advancing.Fits other ∧ ¬ advancing.Settles other := by
  have hbehind : overlapping.Fits [10, 11, 12, 13, 14, 15, 16, 17, 18] :=
    ⟨by decide, by decide, by decide, by decide, by decide, by decide⟩
  have hahead : advancing.Fits [0, 0, 0, 0, 0, 0] :=
    ⟨by decide, by decide, by decide, by decide, by decide, by decide⟩
  obtain ⟨-, hsettles, -⟩ := settles_or_exists_not_settles
    ⟨hbehind.source_aligned, hbehind.data_aligned, hbehind.bss_aligned⟩
  obtain ⟨-, -, hchanges⟩ := settles_or_exists_not_settles
    ⟨hahead.source_aligned, hahead.data_aligned, hahead.bss_aligned⟩
  exact ⟨hsettles (.inl (by decide)) _ hbehind, hchanges (by decide) (by decide) _ hahead⟩

end HartRuntime.Image.Layout
