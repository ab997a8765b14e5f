import Mathlib
import HartRuntime.Log
import HartRuntime.Text.Utf8

namespace HartRuntime.Log

/-- Characters that are the same but for the case of an ASCII letter. A small letter lies 32
    behind its capital. -/
def SameLetter (first second : Char) : Prop :=
  first = second ∨ (first.isUpper ∧ second.toNat = first.toNat + 32) ∨
    (second.isUpper ∧ first.toNat = second.toNat + 32)

/-- Texts that are the same but for the case of ASCII letters. -/
def SameWord (first second : String) : Prop :=
  List.Forall₂ SameLetter first.toList second.toList

theorem isUpper_iff (c : Char) : c.isUpper ↔ 65 ≤ c.toNat ∧ c.toNat ≤ 90 := by
  simp [Char.isUpper, UInt32.le_iff_toNat_le, ← Char.toNat_val]

theorem toNat_toLower (c : Char) :
    c.toLower.toNat = if c.isUpper then c.toNat + 32 else c.toNat := by
  have hcapital : ('A'.val ≤ c.val ∧ c.val ≤ 'Z'.val) ↔ c.isUpper := by simp [Char.isUpper]
  rw [Char.toLower]
  split
  · next h =>
    have hrange := (isUpper_iff c).mp (hcapital.mp h)
    rw [if_pos (hcapital.mp h), ← Char.toNat_val, UInt32.toNat_add, Char.toNat_val]
    have hgap : ('a'.val - 'A'.val).toNat = 32 := rfl
    omega
  · next h => rw [if_neg fun hupper => h (hcapital.mpr hupper)]

theorem toLower_eq_toLower_iff (first second : Char) :
    first.toLower = second.toLower ↔ SameLetter first second := by
  rw [SameLetter, ← Char.toNat_inj, ← Char.toNat_inj, toNat_toLower, toNat_toLower]
  simp only [isUpper_iff]
  split <;> split <;> omega

theorem map_toLower_eq_iff (first second : String) :
    first.map Char.toLower = second.map Char.toLower ↔ SameWord first second := by
  rw [← String.toList_inj, String.toList_map, String.toList_map, ← List.forall₂_eq_eq_eq,
    List.forall₂_map_left_iff, List.forall₂_map_right_iff]
  simp only [toLower_eq_toLower_iff, SameWord]

/-- The word that asks for a filter. That everything is let through has no word of its own. -/
def Filter.word? : Filter → Option String
  | .off => some "off"
  | .upTo .error => some "error"
  | .upTo .warn => some "warn"
  | .upTo .info => some "info"
  | .upTo .debug => some "debug"
  | .upTo .trace => none

theorem Filter.word?_cases {filter : Filter} {word : String} (hword : filter.word? = some word) :
    (filter = .off ∧ word = "off") ∨ (filter = .upTo .error ∧ word = "error") ∨
      (filter = .upTo .warn ∧ word = "warn") ∨ (filter = .upTo .info ∧ word = "info") ∨
      (filter = .upTo .debug ∧ word = "debug") := by
  rcases filter with _ | level
  · simp [← Option.some.inj hword]
  · cases level with
    | trace => cases hword
    | error | warn | info | debug => simp [← Option.some.inj hword]

/-- The words are written in small letters. -/
theorem map_toLower_eq_word_iff {filter : Filter} {word : String} (hword : filter.word? = some word)
    (text : String) : text.map Char.toLower = word ↔ SameWord text word := by
  have hsmall : word.map Char.toLower = word := by
    rcases Filter.word?_cases hword with ⟨-, rfl⟩ | ⟨-, rfl⟩ | ⟨-, rfl⟩ | ⟨-, rfl⟩ | ⟨-, rfl⟩ <;>
      decide +kernel
  rw [← map_toLower_eq_iff, hsmall]

/-- No two filters have the same word, so that the first word that fits decides. -/
theorem ofSetting_eq_iff {filter : Filter} {word : String} (hword : filter.word? = some word)
    (text : String) : Filter.ofSetting (some text) = filter ↔ SameWord text word := by
  rw [← map_toLower_eq_word_iff hword, Filter.ofSetting]
  generalize text.map Char.toLower = small
  rcases Filter.word?_cases hword with
    ⟨rfl, rfl⟩ | ⟨rfl, rfl⟩ | ⟨rfl, rfl⟩ | ⟨rfl, rfl⟩ | ⟨rfl, rfl⟩ <;> grind

theorem ofSetting_eq_trace_iff (text : String) :
    Filter.ofSetting (some text) = .upTo .trace ↔
      ∀ other word, Filter.word? other = some word → ¬ SameWord text word := by
  constructor
  · intro htrace other word hword hsame
    rw [(ofSetting_eq_iff hword text).mpr hsame] at htrace
    subst htrace
    cases hword
  · intro hother
    have hsame := hother (Filter.ofSetting (some text))
    cases hword : (Filter.ofSetting (some text)).word? with
    | none =>
      rcases hfilter : Filter.ofSetting (some text) with _ | level
      · rw [hfilter] at hword
        cases hword
      · rw [hfilter] at hword
        cases level with
        | trace => rfl
        | error | warn | info | debug => cases hword
    | some word => exact absurd ((ofSetting_eq_iff hword text).mp rfl) (hsame word hword)

/-- The filter that a setting asks for: that of its word, and the one without a word for all
    other settings. -/
structure Chosen (setting : Option String) (filter : Filter) : Prop where
  word (other : Filter) (word : String) : other.word? = some word →
    (filter = other ↔ ∃ text, setting = some text ∧ SameWord text word)
  trace : filter = .upTo .trace ↔
    ∀ text, setting = some text → ∀ other word, Filter.word? other = some word →
      ¬ SameWord text word

theorem chosen_ofSetting (setting : Option String) : Chosen setting (Filter.ofSetting setting) := by
  cases setting with
  | none =>
    refine ⟨fun other word hword => ?_, ?_⟩
    · constructor
      · rintro rfl
        cases hword
      · rintro ⟨text, hnone, -⟩
        cases hnone
    · simp [Filter.ofSetting]
  | some text =>
    refine ⟨fun other word hword => ?_, ?_⟩
    · rw [ofSetting_eq_iff hword]
      simp
    · rw [ofSetting_eq_trace_iff]
      simp

end HartRuntime.Log
