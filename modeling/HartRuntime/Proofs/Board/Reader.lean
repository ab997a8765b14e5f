import HartRuntime.Board.Reader
import HartRuntime.Proofs.Board.Description

namespace HartRuntime.Board

open Toml (Value Entries)

theorem number?_eq_some_iff {value : Value} (hvalue : value.WellFormed) {number : UInt64} :
    number? value = some number ↔ value = .integer number.toNat := by
  cases hvalue with
  | @integer value hlow hhigh =>
    have hword := number.toNat_lt
    rw [number?, Value.integer.injEq]
    constructor
    · intro h
      split_ifs at h with hpos
      have hnumber : UInt64.ofNat value.toNat = number := by simpa using h
      rw [← hnumber, UInt64.toNat_ofNat_of_lt' (by simp only [UInt64.size]; omega)]
      omega
    · rintro rfl
      simp
  | array helements => simp [number?]
  | table hkeys hvalues => simp [number?]
  | float => simp [number?]
  | boolean => simp [number?]
  | text => simp [number?]
  | time => simp [number?]

/-- The reading of the reader that builds are run with. -/
def reading : Reading where
  boards? := reader
  document? := Toml.parse?
  board? := ofValue?
  region? := region?
  width? := width?
  number? := number?

theorem documented_reading : reading.Documented where
  wellFormed := Toml.wellFormed_of_parse?
  boards text := by
    show reader text = (Toml.parse? text).bind _
    unfold reader
    cases Toml.parse? text <;> rfl
  board _ _ _ := rfl
  region _ _ _ := rfl
  number hvalue := number?_eq_some_iff hvalue

end HartRuntime.Board
