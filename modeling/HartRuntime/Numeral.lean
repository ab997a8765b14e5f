namespace HartRuntime.Numeral

/-- The code of a digit's symbol: `0` to `9`, then lower-case letters from ten on. -/
def symbol (digit : Nat) : Nat :=
  if digit < 10 then 48 + digit else 87 + digit

/-- The digit that a symbol's code stands for. Capital letters are no symbols. -/
def digit? (code : Nat) : Option Nat :=
  if 48 ≤ code ∧ code ≤ 57 then some (code - 48)
  else if 97 ≤ code ∧ code ≤ 122 then some (code - 87)
  else none

/-- The digits of a number, least significant first. Zero has none, and a base
    below two gives none. -/
def lowDigits (base n : Nat) : List Nat :=
  if _h : 2 ≤ base ∧ n ≠ 0 then n % base :: lowDigits base (n / base) else []
termination_by n
decreasing_by exact Nat.div_lt_self (by omega) (by omega)

/-- The codes of a number's numeral, most significant digit first and without
    leading zeros; zero is the single digit `0`. -/
def codes (base n : Nat) : List Nat :=
  if n = 0 then [symbol 0] else (lowDigits base n).reverse.map symbol

/-- The number that a run of symbols stands for; none when one of them is no digit
    of the base. Leading zeros are accepted. -/
def ofCodes? (base : Nat) (codes : List Nat) : Option Nat :=
  codes.foldlM (fun value code =>
    (digit? code).bind fun digit => if digit < base then some (value * base + digit) else none) 0

/-- A numeral as text. -/
def text (base n : Nat) : String :=
  String.ofList ((codes base n).map Char.ofNat)

/-- A numeral as bytes. -/
def bytes (base n : Nat) : List UInt8 :=
  (codes base n).map UInt8.ofNat

/-- The bases whose digits all have a symbol. -/
def Base (base : Nat) : Prop :=
  2 ≤ base ∧ base ≤ 36

instance (base : Nat) : Decidable (Base base) :=
  inferInstanceAs (Decidable (2 ≤ base ∧ base ≤ 36))

/-- Only decimal numerals carry a sign. -/
def signed (value : Int32) (base : Nat) : Bool :=
  base == 10 && decide (value < 0)

/-- What the digits of a word's numeral count: its distance from zero behind a sign,
    and its 32-bit pattern otherwise. -/
def magnitude (value : Int32) (base : Nat) : Nat :=
  if signed value base then value.toInt.natAbs else value.toUInt32.toNat

/-- The numeral of a word; empty when the base has none. -/
def ofInt32 (value : Int32) (base : Nat) : List UInt8 :=
  if Base base then
    (if signed value base then [45] else []) ++ bytes base (magnitude value base)
  else []

end HartRuntime.Numeral
