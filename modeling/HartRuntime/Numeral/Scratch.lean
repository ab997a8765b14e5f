import HartRuntime.Numeral

namespace HartRuntime.Numeral

/-- A buffer for one conversion: 32 binary digits, a sign and a terminator. -/
abbrev Scratch := Vector UInt8 34

/-- A buffer that no conversion has used. -/
def Scratch.fresh : Scratch := Vector.replicate 34 0

/-- A buffer whose first `length` bytes are in use, and the indices that were stored
    to so far, the latest first. -/
structure Filled where
  buffer : Scratch
  length : Nat
  stores : List Nat

/-- The bytes in use. -/
def Filled.text (f : Filled) : List UInt8 :=
  f.buffer.toList.take f.length

/-- No byte of the buffer is in use yet. -/
def Scratch.empty (buffer : Scratch) : Filled :=
  ⟨buffer, 0, []⟩

/-- Stores one byte behind those in use. A store outside the buffer would be lost. -/
def Filled.push (f : Filled) (byte : UInt8) : Filled where
  buffer := f.buffer.setIfInBounds f.length byte
  length := f.length + 1
  stores := f.length :: f.stores

/-- Stores the digits of a number, least significant first. -/
def Filled.pushDigits (base n : Nat) (f : Filled) : Filled :=
  if _h : 2 ≤ base ∧ n ≠ 0 then
    pushDigits base (n / base) (f.push (UInt8.ofNat (symbol (n % base))))
  else f
termination_by n
decreasing_by exact Nat.div_lt_self (by omega) (by omega)

/-- Reverses the bytes in use in place and leaves the others alone. -/
def Filled.reverse (f : Filled) : Filled :=
  { f with buffer := Vector.ofFn fun i =>
      if i.val < f.length then f.buffer.getD (f.length - 1 - i.val) 0 else f.buffer[i] }

/-- Converts a word in place. The digits come out of the division lowest first, so
    the sign goes behind them and the whole is reversed at the end. A base without
    numerals leaves the buffer alone. -/
def Scratch.convert (buffer : Scratch) (value : Int32) (base : UInt32) : Filled :=
  if ¬ Base base.toNat then buffer.empty
  else if value = 0 then buffer.empty.push 48
  else
    let digits := buffer.empty.pushDigits base.toNat (magnitude value base.toNat)
    if signed value base.toNat then (digits.push 45).reverse else digits.reverse

/-- Converts words one after the other in the same buffer. -/
def Scratch.convertAll (buffer : Scratch) : List (Int32 × UInt32) → List (List UInt8)
  | [] => []
  | (value, base) :: rest =>
    let filled := buffer.convert value base
    filled.text :: Scratch.convertAll filled.buffer rest

end HartRuntime.Numeral
