namespace HartRuntime.Format

def percent : UInt8 := 37

def dot : UInt8 := 46

def star : UInt8 := 42

def isDigit (byte : UInt8) : Bool :=
  48 ≤ byte && byte ≤ 57

/-- What a conversion says about precision: nothing, `.*`, or a dot and digits, of
    which there may be none. -/
inductive Precision where
  | absent
  | fromArg
  | digits (ds : List UInt8)
  deriving DecidableEq

/-- A precision as it is spelled. -/
def Precision.bytes : Precision → List UInt8
  | .absent => []
  | .fromArg => [dot, star]
  | .digits ds => dot :: ds

/-- Parts the bytes behind a `%` and a dot into the precision and the rest. Digits are
    taken as long as there are any. -/
def Precision.splitDotted (bytes : List UInt8) : Precision × List UInt8 :=
  if bytes.head? = some star then (.fromArg, bytes.tail)
  else (.digits (bytes.takeWhile isDigit), bytes.dropWhile isDigit)

/-- Parts the bytes behind a `%` into the precision and the rest. -/
def Precision.split (bytes : List UInt8) : Precision × List UInt8 :=
  if bytes.head? = some dot then splitDotted bytes.tail else (.absent, bytes)

theorem Precision.bytes_split (bytes : List UInt8) :
    (split bytes).1.bytes ++ (split bytes).2 = bytes := by
  cases bytes with
  | nil => simp [split, Precision.bytes]
  | cons byte rest =>
    by_cases hdot : byte = dot
    · cases rest with
      | nil => simp [split, splitDotted, Precision.bytes, hdot]
      | cons next tail =>
        by_cases hstar : next = star
        · simp [split, splitDotted, Precision.bytes, hdot, hstar]
        · simp [split, splitDotted, Precision.bytes, hdot, hstar, List.takeWhile_append_dropWhile]
    · simp [split, Precision.bytes, hdot]

theorem Precision.length_split_le (bytes : List UInt8) : (split bytes).2.length ≤ bytes.length := by
  have hsplit := congrArg List.length (bytes_split bytes)
  simp only [List.length_append] at hsplit
  omega

/-- A piece of a format: one byte that stands for itself, a conversion with the byte
    that says how to print, or a conversion that the end of the format cut off. -/
inductive Item where
  | literal (byte : UInt8)
  | conversion (precision : Precision) (specifier : UInt8)
  | unfinished (precision : Precision)
  deriving DecidableEq

/-- An item as it is spelled. -/
def Item.bytes : Item → List UInt8
  | .literal byte => [byte]
  | .conversion precision specifier => percent :: precision.bytes ++ [specifier]
  | .unfinished precision => percent :: precision.bytes

/-- The items of a format without NUL. -/
def items : List UInt8 → List Item
  | [] => []
  | byte :: rest =>
    if byte = percent then
      match _h : Precision.split rest with
      | (precision, []) => [.unfinished precision]
      | (precision, specifier :: tail) => .conversion precision specifier :: items tail
    else .literal byte :: items rest
termination_by format => format.length
decreasing_by
  · have hle := Precision.length_split_le rest
    rw [_h] at hle
    simp only [List.length_cons] at hle ⊢
    omega
  · simp

/-- How many arguments a precision takes. -/
def Precision.need : Precision → Nat
  | .fromArg => 1
  | _ => 0

/-- How many arguments an item takes: one for `.*`, and one for the specifier unless
    it is `%`. -/
def Item.need : Item → Nat
  | .literal _ => 0
  | .conversion precision specifier => precision.need + if specifier = percent then 0 else 1
  | .unfinished precision => precision.need

end HartRuntime.Format
