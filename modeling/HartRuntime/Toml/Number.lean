import HartRuntime.Numeral
import HartRuntime.Toml.Value

namespace HartRuntime.Toml

/-- Digits of a base, with letters in either case. -/
def digit? (base : Nat) (c : Char) : Option Nat :=
  (Numeral.digit? c.toLower.toNat).filter (· < base)

/-- The digits in front; a single underscore may stand between two of them. -/
def moreDigits (base : Nat) : List Char → List Nat × List Char
  | '_' :: c :: rest =>
    match digit? base c with
    | some d => let (ds, rest) := moreDigits base rest; (d :: ds, rest)
    | none => ([], '_' :: c :: rest)
  | c :: rest =>
    match digit? base c with
    | some d => let (ds, rest) := moreDigits base rest; (d :: ds, rest)
    | none => ([], c :: rest)
  | [] => ([], [])

/-- At least one digit. -/
def digits? (base : Nat) (cs : List Char) : Option (List Nat × List Char) :=
  if (cs.head?.bind (digit? base)).isSome then some (moreDigits base cs) else none

/-- The number that digits stand for, the most significant first. -/
def ofDigits (base : Nat) (ds : List Nat) : Nat :=
  ds.foldl (fun value d => value * base + d) 0

/-- A sign; true for a minus. -/
def sign : List Char → Bool × List Char
  | '+' :: rest => (false, rest)
  | '-' :: rest => (true, rest)
  | cs => (false, cs)

/-- The digits of a decimal whole part, which has no leading zeros. -/
def wholeDigits? : List Char → Option (List Nat × List Char)
  | '0' :: rest => some ([0], rest)
  | cs => digits? 10 cs

/-- An integer of 64 bits; wider ones are refused. -/
def int64? (value : Int) : Option Value :=
  if -0x8000000000000000 ≤ value ∧ value < 0x8000000000000000 then some (.integer value) else none

/-- Whether m · 10^e rounds to infinity as a double: it does from halfway between the
    greatest double and the power of two above it. -/
def overflows (m : Nat) (e : Int) : Bool :=
  let size := (Numeral.lowDigits 10 m).length
  if m = 0 ∨ size + e ≤ 308 then false
  else if 310 ≤ size + e then true
  else
    let half := Nat.pow 2 1024 - Nat.pow 2 970
    if 0 ≤ e then half ≤ m * Nat.pow 10 e.toNat else half * Nat.pow 10 (-e).toNat ≤ m

/-- The digits behind the point, if there is one. -/
def fraction? : List Char → Option (List Nat × List Char)
  | '.' :: rest => digits? 10 rest
  | cs => some ([], cs)

/-- The exponent, if there is one. -/
def exponent? (cs : List Char) : Option (Int × List Char) :=
  match cs with
  | 'e' :: rest | 'E' :: rest =>
    let (negative, rest) := sign rest
    (digits? 10 rest).map fun (ds, rest) =>
      (if negative then -(ofDigits 10 ds : Int) else ofDigits 10 ds, rest)
  | cs => some (0, cs)

/-- A decimal number, which is a float if it has a fraction or an exponent. A float that
    rounds to positive infinity is refused. -/
def decimal? (cs : List Char) : Option (Value × List Char) := do
  let (negative, cs) := sign cs
  match cs with
  | 'i' :: 'n' :: 'f' :: rest | 'n' :: 'a' :: 'n' :: rest => some (.float, rest)
  | cs =>
    let (whole, cs) ← wholeDigits? cs
    if cs.head? = some '.' ∨ cs.head? = some 'e' ∨ cs.head? = some 'E' then
      let (fraction, cs) ← fraction? cs
      let (e, cs) ← exponent? cs
      if !negative && overflows (ofDigits 10 (whole ++ fraction)) (e - fraction.length) then none
      else some (.float, cs)
    else
      let value : Int := ofDigits 10 whole
      (int64? (if negative then -value else value)).map (·, cs)

/-- An integer in a base that a letter announces. -/
def based? (base : Nat) (cs : List Char) : Option (Value × List Char) := do
  let (ds, cs) ← digits? base cs
  (int64? (ofDigits base ds)).map (·, cs)

/-- A number of any kind. -/
def number? : List Char → Option (Value × List Char)
  | '0' :: 'x' :: rest => based? 16 rest
  | '0' :: 'o' :: rest => based? 8 rest
  | '0' :: 'b' :: rest => based? 2 rest
  | cs => decimal? cs

end HartRuntime.Toml
