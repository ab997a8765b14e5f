import HartRuntime.Format.Arg
import HartRuntime.Format.Item
import HartRuntime.Numeral.Scratch

namespace HartRuntime.Format

open Numeral (Scratch)

/-- The greatest precision that digits can spell. -/
def Precision.ceiling : Nat := 0xffffffffffffffff

/-- Appends a digit to a precision read so far, clamping the product and the sum. -/
def Precision.append (value : Nat) (digit : UInt8) : Nat :=
  min (min (value * 10) ceiling + (digit.toNat - 48)) ceiling

/-- The number that the digits of a precision spell, clamped to the ceiling. -/
def Precision.ofDigits (ds : List UInt8) : Nat :=
  ds.foldl append 0

/-- What is left while a format is printed: the arguments not yet taken, and the
    buffer that all conversions share. -/
structure Pending where
  args : List Arg
  scratch : Scratch

/-- The value of a precision. `.*` takes the next argument and is zero without one. -/
def Precision.value (precision : Precision) (pending : Pending) : Option Nat × Pending :=
  match precision with
  | .absent => (none, pending)
  | .digits ds => (some (ofDigits ds), pending)
  | .fromArg =>
    (some (pending.args.head?.elim 0 (·.pattern.toNat)), { pending with args := pending.args.tail })

/-- Zeros to the left up to a width; longer text is left as it is. -/
def padded (width : Nat) (digits : List UInt8) : List UInt8 :=
  List.replicate (width - digits.length) 48 ++ digits

/-- The text of one argument. A precision pads hexadecimal and cuts text; every other
    specifier ignores it. A specifier that is none of `d`, `x`, `o` and `b` prints
    text, and all but `s` stop at the first NUL. -/
def field (precision : Option Nat) (specifier : UInt8) (arg : Arg) (scratch : Scratch) :
    List UInt8 × Scratch :=
  if specifier = 100 then
    let filled := scratch.convert arg.signed 10
    (filled.text, filled.buffer)
  else if specifier = 120 then
    let filled := scratch.convert arg.pattern.toInt32 16
    (padded (precision.getD 0) filled.text, filled.buffer)
  else if specifier = 111 then
    let filled := scratch.convert arg.pattern.toInt32 8
    (filled.text, filled.buffer)
  else if specifier = 98 then
    let filled := scratch.convert arg.pattern.toInt32 2
    (filled.text, filled.buffer)
  else if specifier = 115 then
    (precision.elim (beforeNul arg.bytes) arg.bytes.take, scratch)
  else (beforeNul arg.bytes, scratch)

/-- The bytes of one item and what it leaves for the next. An item whose argument is
    missing prints nothing. -/
def Item.output (pending : Pending) : Item → List UInt8 × Pending
  | .literal byte => ([byte], pending)
  | .unfinished precision => ([], (precision.value pending).2)
  | .conversion precision specifier =>
    let (value, pending) := precision.value pending
    if specifier = percent then ([percent], pending)
    else
      match pending.args with
      | [] => ([], pending)
      | arg :: args =>
        let (text, scratch) := field value specifier arg pending.scratch
        (text, ⟨args, scratch⟩)

/-- The bytes of a list of items, arguments being handed out from left to right. -/
def outputs (pending : Pending) : List Item → List UInt8
  | [] => []
  | item :: rest =>
    let (text, pending) := item.output pending
    text ++ outputs pending rest

/-- The bytes that a format prints. The format ends at its first NUL. -/
def output (format : List UInt8) (args : List Arg) : List UInt8 :=
  outputs ⟨args, Scratch.fresh⟩ (items (beforeNul format))

/-- The length of an output as a machine word reports it. -/
def count (output : List UInt8) : UInt64 :=
  UInt64.ofNat output.length

/-- The number of arguments that a format takes if it can. -/
def need (format : List UInt8) : Nat :=
  (items (beforeNul format)).foldr (fun item rest => item.need + rest) 0

end HartRuntime.Format
