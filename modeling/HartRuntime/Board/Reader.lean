import HartRuntime.Board.Files
import HartRuntime.Toml.Document

namespace HartRuntime.Board

open Toml (Value Entries)

/-- A value of a record: by name in a table, by place in an array. Others are ignored. -/
def member? (record : Value) (name : String) (place : Nat) : Option Value :=
  match record with
  | .table _ entries => entries.lookup name
  | .array _ elements => elements[place]?
  | _ => none

/-- Only integers that are not negative are numbers of a board. -/
def number? : Value → Option UInt64
  | .integer value => if 0 ≤ value then some (UInt64.ofNat value.toNat) else none
  | _ => none

def widthNamed? (name : String) : Option Uart.Width :=
  if name = "byte" then some .byte
  else if name = "word" then some .word
  else none

/-- A width is given by its name, or by a table with nothing but an empty table under
    that name. -/
def width? : Value → Option Uart.Width
  | .text name => widthNamed? name
  | .table _ [(name, .table _ [])] => widthNamed? name
  | _ => none

def region? (value : Value) : Option Region := do
  let origin ← (member? value "origin" 0).bind number?
  let length ← (member? value "length" 1).bind number?
  some { origin, length }

/-- The board that a section describes; none unless every value is there and fits. -/
def ofValue? (value : Value) : Option Board := do
  let mtime ← (member? value "mtime" 0).bind number?
  let mtimecmp ← (member? value "mtimecmp" 1).bind number?
  let uart ← (member? value "uart" 2).bind number?
  let width ← (member? value "uart-width" 3).bind width?
  let period ← (member? value "tick-period" 4).bind number?
  let flash ← (member? value "flash" 5).bind region?
  let ram ← (member? value "ram" 6).bind region?
  some { mtime, mtimecmp, uart, width, period, flash, ram }

/-- The boards of all sections, by name; none if there is a section that is no board. -/
def ofEntries? (entries : Entries) : Option (List (String × Board)) :=
  entries.mapM fun (name, value) => (ofValue? value).map (name, ·)

/-- A reader to run builds with, by which all that is not in the section of a board or a region,
    or is there under another key, is passed over. -/
def reader : Reader := fun text =>
  ((Toml.parse? text).bind ofEntries?).map fun boards name => boards.lookup name

end HartRuntime.Board
