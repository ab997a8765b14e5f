import HartRuntime.Board.Files
import HartRuntime.Proofs.Toml.WellFormed

namespace HartRuntime.Board

open Toml (Value Entries Origin)

/-- How builds read configurations: as documents, and then their sections as boards, down to the
    values of each. -/
structure Reading where
  boards? : Reader
  document? : String → Option Entries
  board? : Value → Option Board
  region? : Value → Option Region
  width? : Value → Option Uart.Width
  number? : Value → Option UInt64

namespace Reading

variable {reading : Reading}

/-- The boards that sections are read as, in order; none if one of them is no board. -/
def all? (reading : Reading) (sections : Entries) : Option (List (String × Board)) :=
  sections.mapM fun (name, value) => (reading.board? value).map (name, ·)

/-- What is documented of the two libraries that read a configuration. Nothing is said of sections
    and regions that are no tables, nor of how a width is written. -/
structure Documented (reading : Reading) : Prop where
  /-- In a document no key of a table is there twice, and integers have 64 bits. -/
  wellFormed {text : String} {sections : Entries} :
    reading.document? text = some sections → sections.WellFormed
  /-- A text is read as a map if it is a document and each of its values can be read. -/
  boards (text : String) : reading.boards? text =
    (reading.document? text).bind fun sections =>
      (reading.all? sections).map fun boards name => boards.lookup name
  /-- A record is read from a table: each field from what is there under its key, which may not
      be missing. Keys of no field are ignored. -/
  board (origin : Origin) {entries : Entries} : entries.WellFormed →
    reading.board? (.table origin entries) = do
      let mtime ← (entries.lookup "mtime").bind reading.number?
      let mtimecmp ← (entries.lookup "mtimecmp").bind reading.number?
      let uart ← (entries.lookup "uart").bind reading.number?
      let width ← (entries.lookup "uart-width").bind reading.width?
      let period ← (entries.lookup "tick-period").bind reading.number?
      let flash ← (entries.lookup "flash").bind reading.region?
      let ram ← (entries.lookup "ram").bind reading.region?
      some { mtime, mtimecmp, uart, width, period, flash, ram }
  /-- So is the record of a region. -/
  region (origin : Origin) {entries : Entries} : entries.WellFormed →
    reading.region? (.table origin entries) = do
      let origin ← (entries.lookup "origin").bind reading.number?
      let length ← (entries.lookup "length").bind reading.number?
      some { origin, length }
  /-- Numbers without a sign are read from integers that are not negative, and from nothing
      else. -/
  number {value : Value} {number : UInt64} : value.WellFormed →
    (reading.number? value = some number ↔ value = .integer number.toNat)

end Reading

/-- A table of a region, in which both numbers stand. -/
structure DescribesRegion (entries : Entries) (region : Region) : Prop where
  origin : ("origin", .integer region.origin.toNat) ∈ entries
  length : ("length", .integer region.length.toNat) ∈ entries

/-- A table of a board, in which every number, the width and both regions stand. What else stands
    in it makes no difference. -/
structure Describes (reading : Reading) (entries : Entries) (board : Board) : Prop where
  mtime : ("mtime", .integer board.mtime.toNat) ∈ entries
  mtimecmp : ("mtimecmp", .integer board.mtimecmp.toNat) ∈ entries
  uart : ("uart", .integer board.uart.toNat) ∈ entries
  width : ∃ value, ("uart-width", value) ∈ entries ∧ reading.width? value = some board.width
  period : ("tick-period", .integer board.period.toNat) ∈ entries
  flash : ∃ value, ("flash", value) ∈ entries ∧ reading.region? value = some board.flash
  ram : ∃ value, ("ram", value) ∈ entries ∧ reading.region? value = some board.ram

namespace Reading.Documented

variable {reading : Reading} {entries : Entries}

theorem lookup_number?_eq_some_iff (h : reading.Documented) (hentries : entries.WellFormed)
    {key : String} {number : UInt64} :
    (entries.lookup key).bind reading.number? = some number ↔
      (key, .integer number.toNat) ∈ entries := by
  rw [Option.bind_eq_some_iff, ← Entries.lookup_eq_some_iff hentries]
  constructor
  · rintro ⟨value, hvalue, hnumber⟩
    have hwell : value.WellFormed :=
      hentries.values _ ((Entries.lookup_eq_some_iff hentries).mp hvalue)
    rwa [(h.number hwell).mp hnumber] at hvalue
  · intro hvalue
    have hwell := hentries.values _ ((Entries.lookup_eq_some_iff hentries).mp hvalue)
    exact ⟨_, hvalue, (h.number hwell).mpr rfl⟩

/-- A table is read as a region exactly when it describes that region. -/
theorem region?_eq_some_iff (h : reading.Documented) (hentries : entries.WellFormed)
    (origin : Origin) {region : Region} :
    reading.region? (.table origin entries) = some region ↔ DescribesRegion entries region := by
  rw [h.region origin hentries]
  constructor
  · intro hread
    obtain ⟨origin, horigin, hread⟩ := Option.bind_eq_some_iff.mp hread
    obtain ⟨length, hlength, hread⟩ := Option.bind_eq_some_iff.mp hread
    cases hread
    exact ⟨(h.lookup_number?_eq_some_iff hentries).mp horigin,
      (h.lookup_number?_eq_some_iff hentries).mp hlength⟩
  · rintro ⟨horigin, hlength⟩
    rw [(h.lookup_number?_eq_some_iff hentries).mpr horigin,
      (h.lookup_number?_eq_some_iff hentries).mpr hlength]
    rfl

/-- A table is read as a board exactly when it describes that board. -/
theorem board?_eq_some_iff (h : reading.Documented) (hentries : entries.WellFormed)
    (origin : Origin) {board : Board} :
    reading.board? (.table origin entries) = some board ↔ Describes reading entries board := by
  rw [h.board origin hentries]
  constructor
  · intro hread
    obtain ⟨mtime, hmtime, hread⟩ := Option.bind_eq_some_iff.mp hread
    obtain ⟨mtimecmp, hmtimecmp, hread⟩ := Option.bind_eq_some_iff.mp hread
    obtain ⟨uart, huart, hread⟩ := Option.bind_eq_some_iff.mp hread
    obtain ⟨width, hwidth, hread⟩ := Option.bind_eq_some_iff.mp hread
    obtain ⟨period, hperiod, hread⟩ := Option.bind_eq_some_iff.mp hread
    obtain ⟨flash, hflash, hread⟩ := Option.bind_eq_some_iff.mp hread
    obtain ⟨ram, hram, hread⟩ := Option.bind_eq_some_iff.mp hread
    cases hread
    exact {
      mtime := (h.lookup_number?_eq_some_iff hentries).mp hmtime
      mtimecmp := (h.lookup_number?_eq_some_iff hentries).mp hmtimecmp
      uart := (h.lookup_number?_eq_some_iff hentries).mp huart
      width := (Entries.lookup_bind_eq_some_iff hentries).mp hwidth
      period := (h.lookup_number?_eq_some_iff hentries).mp hperiod
      flash := (Entries.lookup_bind_eq_some_iff hentries).mp hflash
      ram := (Entries.lookup_bind_eq_some_iff hentries).mp hram }
  · intro hdescribes
    rw [(h.lookup_number?_eq_some_iff hentries).mpr hdescribes.mtime,
      (h.lookup_number?_eq_some_iff hentries).mpr hdescribes.mtimecmp,
      (h.lookup_number?_eq_some_iff hentries).mpr hdescribes.uart,
      (Entries.lookup_bind_eq_some_iff hentries).mpr hdescribes.width,
      (h.lookup_number?_eq_some_iff hentries).mpr hdescribes.period,
      (Entries.lookup_bind_eq_some_iff hentries).mpr hdescribes.flash,
      (Entries.lookup_bind_eq_some_iff hentries).mpr hdescribes.ram]
    rfl

end Reading.Documented

end HartRuntime.Board
