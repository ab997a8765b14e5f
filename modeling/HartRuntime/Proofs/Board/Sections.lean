import Mathlib.Logic.Relation
import HartRuntime.Proofs.Board.Description
import HartRuntime.Proofs.Toml.Edit

namespace HartRuntime.Board

open Toml (Value Entries Origin)

variable {reading : Reading} {sections : Entries}

/-- Every section is read as some board, whichever is built for. -/
def Reading.Fitting (reading : Reading) (sections : Entries) : Prop :=
  ∀ entry ∈ sections, ∃ board, reading.board? entry.2 = some board

/-- The board that a section of this name is read as. -/
def Reading.named? (reading : Reading) (sections : Entries) (name : String) : Option Board :=
  (sections.lookup name).bind reading.board?

theorem Reading.all?_cons {name : String} {value : Value} :
    reading.all? ((name, value) :: sections) =
      (reading.board? value).bind fun board => (reading.all? sections).map ((name, board) :: ·) := by
  simp only [all?, List.mapM_cons]
  cases reading.board? value with
  | none => rfl
  | some board => exact Option.map_eq_bind.symm

/-- Boards are looked up where their sections stand. -/
theorem Reading.lookup_of_all? {boards : List (String × Board)}
    (hboards : reading.all? sections = some boards) (name : String) :
    boards.lookup name = reading.named? sections name := by
  induction sections generalizing boards with
  | nil =>
    cases hboards
    rfl
  | cons entry rest ih =>
    obtain ⟨key, value⟩ := entry
    rw [all?_cons] at hboards
    obtain ⟨board, hboard, hrest⟩ := Option.bind_eq_some_iff.mp hboards
    obtain ⟨others, hothers, rfl⟩ := Option.map_eq_some_iff.mp hrest
    unfold named?
    by_cases heq : name = key
    · subst heq
      simp [hboard]
    · have hne : (name == key) = false := by simpa using heq
      simpa [List.lookup_cons, hne, named?] using ih hothers

/-- All sections are read exactly when each of them fits. -/
theorem Reading.exists_all?_iff :
    (∃ boards, reading.all? sections = some boards) ↔ reading.Fitting sections := by
  unfold Fitting
  induction sections with
  | nil => simp [all?]
  | cons entry rest ih =>
    obtain ⟨key, value⟩ := entry
    rw [List.forall_mem_cons, ← ih, all?_cons]
    constructor
    · rintro ⟨boards, hboards⟩
      obtain ⟨board, hboard, hrest⟩ := Option.bind_eq_some_iff.mp hboards
      obtain ⟨others, hothers, -⟩ := Option.map_eq_some_iff.mp hrest
      exact ⟨⟨board, hboard⟩, others, hothers⟩
    · rintro ⟨⟨board, hboard⟩, others, hothers⟩
      simp only at hboard
      exact ⟨(key, board) :: others, by rw [hboard, hothers]; rfl⟩

theorem Reading.Documented.boards?_of_fitting (h : reading.Documented) {text : String}
    (hdocument : reading.document? text = some sections) (hfitting : reading.Fitting sections) :
    reading.boards? text = some (reading.named? sections) := by
  obtain ⟨boards, hboards⟩ := Reading.exists_all?_iff.mpr hfitting
  rw [h.boards, hdocument, Option.bind_some, hboards, Option.map_some]
  exact congrArg some (funext (Reading.lookup_of_all? hboards))

theorem Reading.Documented.boards?_of_not_fitting (h : reading.Documented) {text : String}
    (hdocument : reading.document? text = some sections) (hfitting : ¬ reading.Fitting sections) :
    reading.boards? text = none := by
  have hnone : reading.all? sections = none := by
    rw [Option.eq_none_iff_forall_ne_some]
    exact fun boards hboards => hfitting (Reading.exists_all?_iff.mp ⟨boards, hboards⟩)
  rw [h.boards, hdocument, Option.bind_some, hnone, Option.map_none]

/-- If all sections fit, there is no board of a name only where there is no section of it. -/
theorem Reading.named?_eq_none_iff (hsections : sections.WellFormed)
    (hfitting : reading.Fitting sections) {name : String} :
    reading.named? sections name = none ↔ ∀ record, (name, record) ∉ sections := by
  rw [Option.eq_none_iff_forall_ne_some]
  constructor
  · intro hnone record hrecord
    obtain ⟨board, hboard⟩ := hfitting _ hrecord
    exact hnone board ((Entries.lookup_bind_eq_some_iff hsections).mpr ⟨record, hrecord, hboard⟩)
  · intro habsent board hboard
    obtain ⟨record, hrecord, -⟩ := (Entries.lookup_bind_eq_some_iff hsections).mp hboard
    exact habsent record hrecord

/-- The keys that are read of a region. -/
def regionKeys : List String :=
  ["origin", "length"]

/-- The keys that are read of a section. -/
def sectionKeys : List String :=
  ["mtime", "mtimecmp", "uart", "uart-width", "tick-period", "flash", "ram"]

/-- A change to a region: another order of its keys, or one more key that is not read. -/
def RegionEdit : Entries → Entries → Prop :=
  Entries.Edit (fun key _ => key ∉ regionKeys) fun _ _ _ => False

/-- A change to a section: another order of its keys, one more key that is not read, or a
    change to one of its regions. -/
def SectionEdit : Entries → Entries → Prop :=
  Entries.Edit (fun key _ => key ∉ sectionKeys)
    fun key old new => key ∈ ["flash", "ram"] ∧ Entries.InTable RegionEdit old new

/-- A change to a document in which a board of this name is looked for: another order of the
    sections, one more section of another name, which fits, or a change to any section. -/
def DocumentEdit (reading : Reading) (name : String) : Entries → Entries → Prop :=
  Entries.Edit (fun key value => key ≠ name ∧ ∃ board, reading.board? value = some board)
    fun _ old new => Entries.InTable SectionEdit old new

theorem RegionEdit.wellFormed_iff {before after : Entries} (hedit : RegionEdit before after) :
    before.WellFormed ↔ after.WellFormed :=
  Entries.Edit.wellFormed_iff (fun _ _ _ hfalse => hfalse.elim) hedit

theorem SectionEdit.wellFormed_iff {before after : Entries} (hedit : SectionEdit before after) :
    before.WellFormed ↔ after.WellFormed :=
  Entries.Edit.wellFormed_iff
    (fun _ _ _ hin => hin.2.wellFormed_iff fun _ _ => RegionEdit.wellFormed_iff) hedit

theorem DocumentEdit.wellFormed_iff {name : String} {before after : Entries}
    (hedit : DocumentEdit reading name before after) : before.WellFormed ↔ after.WellFormed :=
  Entries.Edit.wellFormed_iff
    (fun _ _ _ hin => hin.wellFormed_iff fun _ _ => SectionEdit.wellFormed_iff) hedit

theorem RegionEdit.region?_eq (h : reading.Documented) {before after : Entries}
    (hedit : RegionEdit before after) (hbefore : before.WellFormed) (first second : Origin) :
    reading.region? (.table first before) = reading.region? (.table second after) := by
  have hafter := hedit.wellFormed_iff.mp hbefore
  have hlookup : ∀ key ∈ regionKeys, before.lookup key = after.lookup key := by
    intro key hkey
    rcases hedit.lookup hbefore hafter fun _ hnew => hnew hkey with hsame | ⟨_, _, -, -, hfalse⟩
    · exact hsame
    · exact hfalse.elim
  rw [h.region first hbefore, h.region second hafter, hlookup "origin" (by simp [regionKeys]),
    hlookup "length" (by simp [regionKeys])]

theorem SectionEdit.lookup_eq {before after : Entries} (hedit : SectionEdit before after)
    (hbefore : before.WellFormed) {key : String} (hkey : key ∈ sectionKeys)
    (hplain : key ∉ ["flash", "ram"]) : before.lookup key = after.lookup key := by
  rcases hedit.lookup hbefore (hedit.wellFormed_iff.mp hbefore) fun _ hnew => hnew hkey with
    hsame | ⟨_, _, -, -, hregion, -⟩
  · exact hsame
  · exact (hplain hregion).elim

theorem SectionEdit.lookup_region?_eq (h : reading.Documented) {before after : Entries}
    (hedit : SectionEdit before after) (hbefore : before.WellFormed) {key : String}
    (hkey : key ∈ sectionKeys) :
    (before.lookup key).bind reading.region? = (after.lookup key).bind reading.region? := by
  rcases hedit.lookup hbefore (hedit.wellFormed_iff.mp hbefore) fun _ hnew => hnew hkey with
    hsame | ⟨old, new, hold, hnew, -, first, second, inner, changed, rfl, rfl, hchange⟩
  · rw [hsame]
  · have hinner := Entries.wellFormed_of_table
      (hbefore.values _ ((Entries.lookup_eq_some_iff hbefore).mp hold))
    rw [hold, hnew]
    exact hchange.region?_eq h hinner first second

/-- A change to what is not read of a section leaves the board that it is read as. -/
theorem SectionEdit.board?_eq (h : reading.Documented) {before after : Entries}
    (hedit : SectionEdit before after) (hbefore : before.WellFormed) (first second : Origin) :
    reading.board? (.table first before) = reading.board? (.table second after) := by
  have hlookup : ∀ key ∈ ["mtime", "mtimecmp", "uart", "uart-width", "tick-period"],
      before.lookup key = after.lookup key := by
    simp only [List.forall_mem_cons]
    refine ⟨?_, ?_, ?_, ?_, ?_, by simp⟩ <;>
      exact hedit.lookup_eq hbefore (by simp [sectionKeys]) (by simp)
  have hflash := hedit.lookup_region?_eq h hbefore (show "flash" ∈ sectionKeys by simp [sectionKeys])
  have hram := hedit.lookup_region?_eq h hbefore (show "ram" ∈ sectionKeys by simp [sectionKeys])
  rw [h.board first hbefore, h.board second (hedit.wellFormed_iff.mp hbefore),
    hlookup "mtime" (by simp), hlookup "mtimecmp" (by simp), hlookup "uart" (by simp),
    hlookup "uart-width" (by simp), hlookup "tick-period" (by simp), hflash, hram]

theorem board?_eq_of_inTable (h : reading.Documented) {old new : Value}
    (hin : Entries.InTable SectionEdit old new) (hold : old.WellFormed) :
    reading.board? old = reading.board? new := by
  obtain ⟨first, second, before, after, rfl, rfl, hedit⟩ := hin
  exact hedit.board?_eq h (Entries.wellFormed_of_table hold) first second

theorem DocumentEdit.fitting_iff (h : reading.Documented) {name : String}
    {before after : Entries} (hedit : DocumentEdit reading name before after)
    (hbefore : before.WellFormed) : reading.Fitting before ↔ reading.Fitting after := by
  unfold Reading.Fitting
  cases hedit with
  | reordered hperm => exact forall_congr' fun entry => by rw [hperm.mem_iff]
  | added hkey hvalue hadd =>
    rw [List.forall_mem_cons]
    exact (and_iff_right hadd.2).symm
  | @replaced front back key old new hreplace =>
    have hold := (Entries.wellFormed_middle.mp hbefore).2.1
    simp only [List.forall_mem_append, List.forall_mem_cons, board?_eq_of_inTable h hreplace hold]

theorem DocumentEdit.named?_eq (h : reading.Documented) {name : String} {before after : Entries}
    (hedit : DocumentEdit reading name before after) (hbefore : before.WellFormed) :
    reading.named? before name = reading.named? after name := by
  have hafter := hedit.wellFormed_iff.mp hbefore
  unfold Reading.named?
  rcases hedit.lookup hbefore hafter fun _ hnew => hnew.1 rfl with
    hsame | ⟨old, new, hold, hnew, hreplace⟩
  · rw [hsame]
  · rw [hold, hnew]
    exact board?_eq_of_inTable h hreplace
      (hbefore.values _ ((Entries.lookup_eq_some_iff hbefore).mp hold))

/-- What a run of changes, there and back, leaves alone. -/
structure Alike (reading : Reading) (name : String) (before after : Entries) : Prop where
  wellFormed_iff : before.WellFormed ↔ after.WellFormed
  fitting_iff : before.WellFormed → (reading.Fitting before ↔ reading.Fitting after)
  named?_eq : before.WellFormed → reading.named? before name = reading.named? after name

theorem alike_of_eqvGen (h : reading.Documented) {name : String} {before after : Entries}
    (hedits : Relation.EqvGen (DocumentEdit reading name) before after) :
    Alike reading name before after := by
  induction hedits with
  | rel before after hedit =>
    exact ⟨hedit.wellFormed_iff, hedit.fitting_iff h, hedit.named?_eq h⟩
  | refl sections => exact ⟨Iff.rfl, fun _ => Iff.rfl, fun _ => rfl⟩
  | symm before after hedits ih =>
    exact {
      wellFormed_iff := ih.wellFormed_iff.symm
      fitting_iff := fun h => (ih.fitting_iff (ih.wellFormed_iff.mpr h)).symm
      named?_eq := fun h => (ih.named?_eq (ih.wellFormed_iff.mpr h)).symm }
  | trans first second third hfirst hsecond ihfirst ihsecond =>
    exact {
      wellFormed_iff := ihfirst.wellFormed_iff.trans ihsecond.wellFormed_iff
      fitting_iff := fun h =>
        (ihfirst.fitting_iff h).trans (ihsecond.fitting_iff (ihfirst.wellFormed_iff.mp h))
      named?_eq := fun h =>
        (ihfirst.named?_eq h).trans (ihsecond.named?_eq (ihfirst.wellFormed_iff.mp h)) }

end HartRuntime.Board
