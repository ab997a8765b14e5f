import Mathlib.Data.List.Nodup
import HartRuntime.Toml.Document

namespace HartRuntime.Toml

/-- What a document can hold: integers of 64 bits, and tables in which no key appears twice. -/
inductive Value.WellFormed : Value → Prop where
  | integer {value : Int} (hlow : -0x8000000000000000 ≤ value) (hhigh : value < 0x8000000000000000) :
      WellFormed (.integer value)
  | float : WellFormed .float
  | boolean {value : Bool} : WellFormed (.boolean value)
  | text {value : String} : WellFormed (.text value)
  | time : WellFormed .time
  | array {grows : Bool} {elements : List Value} (helements : ∀ value ∈ elements, WellFormed value) :
      WellFormed (.array grows elements)
  | table {origin : Origin} {entries : Entries} (hkeys : (entries.map Prod.fst).Nodup)
      (hvalues : ∀ entry ∈ entries, WellFormed entry.2) : WellFormed (.table origin entries)

namespace Entries

/-- Entries of a table that a document can hold. -/
structure WellFormed (entries : Entries) : Prop where
  nodup : (entries.map Prod.fst).Nodup
  values : ∀ entry ∈ entries, entry.2.WellFormed

theorem wellFormed_nil : WellFormed [] := ⟨List.nodup_nil, by simp⟩

theorem WellFormed.table {entries : Entries} (hentries : entries.WellFormed) (origin : Origin) :
    (Value.table origin entries).WellFormed :=
  .table hentries.nodup hentries.values

theorem wellFormed_of_table {origin : Origin} {entries : Entries}
    (htable : (Value.table origin entries).WellFormed) : entries.WellFormed := by
  cases htable with
  | table hkeys hvalues => exact ⟨hkeys, hvalues⟩

theorem wellFormed_cons {key : String} {value : Value} {entries : Entries} :
    WellFormed ((key, value) :: entries) ↔
      key ∉ entries.map Prod.fst ∧ value.WellFormed ∧ entries.WellFormed := by
  constructor
  · intro h
    have hnodup := List.nodup_cons.mp h.nodup
    exact ⟨hnodup.1, h.values (key, value) (by simp), hnodup.2,
      fun entry hentry => h.values entry (by simp [hentry])⟩
  · rintro ⟨hkey, hvalue, hentries⟩
    refine ⟨List.nodup_cons.mpr ⟨hkey, hentries.nodup⟩, fun entry hentry => ?_⟩
    rcases List.mem_cons.mp hentry with rfl | hentry
    · exact hvalue
    · exact hentries.values entry hentry

/-- In a table without double keys, a value is found under its key. -/
theorem lookup_eq_some_iff {entries : Entries} (hentries : entries.WellFormed) {key : String}
    {value : Value} : entries.lookup key = some value ↔ (key, value) ∈ entries := by
  induction entries with
  | nil => simp
  | cons entry rest ih =>
    obtain ⟨k, v⟩ := entry
    obtain ⟨hkey, -, hrest⟩ := wellFormed_cons.mp hentries
    by_cases heq : key = k
    · subst heq
      have hnew : (key, value) ∉ rest := fun hmem => hkey (List.mem_map_of_mem hmem)
      simp [hnew, eq_comm]
    · have hne : (key == k) = false := by simpa using heq
      simp [List.lookup_cons, hne, heq, ih hrest]

/-- What is read of the value under a key. -/
theorem lookup_bind_eq_some_iff {α : Type} {entries : Entries} (hentries : entries.WellFormed)
    {key : String} {read? : Value → Option α} {found : α} :
    (entries.lookup key).bind read? = some found ↔
      ∃ value, (key, value) ∈ entries ∧ read? value = some found := by
  rw [Option.bind_eq_some_iff]
  exact exists_congr fun value => and_congr_left fun _ => lookup_eq_some_iff hentries

/-- Changing a value adds its key, if it is new, and no other. -/
theorem mem_keys_alter {entries changed : Entries} {key : String} {f : Option Value → Option Value}
    (halter : entries.alter key f = some changed) (other : String) :
    other ∈ changed.map Prod.fst ↔ other = key ∨ other ∈ entries.map Prod.fst := by
  fun_induction alter entries key f generalizing changed with
  | case1 =>
    obtain ⟨value, -, rfl⟩ := Option.map_eq_some_iff.mp halter
    simp
  | case2 value rest =>
    obtain ⟨value', -, rfl⟩ := Option.map_eq_some_iff.mp halter
    simp
  | case3 k value rest hne ih =>
    obtain ⟨rest', hrest, rfl⟩ := Option.map_eq_some_iff.mp halter
    simp only [List.map_cons, List.mem_cons, ih hrest]
    tauto

theorem WellFormed.alter {entries changed : Entries} {key : String}
    {f : Option Value → Option Value} (hentries : entries.WellFormed)
    (hf : ∀ before after, (∀ value, before = some value → value.WellFormed) →
      f before = some after → after.WellFormed)
    (halter : entries.alter key f = some changed) : changed.WellFormed := by
  fun_induction Entries.alter entries key f generalizing changed with
  | case1 =>
    obtain ⟨value, hvalue, rfl⟩ := Option.map_eq_some_iff.mp halter
    exact wellFormed_cons.mpr ⟨by simp, hf _ _ (by simp) hvalue, wellFormed_nil⟩
  | case2 value rest =>
    obtain ⟨value', hvalue, rfl⟩ := Option.map_eq_some_iff.mp halter
    obtain ⟨hkey, hbefore, hrest⟩ := wellFormed_cons.mp hentries
    refine wellFormed_cons.mpr ⟨hkey, hf _ _ ?_ hvalue, hrest⟩
    rintro _ ⟨⟩
    exact hbefore
  | case3 k value rest hne ih =>
    obtain ⟨rest', hrest', rfl⟩ := Option.map_eq_some_iff.mp halter
    obtain ⟨hkey, hvalue, hrest⟩ := wellFormed_cons.mp hentries
    refine wellFormed_cons.mpr ⟨?_, hvalue, ih hrest hrest'⟩
    rw [mem_keys_alter hrest']
    exact fun hmem => hmem.elim hne hkey

theorem WellFormed.enter {made : Origin} {path : List String}
    {f : Origin → Entries → Option Entries} {origin : Origin} {entries changed : Entries}
    (hentries : entries.WellFormed)
    (hf : ∀ origin before after, before.WellFormed → f origin before = some after →
      after.WellFormed)
    (henter : Entries.enter made path f origin entries = some changed) : changed.WellFormed := by
  induction path generalizing origin entries changed with
  | nil => exact hf origin entries changed hentries henter
  | cons key path ih =>
    rw [Entries.enter] at henter
    refine hentries.alter ?_ henter
    intro before after hbefore hafter
    match before with
    | none =>
      obtain ⟨inner, hinner, rfl⟩ := Option.map_eq_some_iff.mp hafter
      exact (ih wellFormed_nil hinner).table made
    | some (.table origin entries) =>
      simp only at hafter
      split_ifs at hafter
      obtain ⟨inner, hinner, rfl⟩ := Option.map_eq_some_iff.mp hafter
      exact (ih (wellFormed_of_table (hbefore _ rfl)) hinner).table origin
    | some (.array true elements) =>
      cases hbefore _ rfl with
      | array helements =>
        simp only at hafter
        split at hafter
        · rename_i origin entries hlast
          obtain ⟨inner, hinner, rfl⟩ := Option.map_eq_some_iff.mp hafter
          have hmem : Value.table origin entries ∈ elements := List.mem_of_getLast? hlast
          have hchanged := (ih (wellFormed_of_table (helements _ hmem)) hinner).table origin
          refine .array fun value hvalue => ?_
          rcases List.mem_append.mp hvalue with hfront | hback
          · exact helements value ((List.dropLast_sublist elements).subset hfront)
          · rwa [List.mem_singleton.mp hback]
        · cases hafter
    | some (.array false elements) => cases hafter
    | some (.integer value) => cases hafter
    | some .float => cases hafter
    | some (.boolean value) => cases hafter
    | some (.text value) => cases hafter
    | some .time => cases hafter

theorem WellFormed.define {made : Origin} {entries changed : Entries} {path : List String}
    {key : String} {value : Value} (hentries : entries.WellFormed) (hvalue : value.WellFormed)
    (hdefine : entries.define made path key value = some changed) : changed.WellFormed := by
  refine hentries.enter (fun origin before after hbefore hafter => ?_) hdefine
  split_ifs at hafter
  refine hbefore.alter (fun taken after _ hafter => ?_) hafter
  cases taken <;> cases hafter
  exact hvalue

theorem WellFormed.openTable {entries changed : Entries} {path : List String} {key : String}
    (hentries : entries.WellFormed) (hopen : entries.openTable path key = some changed) :
    changed.WellFormed := by
  refine hentries.enter (fun origin before after hbefore hafter => ?_) hopen
  refine hbefore.alter (fun taken after htaken hafter => ?_) hafter
  split at hafter
  · cases hafter
    exact wellFormed_nil.table .header
  · cases hafter
    exact (wellFormed_of_table (htaken _ rfl)).table .header
  · cases hafter

theorem WellFormed.openElement {entries changed : Entries} {path : List String} {key : String}
    (hentries : entries.WellFormed) (hopen : entries.openElement path key = some changed) :
    changed.WellFormed := by
  have hempty := wellFormed_nil.table .header
  refine hentries.enter (fun origin before after hbefore hafter => ?_) hopen
  refine hbefore.alter (fun taken after htaken hafter => ?_) hafter
  split at hafter
  · cases hafter
    exact .array (by simpa using hempty)
  · cases hafter
    cases htaken _ rfl with
    | array helements =>
      refine .array fun value hvalue => ?_
      rcases List.mem_append.mp hvalue with hfront | hback
      · exact helements value hfront
      · rwa [List.mem_singleton.mp hback]
  · cases hafter

end Entries

theorem wellFormed_of_int64? {number : Int} {value : Value} (h : int64? number = some value) :
    value.WellFormed := by
  unfold int64? at h
  split_ifs at h with hrange
  cases h
  exact .integer hrange.1 hrange.2

theorem wellFormed_of_based? {base : Nat} {cs rest : List Char} {value : Value}
    (h : based? base cs = some (value, rest)) : value.WellFormed := by
  obtain ⟨⟨ds, tail⟩, -, hvalue⟩ := Option.bind_eq_some_iff.mp h
  obtain ⟨number, hnumber, hpair⟩ := Option.map_eq_some_iff.mp hvalue
  cases hpair
  exact wellFormed_of_int64? hnumber

theorem wellFormed_of_decimal? {cs rest : List Char} {value : Value}
    (h : decimal? cs = some (value, rest)) : value.WellFormed := by
  unfold decimal? at h
  simp only at h
  split at h
  · cases h
    exact .float
  · cases h
    exact .float
  · obtain ⟨⟨whole, tail⟩, -, h⟩ := Option.bind_eq_some_iff.mp h
    simp only at h
    split at h
    · obtain ⟨⟨fraction, tail⟩, -, h⟩ := Option.bind_eq_some_iff.mp h
      obtain ⟨⟨e, tail⟩, -, h⟩ := Option.bind_eq_some_iff.mp h
      simp only at h
      split_ifs at h
      cases h
      exact .float
    · obtain ⟨number, hnumber, hpair⟩ := Option.map_eq_some_iff.mp h
      cases hpair
      exact wellFormed_of_int64? hnumber

theorem wellFormed_of_number? {cs rest : List Char} {value : Value}
    (h : number? cs = some (value, rest)) : value.WellFormed := by
  unfold number? at h
  split at h
  · exact wellFormed_of_based? h
  · exact wellFormed_of_based? h
  · exact wellFormed_of_based? h
  · exact wellFormed_of_decimal? h

/-- What the readers of values yield with some fuel. -/
structure Reads (fuel : Nat) : Prop where
  value : ∀ {depth cs value rest}, value? fuel depth cs = some (value, rest) → value.WellFormed
  elements : ∀ {depth cs elements rest}, elements? fuel depth cs = some (elements, rest) →
    ∀ value ∈ elements, value.WellFormed
  fields : ∀ {depth} {entries : Entries} {cs changed rest}, entries.WellFormed →
    fields? fuel depth entries cs = some (changed, rest) → changed.WellFormed

theorem reads (fuel : Nat) : Reads fuel := by
  induction fuel with
  | zero =>
    exact {
      value := fun h => by cases h
      elements := fun h => by cases h
      fields := fun _ h => by cases h }
  | succ fuel ih =>
    refine ⟨fun h => ?_, fun h => ?_, fun hentries h => ?_⟩
    · unfold value? at h
      split at h
      · split at h
        · cases h
        · obtain ⟨⟨elements, tail⟩, helements, hpair⟩ := Option.map_eq_some_iff.mp h
          cases hpair
          exact .array (ih.elements helements)
      · split at h
        · cases h
        · split at h
          · cases h
            exact Entries.wellFormed_nil.table .inline
          · obtain ⟨⟨entries, tail⟩, hfields, hpair⟩ := Option.map_eq_some_iff.mp h
            cases hpair
            exact (ih.fields Entries.wellFormed_nil hfields).table .inline
      · cases h
        exact .boolean
      · cases h
        exact .boolean
      · obtain ⟨text, -, hpair⟩ := Option.map_eq_some_iff.mp h
        cases hpair
        exact .text
      · obtain ⟨text, -, hpair⟩ := Option.map_eq_some_iff.mp h
        cases hpair
        exact .text
      · split at h
        · obtain ⟨tail, -, hpair⟩ := Option.map_eq_some_iff.mp h
          cases hpair
          exact .time
        · exact wellFormed_of_number? h
    · unfold elements? at h
      obtain ⟨start, -, h⟩ := Option.bind_eq_some_iff.mp h
      split at h
      · cases h
        simp
      · obtain ⟨⟨first, tail⟩, hfirst, h⟩ := Option.bind_eq_some_iff.mp h
        obtain ⟨next, -, h⟩ := Option.bind_eq_some_iff.mp h
        split at h
        · obtain ⟨⟨others, tail⟩, hothers, h⟩ := Option.bind_eq_some_iff.mp h
          cases h
          exact List.forall_mem_cons.mpr ⟨ih.value hfirst, ih.elements hothers⟩
        · cases h
          exact List.forall_mem_singleton.mpr (ih.value hfirst)
        · cases h
    · unfold fields? at h
      obtain ⟨⟨path, key, tail⟩, -, h⟩ := Option.bind_eq_some_iff.mp h
      obtain ⟨behind, -, h⟩ := Option.bind_eq_some_iff.mp h
      obtain ⟨⟨value, tail⟩, hvalue, h⟩ := Option.bind_eq_some_iff.mp h
      obtain ⟨added, hadded, h⟩ := Option.bind_eq_some_iff.mp h
      have hwell := hentries.define (ih.value hvalue) hadded
      split at h
      · exact ih.fields hwell h
      · cases h
        exact hwell
      · cases h

namespace Document

theorem wellFormed_of_tableLine? {document next : Document} {cs rest : List Char}
    (hentries : document.entries.WellFormed) (h : document.tableLine? cs = some (next, rest)) :
    next.entries.WellFormed := by
  obtain ⟨⟨path, key, tail⟩, -, h⟩ := Option.bind_eq_some_iff.mp h
  simp only at h
  split at h
  · obtain ⟨behind, -, h⟩ := Option.bind_eq_some_iff.mp h
    obtain ⟨entries, hopen, h⟩ := Option.bind_eq_some_iff.mp h
    cases h
    exact hentries.openTable hopen
  · cases h

theorem wellFormed_of_elementLine? {document next : Document} {cs rest : List Char}
    (hentries : document.entries.WellFormed) (h : document.elementLine? cs = some (next, rest)) :
    next.entries.WellFormed := by
  obtain ⟨⟨path, key, tail⟩, -, h⟩ := Option.bind_eq_some_iff.mp h
  simp only at h
  split at h
  · obtain ⟨behind, -, h⟩ := Option.bind_eq_some_iff.mp h
    obtain ⟨entries, hopen, h⟩ := Option.bind_eq_some_iff.mp h
    cases h
    exact hentries.openElement hopen
  · cases h

theorem wellFormed_of_entryLine? {document next : Document} {cs rest : List Char}
    (hentries : document.entries.WellFormed) (h : document.entryLine? cs = some (next, rest)) :
    next.entries.WellFormed := by
  obtain ⟨⟨path, key, tail⟩, -, h⟩ := Option.bind_eq_some_iff.mp h
  simp only at h
  split at h
  · obtain ⟨⟨value, tail⟩, hvalue, h⟩ := Option.bind_eq_some_iff.mp h
    obtain ⟨behind, -, h⟩ := Option.bind_eq_some_iff.mp h
    obtain ⟨entries, henter, h⟩ := Option.bind_eq_some_iff.mp h
    cases h
    refine hentries.enter (fun origin before after hbefore hafter => ?_) henter
    exact hbefore.define ((reads _).value hvalue) hafter
  · cases h

theorem wellFormed_of_lines? {fuel : Nat} {document last : Document} {cs : List Char}
    (hentries : document.entries.WellFormed) (h : lines? fuel document cs = some last) :
    last.entries.WellFormed := by
  induction fuel generalizing document cs with
  | zero => cases h
  | succ fuel ih =>
    unfold lines? at h
    split at h
    · cases h
      exact hentries
    · obtain ⟨⟨next, rest⟩, hline, h⟩ := Option.bind_eq_some_iff.mp h
      exact ih (wellFormed_of_elementLine? hentries hline) h
    · obtain ⟨⟨next, rest⟩, hline, h⟩ := Option.bind_eq_some_iff.mp h
      exact ih (wellFormed_of_tableLine? hentries hline) h
    · split at h
      · obtain ⟨rest, -, h⟩ := Option.bind_eq_some_iff.mp h
        exact ih hentries h
      · obtain ⟨⟨next, rest⟩, hline, h⟩ := Option.bind_eq_some_iff.mp h
        exact ih (wellFormed_of_entryLine? hentries hline) h

end Document

/-- In a document, no key appears twice in a table, at any depth. -/
theorem wellFormed_of_parse? {text : String} {entries : Entries} (h : parse? text = some entries) :
    entries.WellFormed := by
  obtain ⟨document, hlines, rfl⟩ := Option.map_eq_some_iff.mp h
  exact Document.wellFormed_of_lines? Entries.wellFormed_nil hlines

end HartRuntime.Toml
