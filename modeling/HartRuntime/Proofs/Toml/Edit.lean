import HartRuntime.Proofs.Toml.WellFormed

namespace HartRuntime.Toml.Entries

/-- One change to a table: its entries stand in another order, there is an entry under a new
    key, or the value of a key is another. Which entries may be new and which values may take
    the place of which is left open. -/
inductive Edit (addable : String → Value → Prop) (replaceable : String → Value → Value → Prop) :
    Entries → Entries → Prop where
  | reordered {before after : Entries} (hperm : before.Perm after) :
      Edit addable replaceable before after
  | added {entries : Entries} {key : String} {value : Value} (hkey : key ∉ entries.map Prod.fst)
      (hvalue : value.WellFormed) (hadd : addable key value) :
      Edit addable replaceable entries ((key, value) :: entries)
  | replaced {front back : Entries} {key : String} {old new : Value}
      (hreplace : replaceable key old new) :
      Edit addable replaceable (front ++ (key, old) :: back) (front ++ (key, new) :: back)

variable {addable : String → Value → Prop} {replaceable : String → Value → Value → Prop}

theorem wellFormed_of_perm {before after : Entries} (hperm : before.Perm after)
    (hbefore : before.WellFormed) : after.WellFormed :=
  ⟨(hperm.map Prod.fst).nodup_iff.mp hbefore.nodup,
    fun entry hentry => hbefore.values entry (hperm.mem_iff.mpr hentry)⟩

theorem wellFormed_middle {front back : Entries} {key : String} {value : Value} :
    WellFormed (front ++ (key, value) :: back) ↔
      key ∉ (front ++ back).map Prod.fst ∧ value.WellFormed ∧ WellFormed (front ++ back) := by
  rw [← wellFormed_cons]
  exact ⟨wellFormed_of_perm List.perm_middle, wellFormed_of_perm List.perm_middle.symm⟩

/-- A change neither makes nor mends double keys if the values that it replaces do not. -/
theorem Edit.wellFormed_iff
    (hreplaceable : ∀ key old new, replaceable key old new → (old.WellFormed ↔ new.WellFormed))
    {before after : Entries} (hedit : Edit addable replaceable before after) :
    before.WellFormed ↔ after.WellFormed := by
  cases hedit with
  | reordered hperm => exact ⟨wellFormed_of_perm hperm, wellFormed_of_perm hperm.symm⟩
  | added hkey hvalue hadd =>
    rw [wellFormed_cons]
    exact ⟨fun h => ⟨hkey, hvalue, h⟩, fun h => h.2.2⟩
  | replaced hreplace => rw [wellFormed_middle, wellFormed_middle, hreplaceable _ _ _ hreplace]

/-- A key under which nothing may be added leads to the same value as before, or to one that
    was put in its place. -/
theorem Edit.lookup {before after : Entries} (hedit : Edit addable replaceable before after)
    (hbefore : before.WellFormed) (hafter : after.WellFormed) {key : String}
    (hkey : ∀ value, ¬ addable key value) :
    before.lookup key = after.lookup key ∨ ∃ old new, before.lookup key = some old ∧
      after.lookup key = some new ∧ replaceable key old new := by
  cases hedit with
  | reordered hperm =>
    left
    apply Option.ext
    intro value
    rw [lookup_eq_some_iff hbefore, lookup_eq_some_iff hafter, hperm.mem_iff]
  | @added entries new value hnew hvalue hadd =>
    left
    have hne : (key == new) = false := by
      rw [beq_eq_false_iff_ne]
      rintro rfl
      exact hkey value hadd
    simp [List.lookup_cons, hne]
  | @replaced front back other old new hreplace =>
    by_cases heq : key = other
    · subst heq
      right
      exact ⟨old, new, (lookup_eq_some_iff hbefore).mpr (by simp),
        (lookup_eq_some_iff hafter).mpr (by simp), hreplace⟩
    · left
      apply Option.ext
      intro value
      rw [lookup_eq_some_iff hbefore, lookup_eq_some_iff hafter]
      simp [heq]

/-- A change to the entries of a value that is a table, however each of the two came about. -/
def InTable (edit : Entries → Entries → Prop) (old new : Value) : Prop :=
  ∃ first second before after,
    old = .table first before ∧ new = .table second after ∧ edit before after

theorem InTable.wellFormed_iff {edit : Entries → Entries → Prop}
    (hedit : ∀ before after, edit before after → (before.WellFormed ↔ after.WellFormed))
    {old new : Value} (hin : InTable edit old new) : old.WellFormed ↔ new.WellFormed := by
  obtain ⟨first, second, before, after, rfl, rfl, hchange⟩ := hin
  exact ⟨fun h => ((hedit _ _ hchange).mp (wellFormed_of_table h)).table second,
    fun h => ((hedit _ _ hchange).mpr (wellFormed_of_table h)).table first⟩

end HartRuntime.Toml.Entries
