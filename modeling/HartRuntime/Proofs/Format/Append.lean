import HartRuntime.Proofs.Format.Printed
import HartRuntime.Text.Utf8

namespace HartRuntime.Format

open Numeral (Scratch)

/-- Whether the end of the format left an item as a whole. -/
def Item.whole : Item → Bool
  | .unfinished _ => false
  | _ => true

/-- Whether an item has a specifier that takes an argument, as all but `%` do. -/
def Item.specified : Item → Bool
  | .conversion _ specifier => specifier != percent
  | _ => false

/-- Whether an item takes its precision from an argument. -/
def Item.starred : Item → Bool
  | .literal _ => false
  | .conversion precision _ => precision == .fromArg
  | .unfinished precision => precision == .fromArg

theorem Splits.append {f g : List UInt8} {fs gs : List Item} (hf : Splits f fs)
    (hwhole : ∀ item ∈ fs, item.whole) (hg : Splits g gs) : Splits (f ++ g) (fs ++ gs) := by
  induction hf with
  | nil => exact hg
  | literal hbyte _ ih =>
    exact .literal hbyte (ih fun item hitem => hwhole item (by simp [hitem]))
  | @conversion precision specifier rest parts hclosed _ ih =>
    have htail := ih fun item hitem => hwhole item (by simp [hitem])
    simpa using Splits.conversion hclosed htail
  | @unfinished precision _ => exact absurd (hwhole (.unfinished precision) (by simp)) (by simp [Item.whole])

/-- What follows a format that ends between two items is split as if it stood alone. -/
theorem items_append {f : List UInt8} (hwhole : ∀ item ∈ items f, item.whole) (g : List UInt8) :
    items (f ++ g) = items f ++ items g :=
  ((splits_items f).append hwhole (splits_items g)).eq_items.symm

theorem Item.need_eq (item : Item) :
    item.need = (if item.specified then 1 else 0) + (if item.starred then 1 else 0) := by
  cases item with
  | literal byte => rfl
  | unfinished precision => cases precision <;> rfl
  | conversion precision specifier =>
    by_cases hspec : specifier = percent
    · cases precision <;> simp [need, Precision.need, specified, starred, hspec]
    · cases precision <;> simp [need, Precision.need, specified, starred, hspec]

theorem sum_need_eq_countP (parts : List Item) :
    (parts.map Item.need).sum = parts.countP Item.specified + parts.countP Item.starred := by
  induction parts with
  | nil => rfl
  | cons item rest ih =>
    simp only [List.map_cons, List.sum_cons, List.countP_cons, item.need_eq, ih]
    omega

theorem printed_append (args : List Arg) (fs gs : List Item) :
    printed args (fs ++ gs) = printed args fs ++ printed (args.drop (fs.map Item.need).sum) gs := by
  induction fs generalizing args with
  | nil => simp [printed]
  | cons item rest ih => simp [printed, ih, List.drop_drop]

theorem beforeNul_append {f : List UInt8} (hnul : 0 ∉ f) (g : List UInt8) :
    beforeNul (f ++ g) = f ++ beforeNul g := by
  apply List.takeWhile_append_of_pos
  intro byte hbyte
  simpa using ne_of_mem_of_not_mem hbyte hnul

theorem toNat_count {output : List UInt8} (hshort : output.length < 2 ^ 64) :
    (count output).toNat = output.length :=
  UInt64.toNat_ofNat_of_lt' hshort

theorem toNat_count_append {first second : List UInt8} (hshort : (first ++ second).length < 2 ^ 64) :
    (count (first ++ second)).toNat = (count first).toNat + (count second).toNat := by
  have hlength : (first ++ second).length = first.length + second.length := List.length_append
  rw [toNat_count hshort, toNat_count (by omega), toNat_count (by omega), hlength]

/-- A format that ends between two items hands the rest of the arguments to what follows
    it, and nothing else: the bytes behind it are split, and print, as they do on their own
    from a buffer in any state. -/
theorem output_append {f : List UInt8} (hnul : 0 ∉ f) (hwhole : ∀ item ∈ items f, item.whole) :
    ∃ k, k = (items f).countP Item.specified + (items f).countP Item.starred ∧
      ∀ (g : List UInt8) (args : List Arg),
        items (beforeNul (f ++ g)) = items f ++ items (beforeNul g) ∧
        output (f ++ g) args = output f args ++ output g (args.drop (min k args.length)) ∧
        ((output (f ++ g) args).length < 2 ^ 64 →
          (count (output (f ++ g) args)).toNat =
            (count (output f args)).toNat +
              (count (output g (args.drop (min k args.length)))).toNat) ∧
        ∀ scratch : Scratch, outputs ⟨args.drop (min k args.length), scratch⟩ (items (beforeNul g)) =
          output g (args.drop (min k args.length)) := by
  refine ⟨_, rfl, fun g args => ?_⟩
  rw [← sum_need_eq_countP]
  have hitems : items (beforeNul (f ++ g)) = items f ++ items (beforeNul g) := by
    rw [beforeNul_append hnul, items_append hwhole]
  have hself : beforeNul f = f := by simpa [beforeNul] using beforeNul_append hnul []
  have hdrop : args.drop (min ((items f).map Item.need).sum args.length) =
      args.drop ((items f).map Item.need).sum := by
    rcases Nat.le_total ((items f).map Item.need).sum args.length with hle | hle
    · rw [Nat.min_eq_left hle]
    · rw [Nat.min_eq_right hle, List.drop_eq_nil_of_le hle, List.drop_length]
  have houtput : output (f ++ g) args =
      output f args ++ output g (args.drop ((items f).map Item.need).sum) := by
    rw [output_eq, hitems, printed_append, output_eq f, output_eq g, hself]
  rw [hdrop]
  refine ⟨hitems, houtput, fun hshort => ?_, fun scratch => ?_⟩
  · rw [houtput] at hshort ⊢
    exact toNat_count_append hshort
  · rw [outputs_eq_printed, output_eq]

/-- A number whose precision is an argument, in front of text that is cut. -/
theorem output_append_starred :
    (0 ∉ utf8 "%.*x%%") ∧ (∀ item ∈ items (utf8 "%.*x%%"), item.whole) ∧
      output (utf8 "%.*x%%" ++ utf8 "%.3s") [.uint 4, .uint 255, .text (utf8 "abcde")] =
        output (utf8 "%.*x%%") [.uint 4, .uint 255, .text (utf8 "abcde")] ++
          output (utf8 "%.3s") [.text (utf8 "abcde")] := by
  have hnul : 0 ∉ utf8 "%.*x%%" := by decide
  have hwhole : ∀ item ∈ items (utf8 "%.*x%%"), item.whole := by decide +kernel
  obtain ⟨k, hk, happend⟩ := output_append hnul hwhole
  have htwo : k = 2 := by
    rw [hk]
    decide +kernel
  subst htwo
  exact ⟨hnul, hwhole, (happend (utf8 "%.3s") [.uint 4, .uint 255, .text (utf8 "abcde")]).2.1⟩

theorem beforeNul_eq_self {f : List UInt8} (hnul : 0 ∉ f) : beforeNul f = f := by
  simpa [beforeNul] using beforeNul_append hnul []

/-- A NUL ends a format, whatever stands behind it. -/
theorem beforeNul_append_of_mem {f : List UInt8} (hnul : 0 ∈ f) (g : List UInt8) :
    beforeNul (f ++ g) = beforeNul f := by
  induction f with
  | nil => simp at hnul
  | cons byte rest ih =>
    by_cases hzero : byte = 0
    · simp [beforeNul, hzero]
    · have hrest : 0 ∈ rest := by
        rcases List.mem_cons.mp hnul with hbyte | hrest
        · exact absurd hbyte.symm hzero
        · exact hrest
      simpa [beforeNul, hzero] using ih hrest

/-- A format is a part that ends between two items and, behind it, at most the beginning of a
    conversion, which prints nothing. -/
theorem Splits.exists_front {f : List UInt8} {parts : List Item} (hsplits : Splits f parts) :
    ∃ front last, f = front ++ last ∧ (∀ item ∈ items front, item.whole) ∧
      ∀ args, printed args (items last) = [] := by
  induction hsplits with
  | nil => exact ⟨[], [], by simp [items, printed]⟩
  | @literal byte rest parts hbyte _ ih =>
    obtain ⟨front, last, rfl, hwhole, hlast⟩ := ih
    refine ⟨byte :: front, last, rfl, ?_, hlast⟩
    rw [items_literal hbyte]
    simpa [Item.whole] using hwhole
  | @conversion precision specifier rest parts hclosed _ ih =>
    obtain ⟨front, last, rfl, hwhole, hlast⟩ := ih
    refine ⟨percent :: (precision.bytes ++ specifier :: front), last, by simp, ?_, hlast⟩
    rw [items_conversion (Precision.split_bytes_append hclosed)]
    simpa [Item.whole] using hwhole
  | @unfinished precision hclosed =>
    refine ⟨[], percent :: precision.bytes, rfl, by simp [items], fun args => ?_⟩
    rw [← (Splits.unfinished hclosed).eq_items]
    simp [printed, Item.text]

/-- What is put behind a format is printed as if it stood behind no more than the conversion
    that the format did not finish, with the arguments that the other items leave. -/
theorem exists_output_append {f : List UInt8} (hnul : 0 ∉ f) :
    ∃ last k, ∀ g args, output (f ++ g) args = output f args ++ output (last ++ g) (args.drop k) := by
  obtain ⟨front, last, rfl, hwhole, hlast⟩ := (splits_items f).exists_front
  have hlastNul : 0 ∉ last := fun hmem => hnul (List.mem_append_right front hmem)
  refine ⟨last, ((items front).map Item.need).sum, fun g args => ?_⟩
  have hfront : output (front ++ last) args = printed args (items front) := by
    rw [output_eq, beforeNul_eq_self hnul, items_append hwhole, printed_append, hlast,
      List.append_nil]
  rw [hfront, output_eq, output_eq, beforeNul_append hnul, beforeNul_append hlastNul,
    List.append_assoc, items_append hwhole, printed_append]

/-- A format prints the beginning of what any longer one prints, wherever it is cut: between
    two items, behind a percent sign, in a precision or behind its star. What stands behind a
    NUL prints nothing. -/
theorem output_prefix_append (f g : List UInt8) (args : List Arg) :
    output f args <+: output (f ++ g) args ∧
      ((output (f ++ g) args).length < 2 ^ 64 →
        count (output f args) ≤ count (output (f ++ g) args)) ∧
      (0 ∈ f → output (f ++ g) args = output f args ∧
        count (output (f ++ g) args) = count (output f args)) := by
  have hended (hnul : 0 ∈ f) : output (f ++ g) args = output f args := by
    rw [output_eq, output_eq, beforeNul_append_of_mem hnul]
  have hbegins : output f args <+: output (f ++ g) args := by
    by_cases hnul : 0 ∈ f
    · exact ⟨[], by rw [List.append_nil, hended hnul]⟩
    · obtain ⟨last, k, happend⟩ := exists_output_append hnul
      exact ⟨_, (happend g args).symm⟩
  refine ⟨hbegins, fun hshort => ?_, fun hnul => ?_⟩
  · have hle := hbegins.length_le
    rw [UInt64.le_iff_toNat_le, toNat_count hshort, toNat_count (hle.trans_lt hshort)]
    exact hle
  · rw [hended hnul]
    exact ⟨rfl, rfl⟩

/-- A format that is cut between two digits of a precision, and one that a NUL ends. -/
theorem output_prefix_append_digits :
    ((output (utf8 "%d-%.1" ++ utf8 "2x!") [.int (-7), .uint 255]).length < 2 ^ 64 ∧
        output (utf8 "%d-%.1") [.int (-7), .uint 255] <+:
          output (utf8 "%d-%.1" ++ utf8 "2x!") [.int (-7), .uint 255] ∧
        count (output (utf8 "%d-%.1") [.int (-7), .uint 255]) ≤
          count (output (utf8 "%d-%.1" ++ utf8 "2x!") [.int (-7), .uint 255])) ∧
      0 ∈ utf8 "%d\x00%" ∧
      output (utf8 "%d\x00%" ++ utf8 "x") [.int (-7), .uint 255] =
        output (utf8 "%d\x00%") [.int (-7), .uint 255] := by
  constructor
  · obtain ⟨hbegins, hcount, -⟩ :=
      output_prefix_append (utf8 "%d-%.1") (utf8 "2x!") [.int (-7), .uint 255]
    have hshort : (output (utf8 "%d-%.1" ++ utf8 "2x!") [.int (-7), .uint 255]).length < 2 ^ 64 := by
      decide +kernel
    exact ⟨hshort, hbegins, hcount hshort⟩
  · obtain ⟨-, -, hended⟩ :=
      output_prefix_append (utf8 "%d\x00%") (utf8 "x") [.int (-7), .uint 255]
    have hnul : 0 ∈ utf8 "%d\x00%" := by decide +kernel
    exact ⟨hnul, (hended hnul).1⟩

end HartRuntime.Format
