import HartRuntime.Proofs.Format.Append

namespace HartRuntime.Format

open Numeral (Scratch)

/-- The items of a list, each with the arguments that it takes. -/
def shares (args : List Arg) : List Item → List (Item × List Arg)
  | [] => []
  | item :: rest => (item, args.take item.need) :: shares (args.drop item.need) rest

/-- What an item prints when it is given its own share and nothing else. -/
def shareText (share : Item × List Arg) : List UInt8 :=
  (share.1.output ⟨share.2, Scratch.fresh⟩).1

/-- Two lists of arguments of one length that differ at one place at most. -/
structure DifferAt (k : Nat) (first second : List Arg) : Prop where
  length_eq : first.length = second.length
  getElem?_eq : ∀ i, i ≠ k → first[i]? = second[i]?

theorem need_eq_sum (format : List UInt8) :
    need format = ((items (beforeNul format)).map Item.need).sum := by
  rw [need, List.sum, List.foldr_map]

/-- An item looks at no argument but its own. -/
theorem Item.text_take_need (item : Item) (args : List Arg) :
    item.text (args.take item.need) = item.text args := by
  cases item with
  | literal byte => rfl
  | unfinished precision => rfl
  | conversion precision specifier =>
    unfold Item.text Item.need
    by_cases hspec : specifier = percent
    · simp only [if_pos hspec]
    · simp only [if_neg hspec]
      cases args with
      | nil => simp
      | cons arg rest =>
        cases precision with
        | absent => simp [Precision.need, Precision.reading]
        | digits ds => simp [Precision.need, Precision.reading]
        | fromArg => cases rest <;> simp [Precision.need, Precision.reading]

theorem shareText_eq (item : Item) (args : List Arg) :
    shareText (item, args.take item.need) = item.text args := by
  rw [shareText, item.output_fst, item.text_take_need]

/-- A list of items prints what each item makes of its own share. -/
theorem printed_eq_flatMap_shares (args : List Arg) (parts : List Item) :
    printed args parts = (shares args parts).flatMap shareText := by
  induction parts generalizing args with
  | nil => rfl
  | cons item rest ih => rw [printed, shares, List.flatMap_cons, shareText_eq, ih]

theorem output_eq_flatMap_shares (format : List UInt8) (args : List Arg) :
    output format args = (shares args (items (beforeNul format))).flatMap shareText := by
  rw [output_eq, printed_eq_flatMap_shares]

/-- Arguments beyond those that the items take belong to no share. -/
theorem shares_take_sum (args : List Arg) (parts : List Item) :
    shares (args.take (parts.map Item.need).sum) parts = shares args parts := by
  induction parts generalizing args with
  | nil => rfl
  | cons item rest ih =>
    rw [List.map_cons, List.sum_cons, shares, shares, List.take_take, List.drop_take,
      Nat.min_eq_left (Nat.le_add_right ..), Nat.add_sub_cancel_left, ih]

theorem DifferAt.take_eq {k n : Nat} {first second : List Arg} (hdiffer : DifferAt k first second)
    (hn : n ≤ k) : first.take n = second.take n := by
  apply List.ext_getElem?
  intro i
  rw [List.getElem?_take, List.getElem?_take]
  split
  · exact hdiffer.getElem?_eq i (by omega)
  · rfl

theorem DifferAt.drop_eq {k n : Nat} {first second : List Arg} (hdiffer : DifferAt k first second)
    (hn : k < n) : first.drop n = second.drop n := by
  apply List.ext_getElem?
  intro i
  rw [List.getElem?_drop, List.getElem?_drop]
  exact hdiffer.getElem?_eq (n + i) (by omega)

theorem DifferAt.drop {k n : Nat} {first second : List Arg} (hdiffer : DifferAt k first second)
    (hn : n ≤ k) : DifferAt (k - n) (first.drop n) (second.drop n) where
  length_eq := by rw [List.length_drop, List.length_drop, hdiffer.length_eq]
  getElem?_eq i hi := by
    rw [List.getElem?_drop, List.getElem?_drop]
    exact hdiffer.getElem?_eq (n + i) (by omega)

theorem DifferAt.shares_eq {k : Nat} {first second : List Arg} (hdiffer : DifferAt k first second)
    {parts : List Item} (hk : (parts.map Item.need).sum ≤ k) :
    shares first parts = shares second parts := by
  rw [← shares_take_sum first, ← shares_take_sum second, hdiffer.take_eq hk]

/-- What the shares of two lists of arguments have in common when they differ at a place
    that some item takes: everything but the share of that item. -/
structure OneShare (k : Nat) (first second : List Arg) (parts : List Item)
    (before after : List (Item × List Arg)) (item : Item) (own own' : List Arg) : Prop where
  first_eq : shares first parts = before ++ (item, own) :: after
  second_eq : shares second parts = before ++ (item, own') :: after
  le : (before.map (·.1.need)).sum ≤ k
  lt : k < (before.map (·.1.need)).sum + item.need
  own_eq : own[k - (before.map (·.1.need)).sum]? = first[k]?
  own'_eq : own'[k - (before.map (·.1.need)).sum]? = second[k]?

/-- Shares are handed out from left to right, so that the arguments before the differing
    one are used up by the same items, and those behind it are left for the same items. -/
theorem DifferAt.exists_oneShare {k : Nat} {first second : List Arg}
    (hdiffer : DifferAt k first second) {parts : List Item} (hk : k < (parts.map Item.need).sum) :
    ∃ before after item own own', OneShare k first second parts before after item own own' := by
  induction parts generalizing k first second with
  | nil => simp at hk
  | cons head rest ih =>
    rw [List.map_cons, List.sum_cons] at hk
    by_cases hhead : k < head.need
    · refine ⟨[], shares (first.drop head.need) rest, head, first.take head.need,
        second.take head.need, ?_⟩
      exact {
        first_eq := rfl
        second_eq := by rw [shares, hdiffer.drop_eq hhead, List.nil_append]
        le := Nat.zero_le k
        lt := by simpa using hhead
        own_eq := by simp [hhead]
        own'_eq := by simp [hhead] }
    · have hle : head.need ≤ k := Nat.le_of_not_lt hhead
      obtain ⟨before, after, item, own, own', hone⟩ := ih (hdiffer.drop hle) (by omega)
      refine ⟨(head, first.take head.need) :: before, after, item, own, own', ?_⟩
      have hbefore : (((head, first.take head.need) :: before).map (·.1.need)).sum =
          head.need + (before.map (·.1.need)).sum := by
        rw [List.map_cons, List.sum_cons]
      have hfirst := hone.own_eq
      have hsecond := hone.own'_eq
      rw [List.getElem?_drop, Nat.add_sub_cancel' hle, Nat.sub_sub] at hfirst hsecond
      exact {
        first_eq := by rw [shares, hone.first_eq, List.cons_append]
        second_eq := by rw [shares, hone.second_eq, ← hdiffer.take_eq hle, List.cons_append]
        le := by
          have := hone.le
          omega
        lt := by
          have := hone.lt
          omega
        own_eq := by rw [hbefore, hfirst]
        own'_eq := by rw [hbefore, hsecond] }

/-- The argument that an item takes is its precision, or the one behind it. -/
theorem Item.takes_precision_or_value {item : Item} {n k : Nat} (hle : n ≤ k)
    (hlt : k < n + item.need) :
    (item.starred ∧ k = n) ∨ (item.specified ∧ k = n + if item.starred then 1 else 0) := by
  rw [item.need_eq] at hlt
  cases hstar : item.starred <;> cases hspec : item.specified <;> simp [hstar, hspec] at hlt ⊢ <;> omega

/-- A format fixes how many arguments it takes and which item takes each of them. The value
    of an argument reaches the text of the one item that takes it, and nothing else: not what
    the other items receive, and not what they print. -/
theorem output_of_differAt (format : List UInt8) :
    need format = (items (beforeNul format)).countP Item.specified +
        (items (beforeNul format)).countP Item.starred ∧
      (∀ args, output format args = output format (args.take (need format))) ∧
      ∀ k first second, DifferAt k first second →
        (need format ≤ k → output format first = output format second ∧
          count (output format first) = count (output format second)) ∧
        (k < need format → ∃ before after item own own',
          OneShare k first second (items (beforeNul format)) before after item own own' ∧
          ((item.starred ∧ k = (before.map (·.1.need)).sum) ∨
            (item.specified ∧
              k = (before.map (·.1.need)).sum + if item.starred then 1 else 0)) ∧
          ∀ scratch : Scratch,
            output format first = before.flatMap shareText ++
              (item.output ⟨own, scratch⟩).1 ++ after.flatMap shareText ∧
            output format second = before.flatMap shareText ++
              (item.output ⟨own', scratch⟩).1 ++ after.flatMap shareText) := by
  refine ⟨?_, fun args => ?_, fun k first second hdiffer => ⟨fun hk => ?_, fun hk => ?_⟩⟩
  · rw [need_eq_sum, sum_need_eq_countP]
  · rw [output_eq_flatMap_shares, output_eq_flatMap_shares, need_eq_sum, shares_take_sum]
  · rw [need_eq_sum] at hk
    have houtput : output format first = output format second := by
      rw [output_eq_flatMap_shares, output_eq_flatMap_shares, hdiffer.shares_eq hk]
    exact ⟨houtput, congrArg count houtput⟩
  · rw [need_eq_sum] at hk
    obtain ⟨before, after, item, own, own', hone⟩ := hdiffer.exists_oneShare hk
    refine ⟨before, after, item, own, own', hone,
      Item.takes_precision_or_value hone.le hone.lt, fun scratch => ⟨?_, ?_⟩⟩
    · rw [output_eq_flatMap_shares, hone.first_eq, List.flatMap_append, List.flatMap_cons,
        shareText, item.output_fst, item.output_fst, List.append_assoc]
    · rw [output_eq_flatMap_shares, hone.second_eq, List.flatMap_append, List.flatMap_cons,
        shareText, item.output_fst, item.output_fst, List.append_assoc]

/-- Text in place of the precision of a percent sign, between a number and one more star. -/
theorem output_of_differAt_starred :
    DifferAt 1 [.int (-7), .uint 9, .uint 4, .uint 255] [.int (-7), .text [65], .uint 4, .uint 255] ∧
      1 < need (utf8 "%d%.*%%.*x") ∧
      ∃ before after item own own',
        OneShare 1 [.int (-7), .uint 9, .uint 4, .uint 255]
          [.int (-7), .text [65], .uint 4, .uint 255] (items (beforeNul (utf8 "%d%.*%%.*x")))
          before after item own own' ∧
        output (utf8 "%d%.*%%.*x") [.int (-7), .text [65], .uint 4, .uint 255] =
          before.flatMap shareText ++ (item.output ⟨own', Scratch.fresh⟩).1 ++
            after.flatMap shareText := by
  have hdiffer : DifferAt 1 [.int (-7), .uint 9, .uint 4, .uint 255]
      [.int (-7), .text [65], .uint 4, .uint 255] :=
    ⟨rfl, fun i hi => by
      match i, hi with
      | 0, _ => rfl
      | 2, _ => rfl
      | 3, _ => rfl
      | _ + 4, _ => rfl⟩
  have hneed : 1 < need (utf8 "%d%.*%%.*x") := by decide +kernel
  obtain ⟨before, after, item, own, own', hone, -, houtput⟩ :=
    ((output_of_differAt (utf8 "%d%.*%%.*x")).2.2 1 _ _ hdiffer).2 hneed
  exact ⟨hdiffer, hneed, before, after, item, own, own', hone, (houtput Scratch.fresh).2⟩

end HartRuntime.Format
