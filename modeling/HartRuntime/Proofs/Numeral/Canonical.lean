import Mathlib.Data.List.Basic
import Mathlib.Data.List.Induction
import Mathlib.Order.Bounds.Defs
import HartRuntime.Proofs.Numeral.Conversion
import HartRuntime.Text.Utf8

namespace HartRuntime.Numeral

def minus : UInt8 := 45

/-- The number that a numeral spells, counted downwards from zero behind a minus sign; none
    when a byte is no digit of the base. Leading zeros are accepted, and no digits are zero. -/
def ofBytes? (base : Nat) (text : List UInt8) : Option Int :=
  if text.head? = some minus then
    (ofCodes? base (text.tail.map UInt8.toNat)).map fun n : Nat => -(n : Int)
  else (ofCodes? base (text.map UInt8.toNat)).map fun n : Nat => (n : Int)

/-- Digits without waste: there is one, each is a digit of the base, and no zero stands in
    front of another digit. -/
structure Canonical (base : Nat) (digits : List UInt8) : Prop where
  ne_nil : digits ≠ []
  exists_digit : ∀ byte ∈ digits, ∃ digit < base, digit? byte.toNat = some digit
  eq_of_head? : digits.head? = some 48 → digits = [48]

/-- What the numeral of a word says: its value in base ten, its 32-bit pattern elsewhere. -/
def denoted (value : Int32) (base : Nat) : Int :=
  if base = 10 then value.toInt else value.toUInt32.toNat

/-- Whether a text is the numeral of a word. Only a negative number in base ten has a sign. -/
structure Spells (base : Nat) (value : Int32) (text : List UInt8) : Prop where
  exists_digits : ∃ digits, Canonical base digits ∧
    text = (if base = 10 ∧ value < 0 then [minus] else []) ++ digits
  reads : ofBytes? base text = some (denoted value base)

theorem symbol_lt {digit : Nat} (hdigit : digit < 36) : symbol digit < 123 := by
  unfold symbol
  split <;> omega

/-- A digit has one symbol. -/
theorem symbol_of_digit? {code digit : Nat} (hdigit : digit? code = some digit) :
    symbol digit = code := by
  unfold digit? at hdigit
  unfold symbol
  split at hdigit
  · simp only [Option.some.injEq] at hdigit
    rw [if_pos (by omega)]
    omega
  · split at hdigit
    · simp only [Option.some.injEq] at hdigit
      rw [if_neg (by omega)]
      omega
    · simp at hdigit

theorem codes_ne_nil {base : Nat} (hbase : 2 ≤ base) (n : Nat) : codes base n ≠ [] := by
  by_cases hsmall : n < base
  · simp [codes_of_lt hbase hsmall]
  · simp [codes_of_base_le hbase (Nat.le_of_not_lt hsmall)]

theorem codes_mul_add {base m digit : Nat} (hbase : 2 ≤ base) (hm : m ≠ 0)
    (hdigit : digit < base) : codes base (m * base + digit) = codes base m ++ [symbol digit] := by
  have hle : base ≤ m * base + digit :=
    Nat.le_add_right_of_le (Nat.le_mul_of_pos_left base (Nat.pos_of_ne_zero hm))
  have hquotient : (m * base + digit) / base = m := by
    rw [Nat.mul_comm, Nat.mul_add_div (by omega), Nat.div_eq_of_lt hdigit, Nat.add_zero]
  rw [codes_of_base_le hbase hle, hquotient, Nat.mul_add_mod_of_lt hdigit]

/-- Only zero has a numeral that begins with the digit zero. -/
theorem eq_zero_of_head?_codes {base n : Nat} (hbase : 2 ≤ base)
    (hhead : (codes base n).head? = some 48) : n = 0 := by
  induction n using Nat.strongRecOn with
  | ind n ih =>
    by_cases hsmall : n < base
    · rw [codes_of_lt hbase hsmall, List.head?_singleton, Option.some_inj] at hhead
      unfold symbol at hhead
      split at hhead <;> omega
    · have hle : base ≤ n := Nat.le_of_not_lt hsmall
      rw [codes_of_base_le hbase hle, List.head?_append_of_ne_nil _ (codes_ne_nil hbase _)] at hhead
      have hquotient := ih (n / base) (Nat.div_lt_self (by omega) hbase) hhead
      have hpos := Nat.div_pos hle (by omega)
      omega

theorem ofCodes?_concat (base : Nat) (front : List Nat) (code : Nat) :
    ofCodes? base (front ++ [code]) = (ofCodes? base front).bind fun value =>
      (digit? code).bind fun digit => if digit < base then some (value * base + digit) else none := by
  simp [ofCodes?, List.foldlM_append]

/-- A numeral is read as the number that it was made from. -/
theorem ofCodes?_codes {base : Nat} (hbase : Base base) (n : Nat) :
    ofCodes? base (codes base n) = some n := by
  obtain ⟨hlow, hhigh⟩ := hbase
  induction n using Nat.strongRecOn with
  | ind n ih =>
    by_cases hsmall : n < base
    · rw [codes_of_lt hlow hsmall]
      simp [ofCodes?, digit?_symbol (show n < 36 by omega), hsmall]
    · have hlast : n % base < base := Nat.mod_lt n (by omega)
      have hfront := ih (n / base) (Nat.div_lt_self (by omega) hlow)
      rw [codes_of_base_le hlow (Nat.le_of_not_lt hsmall), ofCodes?_concat, hfront,
        digit?_symbol (show n % base < 36 by omega)]
      simp [hlast, Nat.div_add_mod']

/-- Leading zeros add nothing to what digits are read as. -/
theorem ofCodes?_replicate_append {base : Nat} (hbase : 0 < base) (zeros : Nat)
    (codes : List Nat) : ofCodes? base (List.replicate zeros 48 ++ codes) = ofCodes? base codes := by
  induction zeros with
  | zero => rfl
  | succ zeros ih =>
    rw [← ih, List.replicate_succ, List.cons_append, ofCodes?, ofCodes?, List.foldlM_cons]
    simp [digit?, hbase]

/-- Digits that are read as a number are no fewer than those of its numeral. -/
theorem length_codes_le {base : Nat} (hbase : 2 ≤ base) {digits : List Nat} (hne : digits ≠ [])
    {n : Nat} (hreads : ofCodes? base digits = some n) : (codes base n).length ≤ digits.length := by
  induction digits using List.reverseRecOn generalizing n with
  | nil => exact absurd rfl hne
  | append_singleton front last ih =>
    rw [ofCodes?_concat] at hreads
    obtain ⟨m, hfront, hlast⟩ := Option.bind_eq_some_iff.mp hreads
    obtain ⟨digit, -, hn⟩ := Option.bind_eq_some_iff.mp hlast
    obtain ⟨hdigit, hn⟩ := Option.ite_none_right_eq_some.mp hn
    obtain rfl := Option.some.inj hn
    rw [List.length_append, List.length_singleton]
    by_cases hm : m = 0
    · rw [hm, Nat.zero_mul, Nat.zero_add, codes_of_lt hbase hdigit, List.length_singleton]
      omega
    · have hfrontNe : front ≠ [] := by
        rintro rfl
        exact hm (Option.some.inj hfront).symm
      rw [codes_mul_add hbase hm hdigit, List.length_append, List.length_singleton]
      exact Nat.add_le_add_right (ih hfrontNe hfront) 1

/-- No symbol is too big for a byte. -/
theorem map_toNat_bytes {base : Nat} (hbase : Base base) (n : Nat) :
    (bytes base n).map UInt8.toNat = codes base n := by
  obtain ⟨hlow, hhigh⟩ := hbase
  have hsame : ∀ code ∈ codes base n, (UInt8.toNat ∘ UInt8.ofNat) code = id code := by
    intro code hcode
    obtain ⟨digit, hdigit, rfl⟩ := exists_symbol_of_mem_codes hlow hcode
    have hsymbol := symbol_lt (show digit < 36 by omega)
    exact UInt8.toNat_ofNat_of_lt' (by simp only [UInt8.size]; omega)
  rw [bytes, List.map_map, List.map_congr_left hsame, List.map_id]

theorem canonical_bytes {base : Nat} (hbase : Base base) (n : Nat) :
    Canonical base (bytes base n) := by
  have hcodes := map_toNat_bytes hbase n
  obtain ⟨hlow, hhigh⟩ := hbase
  refine ⟨?_, ?_, ?_⟩
  · simpa [bytes] using codes_ne_nil hlow n
  · intro byte hbyte
    have hcode : byte.toNat ∈ codes base n := by
      rw [← hcodes]
      exact List.mem_map_of_mem hbyte
    obtain ⟨digit, hdigit, hsymbol⟩ := exists_symbol_of_mem_codes hlow hcode
    exact ⟨digit, hdigit, by rw [hsymbol, digit?_symbol (by omega)]⟩
  · intro hhead
    have hzero : n = 0 := by
      apply eq_zero_of_head?_codes hlow
      rw [← hcodes, List.head?_map, hhead]
      rfl
    rw [hzero]
    rfl

/-- Digits without waste are those of the number that they are read as. -/
theorem Canonical.eq_bytes {base : Nat} (hbase : 2 ≤ base) {digits : List UInt8}
    (hcanonical : Canonical base digits) {n : Nat}
    (hreads : ofCodes? base (digits.map UInt8.toNat) = some n) : digits = bytes base n := by
  -- From the right: the last digit is the remainder, and the digits before it are read as the quotient.
  induction digits using List.reverseRecOn generalizing n with
  | nil => exact absurd rfl hcanonical.ne_nil
  | append_singleton front last ih =>
    obtain ⟨digit, hdigit, hlast⟩ := hcanonical.exists_digit last (by simp)
    have hsymbol : UInt8.ofNat (symbol digit) = last := by
      rw [symbol_of_digit? hlast, UInt8.ofNat_toNat]
    rw [List.map_append, List.map_singleton, ofCodes?_concat, hlast] at hreads
    obtain ⟨m, hfront, hn⟩ := Option.bind_eq_some_iff.mp hreads
    simp only [Option.bind_some, if_pos hdigit, Option.some.injEq] at hn
    subst hn
    by_cases hnil : front = []
    · subst hnil
      have hm : m = 0 := (Option.some.inj hfront).symm
      rw [hm, Nat.zero_mul, Nat.zero_add, bytes, codes_of_lt hbase hdigit, List.map_singleton,
        hsymbol, List.nil_append]
    · have hhead : front.head? ≠ some 48 := by
        intro hzero
        have hwhole := hcanonical.eq_of_head? (by rwa [List.head?_append_of_ne_nil front hnil])
        have hlength := congrArg List.length hwhole
        have hfrontLength := List.length_pos_of_ne_nil hnil
        simp only [List.length_append, List.length_singleton] at hlength
        omega
      have hbytes := ih ⟨hnil, fun byte hbyte => hcanonical.exists_digit byte (by simp [hbyte]),
        fun hzero => absurd hzero hhead⟩ hfront
      have hm : m ≠ 0 := by
        rintro rfl
        apply hhead
        rw [hbytes]
        rfl
      rw [bytes, codes_mul_add hbase hm hdigit, List.map_append, List.map_singleton, hsymbol,
        hbytes, bytes]

theorem Canonical.head?_ne_minus {base : Nat} {digits : List UInt8}
    (hcanonical : Canonical base digits) : digits.head? ≠ some minus := by
  intro hhead
  obtain ⟨digit, -, hdigit⟩ := hcanonical.exists_digit minus (List.mem_of_head? hhead)
  simp [digit?, minus] at hdigit

/-- A sign is told from the digits behind it. -/
theorem Canonical.ofBytes?_eq {base : Nat} {digits : List UInt8} (hcanonical : Canonical base digits)
    (negative : Prop) [Decidable negative] :
    ofBytes? base ((if negative then [minus] else []) ++ digits) =
      (ofCodes? base (digits.map UInt8.toNat)).map fun n : Nat =>
        if negative then -(n : Int) else n := by
  by_cases hnegative : negative
  · simp [ofBytes?, hnegative]
  · simp [ofBytes?, hnegative, hcanonical.head?_ne_minus]

theorem Canonical.ofBytes?_replicate_append {base : Nat} (hbase : 0 < base) {digits : List UInt8}
    (hcanonical : Canonical base digits) (zeros : Nat) :
    ofBytes? base (List.replicate zeros 48 ++ digits) = ofBytes? base digits := by
  have hhead : (List.replicate zeros 48 ++ digits).head? ≠ some minus := by
    cases zeros with
    | zero => exact hcanonical.head?_ne_minus
    | succ zeros => simp [List.replicate_succ, minus]
  rw [ofBytes?, ofBytes?, if_neg hhead, if_neg hcanonical.head?_ne_minus, List.map_append,
    List.map_replicate]
  exact congrArg _ (ofCodes?_replicate_append hbase zeros _)

theorem signed_eq_true_iff {value : Int32} {base : Nat} :
    signed value base = true ↔ base = 10 ∧ value < 0 := by
  simp [signed]

/-- The digits of a numeral count what it says, downwards behind a sign. -/
theorem denoted_eq (value : Int32) (base : Nat) :
    denoted value base =
      if base = 10 ∧ value < 0 then -(magnitude value base : Int) else magnitude value base := by
  unfold denoted magnitude
  by_cases hsign : base = 10 ∧ value < 0
  · have hlt : value.toInt < 0 := Int32.lt_iff_toInt_lt.mp hsign.2
    rw [if_pos hsign, if_pos hsign.1, if_pos (signed_eq_true_iff.mpr hsign)]
    omega
  · rw [if_neg hsign, if_neg (mt signed_eq_true_iff.mp hsign)]
    split
    · rename_i hten
      have hle : 0 ≤ value.toInt :=
        Int32.le_iff_toInt_le.mp (Int32.not_lt.mp fun hneg => hsign ⟨hten, hneg⟩)
      rw [toNat_toUInt32_of_nonneg hle]
      omega
    · rfl

theorem denoted_inj {base : Nat} {first second : Int32} :
    denoted first base = denoted second base ↔ first = second := by
  unfold denoted
  split
  · exact Int32.toInt_inj
  · rw [Int.natCast_inj, UInt32.toNat_inj]
    exact ⟨fun h => Int32.toBitVec_inj.mp (UInt32.toBitVec_inj.mpr h), fun h => by rw [h]⟩

theorem ofInt32_of_base (value : Int32) {base : Nat} (hbase : Base base) :
    ofInt32 value base = (if base = 10 ∧ value < 0 then [minus] else []) ++
      bytes base (magnitude value base) := by
  simp only [ofInt32, if_pos hbase, signed_eq_true_iff, minus]

/-- A word has one numeral in each base. -/
theorem spells_iff {base : Nat} (hbase : Base base) {value : Int32} {text : List UInt8} :
    Spells base value text ↔ text = ofInt32 value base := by
  constructor
  · rintro ⟨⟨digits, hcanonical, rfl⟩, hreads⟩
    rw [hcanonical.ofBytes?_eq, denoted_eq] at hreads
    obtain ⟨n, hn, hsame⟩ := Option.map_eq_some_iff.mp hreads
    have hmagnitude : n = magnitude value base := by
      split at hsame <;> omega
    rw [ofInt32_of_base value hbase, hcanonical.eq_bytes hbase.1 hn, hmagnitude]
  · rintro rfl
    have hcanonical := canonical_bytes hbase (magnitude value base)
    rw [ofInt32_of_base value hbase]
    refine ⟨⟨_, hcanonical, rfl⟩, ?_⟩
    rw [hcanonical.ofBytes?_eq, map_toNat_bytes hbase, ofCodes?_codes hbase, denoted_eq,
      Option.map_some]

/-- Only a sign of its own makes the text of a number longer than the numeral of its distance
    from zero has to be. -/
theorem length_le_of_ofBytes? {base : Nat} (hbase : 2 ≤ base) {text : List UInt8} (hne : text ≠ [])
    {value : Int} (hreads : ofBytes? base text = some value) :
    (if value < 0 then 1 else 0) + (codes base value.natAbs).length ≤ text.length := by
  unfold ofBytes? at hreads
  by_cases hminus : text.head? = some minus
  · obtain ⟨tail, rfl⟩ := List.head?_eq_some_iff.mp hminus
    rw [if_pos hminus, List.tail_cons] at hreads
    obtain ⟨n, hn, rfl⟩ := Option.map_eq_some_iff.mp hreads
    rw [Int.natAbs_neg, Int.natAbs_natCast, List.length_cons]
    by_cases hzero : n = 0
    · rw [hzero, codes, if_pos rfl, List.length_singleton, if_neg (by simp)]
      omega
    · have htail : tail.map UInt8.toNat ≠ [] := by
        intro hnil
        rw [hnil] at hn
        exact hzero (Option.some.inj hn).symm
      have hle := length_codes_le hbase htail hn
      rw [List.length_map] at hle
      split <;> omega
  · rw [if_neg hminus] at hreads
    obtain ⟨n, hn, rfl⟩ := Option.map_eq_some_iff.mp hreads
    have hle := length_codes_le hbase (by simpa using hne) hn
    rw [List.length_map] at hle
    rw [Int.natAbs_natCast, if_neg (by omega), Nat.zero_add]
    exact hle

theorem length_ofInt32 (value : Int32) {base : Nat} (hbase : Base base) :
    (ofInt32 value base).length = (if denoted value base < 0 then 1 else 0) +
      (codes base (denoted value base).natAbs).length := by
  rw [ofInt32_of_base value hbase, List.length_append, bytes, List.length_map, denoted_eq]
  by_cases hsign : base = 10 ∧ value < 0
  · have hpositive : magnitude value base ≠ 0 := by
      intro hzero
      rw [magnitude_eq_zero.mp hzero] at hsign
      exact absurd hsign.2 (by decide)
    rw [if_pos hsign, if_pos hsign, if_pos (by omega), Int.natAbs_neg, Int.natAbs_natCast,
      List.length_singleton]
  · rw [if_neg hsign, if_neg hsign, if_neg (by omega), Int.natAbs_natCast, List.length_nil]

/-- The lengths of the texts that are read as a number. -/
def lengths (base : Nat) (value : Int) : Set Nat :=
  {length | ∃ text, text ≠ [] ∧ ofBytes? base text = some value ∧ text.length = length}

/-- The numeral of a word is as short as any text that is read as what it says. -/
theorem Spells.isLeast_length {base : Nat} (hbase : Base base) {value : Int32}
    {text : List UInt8} (hspells : Spells base value text) :
    IsLeast (lengths base (denoted value base)) text.length := by
  have hne : text ≠ [] := by
    obtain ⟨digits, hcanonical, rfl⟩ := hspells.exists_digits
    simp [hcanonical.ne_nil]
  refine ⟨⟨text, hne, hspells.reads, rfl⟩, ?_⟩
  rintro _ ⟨other, hother, hreads, rfl⟩
  rw [(spells_iff hbase).mp hspells, length_ofInt32 value hbase]
  exact length_le_of_ofBytes? hbase.1 hother hreads

theorem Spells.head?_eq_minus_iff {base : Nat} {value : Int32} {text : List UInt8}
    (hspells : Spells base value text) :
    text.head? = some minus ↔ base = 10 ∧ value < 0 := by
  obtain ⟨⟨digits, hcanonical, rfl⟩, -⟩ := hspells
  by_cases hsign : base = 10 ∧ value < 0
  · simp [hsign]
  · simp [hsign, hcanonical.head?_ne_minus]

/-- Two words never share a numeral. -/
theorem Spells.value_eq {base : Nat} {first second : Int32} {text : List UInt8}
    (hfirst : Spells base first text) (hsecond : Spells base second text) : first = second := by
  have hsame := hfirst.reads.symm.trans hsecond.reads
  exact denoted_inj.mp (Option.some.inj hsame)

/-- The text of a word is empty in a base without numerals. In every other base it is the
    word's numeral, which is the only one, whatever the buffer held before; it tells the word,
    and no other word has it. -/
theorem text_convert_spells (buffer : Scratch) (value : Int32) (base : UInt32) :
    ((buffer.convert value base).text = [] ↔ ¬ Base base.toNat) ∧
      (Base base.toNat →
        (∀ text, Spells base.toNat value text ↔ text = (buffer.convert value base).text) ∧
        ((buffer.convert value base).text.head? = some minus ↔ base.toNat = 10 ∧ value < 0) ∧
        ∀ (other : Scratch) (word : Int32),
          (other.convert word base).text = (buffer.convert value base).text → word = value) := by
  have hspells (hbase : Base base.toNat) (scratch : Scratch) (word : Int32) :
      Spells base.toNat word (scratch.convert word base).text := by
    rw [Scratch.text_convert]
    exact (spells_iff hbase).mpr rfl
  refine ⟨⟨fun hnil hbase => ?_, fun hbase => ?_⟩, fun hbase => ⟨fun text => ?_, ?_, ?_⟩⟩
  · obtain ⟨digits, hcanonical, htext⟩ := (hspells hbase buffer value).exists_digits
    rw [hnil] at htext
    exact hcanonical.ne_nil (List.append_eq_nil_iff.mp htext.symm).2
  · rw [Scratch.text_convert, ofInt32, if_neg hbase]
  · rw [Scratch.text_convert]
    exact spells_iff hbase
  · exact (hspells hbase buffer value).head?_eq_minus_iff
  · intro other word hsame
    have hword := hspells hbase other word
    rw [hsame] at hword
    exact hword.value_eq (hspells hbase buffer value)

/-- The least word in base ten, from a buffer that is full of nines. -/
theorem text_convert_spells_least :
    Base (10 : UInt32).toNat ∧
      Spells (10 : UInt32).toNat Int32.minValue (utf8 "-2147483648") ∧
      (Scratch.convert (Vector.replicate 34 57) Int32.minValue 10).text.head? = some minus := by
  have hbase : Base (10 : UInt32).toNat := by decide
  obtain ⟨hspells, hsign, -⟩ :=
    (text_convert_spells (Vector.replicate 34 57) Int32.minValue 10).2 hbase
  refine ⟨hbase, (hspells _).mpr ?_, hsign.mpr ?_⟩
  · decide +kernel
  · decide

end HartRuntime.Numeral
