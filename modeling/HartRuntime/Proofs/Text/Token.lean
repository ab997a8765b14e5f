import Mathlib.Tactic.IntervalCases
import HartRuntime.Proofs.Numeral.Conversion
import HartRuntime.Text.Quoted
import HartRuntime.Toml.Text

namespace HartRuntime.Text

/-- A token of code: a word, a number with the base it is written in, a text between quotes,
    or a character that stands for itself. -/
inductive Token where
  | word (text : List Char)
  | number (base value : Nat)
  | literal (text : List Char)
  | symbol (c : Char)
  deriving DecidableEq

/-- What the scanner is in the middle of, with what it has read of it. -/
inductive Mode where
  | between
  | slash
  | comment
  | word (front : List Char)
  | zero
  | hexadecimal
  | number (base value : Nat)
  | literal (front : List Char)
  | escape (front : List Char)
  | codePoint (front : List Char)
  | digits (front digits : List Char)
  deriving DecidableEq

/-- The tokens read so far, the latest first, and what is being read. -/
structure Scanner where
  tokens : List Token
  mode : Mode
  deriving DecidableEq

def isWordChar (c : Char) : Bool :=
  c.isAlphanum || c = '_'

/-- A character that belongs to no token begun before it. -/
def Scanner.start (tokens : List Token) (c : Char) : Scanner :=
  if c = ' ' || c = '\n' then ⟨tokens, .between⟩
  else if c = '/' then ⟨tokens, .slash⟩
  else if c = '"' then ⟨tokens, .literal []⟩
  else if c = '0' then ⟨tokens, .zero⟩
  else if c.isDigit then ⟨tokens, .number 10 (c.toNat - 48)⟩
  else if isWordChar c then ⟨tokens, .word [c]⟩
  else ⟨.symbol c :: tokens, .between⟩

/-- One more character of a number, whose digits have no symbols but those of its base. -/
def Scanner.digit? (tokens : List Token) (base value : Nat) (c : Char) : Option Scanner :=
  ((Numeral.digit? c.toNat).filter (· < base)).map fun d =>
    ⟨tokens, .number base (value * base + d)⟩

/-- The character that a letter behind a backslash stands for. -/
def escaped? : Char → Option Char
  | '"' => some '"'
  | '\\' => some '\\'
  | 'n' => some '\n'
  | 'r' => some '\r'
  | 't' => some '\t'
  | '0' => some '\x00'
  | _ => none

/-- Reads one character; none if no code goes on like that. A text ends at the first quote
    that no backslash stands before, and a backslash stands before one letter or before a
    code point of one to six digits in braces. -/
def Scanner.step (scanner : Scanner) (c : Char) : Option Scanner :=
  let tokens := scanner.tokens
  match scanner.mode with
  | .between => some (.start tokens c)
  | .slash =>
    if c = '/' then some ⟨tokens, .comment⟩
    else if c = '*' then none
    else some (.start (.symbol '/' :: tokens) c)
  | .comment => some ⟨tokens, if c = '\n' then .between else .comment⟩
  | .word front =>
    if isWordChar c then some ⟨tokens, .word (front ++ [c])⟩
    else some (.start (.word front :: tokens) c)
  | .zero =>
    if c = 'x' then some ⟨tokens, .hexadecimal⟩
    else if isWordChar c then digit? tokens 10 0 c
    else some (.start (.number 10 0 :: tokens) c)
  | .hexadecimal => digit? tokens 16 0 c
  | .number base value =>
    if isWordChar c then digit? tokens base value c
    else some (.start (.number base value :: tokens) c)
  | .literal front =>
    if c = '"' then some ⟨.literal front :: tokens, .between⟩
    else if c = '\\' then some ⟨tokens, .escape front⟩
    else if c = '\r' then none
    else some ⟨tokens, .literal (front ++ [c])⟩
  | .escape front =>
    if c = 'u' then some ⟨tokens, .codePoint front⟩
    else (escaped? c).map fun e => ⟨tokens, .literal (front ++ [e])⟩
  | .codePoint front => if c = '\x7b' then some ⟨tokens, .digits front []⟩ else none
  | .digits front digits =>
    if c = '\x7d' then
      if 1 ≤ digits.length ∧ digits.length ≤ 6 then
        (Toml.ofCodePoint? digits).map fun e => ⟨tokens, .literal (front ++ [e])⟩
      else none
    else some ⟨tokens, .digits front (digits ++ [c])⟩

def Scanner.run (scanner : Scanner) (cs : List Char) : Option Scanner :=
  cs.foldlM Scanner.step scanner

/-- The tokens at the end of the code, which must not end within one that has an end of its
    own. -/
def Scanner.finish? (scanner : Scanner) : Option (List Token) :=
  match scanner.mode with
  | .between | .comment => some scanner.tokens.reverse
  | .slash => some (Token.symbol '/' :: scanner.tokens).reverse
  | .word front => some (Token.word front :: scanner.tokens).reverse
  | .zero => some (Token.number 10 0 :: scanner.tokens).reverse
  | .number base value => some (Token.number base value :: scanner.tokens).reverse
  | _ => none

/-- The tokens of a text of code. Comments and blanks are none. -/
def tokens? (text : String) : Option (List Token) :=
  ((Scanner.mk [] .between).run text.toList).bind Scanner.finish?

namespace Scanner

theorem run_append (scanner : Scanner) (front rest : List Char) :
    scanner.run (front ++ rest) = (scanner.run front).bind (·.run rest) := by
  simp [run, List.foldlM_append]

theorem run_cons (scanner : Scanner) (c : Char) (rest : List Char) :
    scanner.run (c :: rest) = (scanner.step c).bind (·.run rest) := by
  simp [run]

theorem isWordChar_symbol {digit : Nat} (hdigit : digit < 36) :
    isWordChar (Char.ofNat (Numeral.symbol digit)) := by
  interval_cases digit <;> rfl

theorem digit?_symbol {base digit : Nat} (hbase : base ≤ 36) (hdigit : digit < base)
    (tokens : List Token) (value : Nat) :
    digit? tokens base value (Char.ofNat (Numeral.symbol digit)) =
      some ⟨tokens, .number base (value * base + digit)⟩ := by
  rw [digit?, Numeral.toNat_ofNat_symbol (by omega), Numeral.digit?_symbol (by omega)]
  simp [hdigit]

theorem run_number_symbol {base digit : Nat} (hbase : base ≤ 36) (hdigit : digit < base)
    (tokens : List Token) (value : Nat) :
    (Scanner.mk tokens (.number base value)).run [Char.ofNat (Numeral.symbol digit)] =
      some ⟨tokens, .number base (value * base + digit)⟩ := by
  simp [run, step, isWordChar_symbol (show digit < 36 by omega), digit?_symbol hbase hdigit]

/-- A hexadecimal numeral is read to its end as the number that it spells. -/
theorem run_codes_sixteen (tokens : List Token) (n : Nat) :
    (Scanner.mk tokens .hexadecimal).run ((Numeral.codes 16 n).map Char.ofNat) =
      some ⟨tokens, .number 16 n⟩ := by
  induction n using Nat.strongRecOn with
  | ind n ih =>
    by_cases hsmall : n < 16
    · rw [Numeral.codes_of_lt (by omega) hsmall]
      simp [run, step, digit?_symbol (by omega : 16 ≤ 36) hsmall]
    · rw [Numeral.codes_of_base_le (by omega) (by omega), List.map_append, run_append,
        ih (n / 16) (by omega)]
      refine (run_number_symbol (by omega) (Nat.mod_lt n (by omega)) tokens (n / 16)).trans ?_
      rw [Nat.div_add_mod' n 16]

/-- A decimal numeral is read to its end as the number that it spells. Zero stays open to
    become a hexadecimal numeral. -/
theorem run_codes_ten (tokens : List Token) (n : Nat) :
    (Scanner.mk tokens .between).run ((Numeral.codes 10 n).map Char.ofNat) =
      some ⟨tokens, if n = 0 then .zero else .number 10 n⟩ := by
  induction n using Nat.strongRecOn with
  | ind n ih =>
    by_cases hsmall : n < 10
    · rw [Numeral.codes_of_lt (by omega) hsmall]
      interval_cases n <;> rfl
    · rw [Numeral.codes_of_base_le (by omega) (by omega), List.map_append, run_append,
        ih (n / 10) (by omega), if_neg (by omega), if_neg (by omega)]
      refine (run_number_symbol (by omega) (Nat.mod_lt n (by omega)) tokens (n / 10)).trans ?_
      rw [Nat.div_add_mod' n 10]

theorem hexValue?_concat (front : List Char) {digit : Nat} (hdigit : digit < 16) :
    Toml.hexValue? (front ++ [Char.ofNat (Numeral.symbol digit)]) =
      (Toml.hexValue? front).map (16 * · + digit) := by
  rw [Toml.hexValue?, List.foldlM_append, ← Toml.hexValue?]
  cases Toml.hexValue? front with
  | none => rfl
  | some value => interval_cases digit <;> rfl

theorem hexValue?_codes (n : Nat) :
    Toml.hexValue? ((Numeral.codes 16 n).map Char.ofNat) = some n := by
  induction n using Nat.strongRecOn with
  | ind n ih =>
    by_cases hsmall : n < 16
    · rw [Numeral.codes_of_lt (by omega) hsmall]
      interval_cases n <;> rfl
    · rw [Numeral.codes_of_base_le (by omega) (by omega), List.map_append, List.map_singleton,
        hexValue?_concat _ (Nat.mod_lt n (by omega)), ih (n / 16) (by omega), Option.map_some,
        Nat.div_add_mod]

theorem length_codes_sixteen {n : Nat} (hn : n < 16 ^ 6) :
    1 ≤ (Numeral.codes 16 n).length ∧ (Numeral.codes 16 n).length ≤ 6 := by
  unfold Numeral.codes
  split
  · simp
  · rename_i hpos
    have hnonempty : Numeral.lowDigits 16 n ≠ [] := by
      rw [Numeral.lowDigits, dif_pos ⟨by omega, hpos⟩]
      simp
    rw [List.length_map, List.length_reverse]
    exact ⟨List.length_pos_iff.mpr hnonempty, Numeral.lowDigits_length_le hn⟩

/-- The digits of a code point are read up to the brace behind them. -/
theorem run_digits {tokens : List Token} {front digits : List Char} {cs : List Char}
    (hcs : '\x7d' ∉ cs) :
    (Scanner.mk tokens (.digits front digits)).run cs =
      some ⟨tokens, .digits front (digits ++ cs)⟩ := by
  induction cs generalizing digits with
  | nil => simp [run]
  | cons c cs ih =>
    rw [List.mem_cons, not_or] at hcs
    rw [run_cons]
    simp only [step, if_neg (Ne.symm hcs.1), Option.bind_some]
    rw [ih hcs.2, List.append_assoc, List.singleton_append]

theorem brace_not_mem_codes (n : Nat) : '\x7d' ∉ (Numeral.codes 16 n).map Char.ofNat := by
  rw [List.mem_map]
  rintro ⟨code, hcode, hbrace⟩
  obtain ⟨digit, hdigit, rfl⟩ := Numeral.exists_symbol_of_mem_codes (by omega) hcode
  have hword := isWordChar_symbol (show digit < 36 by omega)
  rw [hbrace] at hword
  exact absurd hword (by decide)

theorem ofCodePoint?_codes (c : Char) :
    Toml.ofCodePoint? ((Numeral.codes 16 c.toNat).map Char.ofNat) = some c := by
  have hvalid : c.toNat.isValidChar := c.valid
  rw [Toml.ofCodePoint?, hexValue?_codes, Option.bind_some, if_pos hvalid, Char.ofNat_toNat]

/-- Between quotes, a character is read back from its written form. -/
theorem run_escape (tokens : List Token) (front : List Char) (c : Char) :
    (Scanner.mk tokens (.literal front)).run (escape c) = some ⟨tokens, .literal (front ++ [c])⟩ := by
  unfold escape
  split_ifs with hquote hslash hfeed hreturn htab hnul hhidden
  · subst hquote; rfl
  · subst hslash; rfl
  · subst hfeed; rfl
  · subst hreturn; rfl
  · subst htab; rfl
  · subst hnul; rfl
  · have hvalid : c.toNat < 0xd800 ∨ (0xdfff < c.toNat ∧ c.toNat < 0x110000) := c.valid
    have hlength := length_codes_sixteen (show c.toNat < 16 ^ 6 by omega)
    have hopen : (Scanner.mk tokens (.literal front)).run ['\\', 'u', '\x7b'] =
        some ⟨tokens, .digits front []⟩ := rfl
    rw [List.append_assoc, run_append, hopen, Option.bind_some, run_append,
      run_digits (brace_not_mem_codes _), Option.bind_some, run_cons]
    simp [step, hlength, ofCodePoint?_codes, run]
  · simp [run, step, hquote, hslash, hreturn]

/-- A text in quotes is one token, which ends with the text. What stands in it cannot end it
    earlier, whatever follows. -/
theorem run_quote (tokens : List Token) (text : String) (rest : List Char) :
    (Scanner.mk tokens .between).run ((quote text).toList ++ rest) =
      (Scanner.mk (.literal text.toList :: tokens) .between).run rest := by
  have hinside : ∀ (cs front : List Char), (Scanner.mk tokens (.literal front)).run
      (cs.flatMap escape ++ '"' :: rest) =
        (Scanner.mk (.literal (front ++ cs) :: tokens) .between).run rest := by
    intro cs
    induction cs with
    | nil =>
      intro front
      simp [run_cons, step]
    | cons c cs ih =>
      intro front
      rw [List.flatMap_cons, List.append_assoc, run_append, run_escape, Option.bind_some, ih,
        List.append_assoc, List.singleton_append]
  rw [quote, String.toList_ofList, List.append_assoc, List.singleton_append, List.cons_append,
    run_cons]
  exact hinside text.toList []

/-- A hexadecimal numeral is one token up to the first character that belongs to no word. -/
theorem run_hexadecimal (tokens : List Token) (n : Nat) {c : Char} (hc : isWordChar c = false)
    (rest : List Char) :
    (Scanner.mk tokens .between).run
        ('0' :: 'x' :: (Numeral.codes 16 n).map Char.ofNat ++ c :: rest) =
      (Scanner.start (.number 16 n :: tokens) c).run rest := by
  have hopen : (Scanner.mk tokens .between).run ['0', 'x'] = some ⟨tokens, .hexadecimal⟩ := rfl
  have hsplit : '0' :: 'x' :: (Numeral.codes 16 n).map Char.ofNat ++ c :: rest =
      ['0', 'x'] ++ ((Numeral.codes 16 n).map Char.ofNat ++ c :: rest) := rfl
  rw [hsplit, run_append, hopen, Option.bind_some, run_append, run_codes_sixteen,
    Option.bind_some, run_cons]
  simp [step, hc]

/-- A decimal numeral is one token up to the first character that belongs to no word. -/
theorem run_decimal (tokens : List Token) (n : Nat) {c : Char} (hc : isWordChar c = false)
    (rest : List Char) :
    (Scanner.mk tokens .between).run ((Numeral.codes 10 n).map Char.ofNat ++ c :: rest) =
      (Scanner.start (.number 10 n :: tokens) c).run rest := by
  rw [run_append, run_codes_ten, Option.bind_some, run_cons]
  by_cases hzero : n = 0
  · have hx : c ≠ 'x' := by
      rintro rfl
      exact absurd hc (by decide)
    simp [step, hzero, hc, hx]
  · simp [step, hzero, hc]

end Scanner

/-- Code that gives these tokens, whatever stands before it and behind it. -/
def Scans (code : List Char) (tokens : List Token) : Prop :=
  ∀ before rest, (Scanner.mk before .between).run (code ++ rest) =
    (Scanner.mk (tokens.reverse ++ before) .between).run rest

theorem Scans.append {front back : List Char} {first second : List Token}
    (hfront : Scans front first) (hback : Scans back second) :
    Scans (front ++ back) (first ++ second) := by
  intro before rest
  rw [List.append_assoc, hfront, hback, List.reverse_append, List.append_assoc]

theorem Scans.tokens? {text : String} {tokens : List Token} (htext : Scans text.toList tokens) :
    tokens? text = some tokens := by
  have hrun := htext [] []
  rw [List.append_nil, List.append_nil] at hrun
  rw [Text.tokens?, hrun]
  simp [Scanner.run, Scanner.finish?]

theorem scans_quote (text : String) : Scans (quote text).toList [.literal text.toList] :=
  fun before rest => Scanner.run_quote before text rest

-- What looks like the end of a text, and of code, stays inside it.
example : tokens? (quote "\";\n\x1b") = some [.literal ['"', ';', '\n', '\x1b']] := by
  decide +kernel

/-- A numeral ends where code goes on that it could not go on with. -/
theorem Scans.numeral {base n : Nat} {digits : List Char} {c : Char} {code : List Char}
    {tokens : List Token} (hcode : Scans (c :: code) tokens)
    (hdigits : ∀ before rest, (Scanner.mk before .between).run (digits ++ c :: rest) =
      (Scanner.start (.number base n :: before) c).run rest) :
    Scans (digits ++ c :: code) (.number base n :: tokens) := by
  intro before rest
  have hrest := hcode (.number base n :: before) rest
  rw [List.cons_append, Scanner.run_cons] at hrest
  rw [List.append_assoc, List.reverse_cons, List.append_assoc, List.singleton_append]
  exact (hdigits before (code ++ rest)).trans hrest

theorem Scans.hexadecimal {c : Char} {code : List Char} {tokens : List Token}
    (hcode : Scans (c :: code) tokens) (hc : isWordChar c = false) (n : Nat) :
    Scans ('0' :: 'x' :: (Numeral.codes 16 n).map Char.ofNat ++ c :: code)
      (.number 16 n :: tokens) :=
  hcode.numeral fun before rest => Scanner.run_hexadecimal before n hc rest

theorem Scans.decimal {c : Char} {code : List Char} {tokens : List Token}
    (hcode : Scans (c :: code) tokens) (hc : isWordChar c = false) (n : Nat) :
    Scans ((Numeral.codes 10 n).map Char.ofNat ++ c :: code) (.number 10 n :: tokens) :=
  hcode.numeral fun before rest => Scanner.run_decimal before n hc rest

end HartRuntime.Text
