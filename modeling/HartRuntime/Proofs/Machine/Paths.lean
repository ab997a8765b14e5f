import HartRuntime.Machine.Call
import HartRuntime.Proofs.Format.Verbatim
import HartRuntime.Proofs.Machine.Output

namespace HartRuntime

open Format (Arg Fallback Front doubled)

variable {n : Nat}

/-- What an answer counts; nothing, if it is no count. -/
def Answer.counted : Answer n → Nat
  | .count value => value.toNat
  | _ => 0

/-- The ways to print a string up to its first NUL, which stands behind `length` bytes. -/
inductive Call.ToNul (bytes : List UInt8) (length : Nat) : List (Call n) → Prop where
  | puts : ToNul bytes length [.puts bytes]
  | text : ToNul bytes length [.printf (utf8 "%s") [.text bytes]]
  | fallback {specifier : UInt8} (h : Fallback specifier) :
      ToNul bytes length [.printf [Format.percent, specifier] [.text bytes]]
  | starred {arg : Arg} (h : arg.pattern.toNat = length) :
      ToNul bytes length [.printf (utf8 "%.*s") [arg, .text bytes]]

/-- The ways to print all of a string, whatever its bytes are. -/
inductive Call.InFull (bytes : List UInt8) : List (Call n) → Prop where
  | write (fd : Int32) : InFull bytes [.write fd bytes]
  | starred {arg : Arg} (h : bytes.length ≤ arg.pattern.toNat) :
      InFull bytes [.printf (utf8 "%.*s") [arg, .text bytes]]
  | digits {length : Nat} (h : bytes.length ≤ length) (hword : length < 2 ^ 32) :
      InFull bytes [.printf ([Format.percent, Format.dot] ++ Numeral.bytes 10 length ++ [115])
        [.text bytes]]
  | characters : InFull bytes (bytes.map .putchar)

namespace Machine

/-- The answers to calls that are made one after the other, and the machine after them. -/
def performAll (m : Machine n) : List (Call n) → List (Answer n) × Machine n
  | [] => ([], m)
  | call :: rest =>
    let (answer, next) := m.perform call
    let (answers, after) := next.performAll rest
    (answer :: answers, after)

/-- Calls that send some bytes to the console, each of them once and in order, and count them. -/
structure Delivers (m : Machine n) (console : Console n) (calls : List (Call n))
    (bytes : List UInt8) : Prop where
  machine : (m.performAll calls).2 = m.emit bytes
  events : (m.performAll calls).2.events = m.events ++ bytes.map (.sent console)
  total : bytes.length < 2 ^ 64 →
    ((m.performAll calls).1.map Answer.counted).sum = bytes.length

variable {m : Machine n} {console : Console n}

theorem events_emit_of_console (hconsole : m.console = some console) (bytes : List UInt8) :
    (m.emit bytes).events = m.events ++ bytes.map (.sent console) := by
  rw [events_emit, hconsole, deliveries]

/-- One call that sends bytes and counts them. -/
theorem delivers_singleton (hconsole : m.console = some console) {call : Call n}
    {bytes : List UInt8} (hcall : m.perform call = (.count (Format.count bytes), m.emit bytes)) :
    Delivers m console [call] bytes := by
  have hall : m.performAll [call] = ([.count (Format.count bytes)], m.emit bytes) := by
    rw [performAll, hcall]
    rfl
  refine ⟨by rw [hall], ?_, fun hshort => ?_⟩
  · rw [hall]
    exact events_emit_of_console hconsole bytes
  · rw [hall, List.map_singleton, List.sum_singleton, Answer.counted, Format.toNat_count hshort]

theorem counted_of_console (hconsole : m.console = some console) (bytes : List UInt8) :
    m.counted bytes = (.count (Format.count bytes), m.emit bytes) := by
  rw [counted, hconsole]
  rfl

theorem delivers_printf (hconsole : m.console = some console) {format bytes : List UInt8}
    {args : List Arg} (houtput : Format.output format args = bytes) :
    Delivers m console [.printf format args] bytes := by
  apply delivers_singleton hconsole
  rw [perform, houtput]
  exact counted_of_console hconsole bytes

theorem performAll_cons (m : Machine n) (call : Call n) (rest : List (Call n)) :
    m.performAll (call :: rest) =
      ((m.perform call).1 :: ((m.perform call).2.performAll rest).1,
        ((m.perform call).2.performAll rest).2) :=
  rfl

/-- Characters are sent one by one. -/
theorem performAll_putchar (hconsole : m.console = some console) (bytes : List UInt8) :
    m.performAll (bytes.map .putchar) = (List.replicate bytes.length (.count 1), m.emit bytes) := by
  induction bytes generalizing m with
  | nil =>
    rw [emit_nil]
    rfl
  | cons byte rest ih =>
    have hfirst : m.perform (.putchar byte) = (.count 1, m.emit [byte]) :=
      counted_of_console hconsole [byte]
    have hnext : (m.emit [byte]).console = some console := by
      rw [console_emit, hconsole]
    have hall : m.emit (byte :: rest) = (m.emit [byte]).emit rest := emit_append [byte] rest m
    rw [List.map_cons, performAll_cons, hfirst, ih hnext, hall, List.length_cons,
      List.replicate_succ]

theorem delivers_putchar (hconsole : m.console = some console) (bytes : List UInt8) :
    Delivers m console (bytes.map .putchar) bytes := by
  have hall := performAll_putchar hconsole bytes
  refine ⟨by rw [hall], ?_, fun _ => ?_⟩
  · rw [hall]
    exact events_emit_of_console hconsole bytes
  · rw [hall, List.map_replicate, List.sum_replicate_nat]
    exact Nat.mul_one _

theorem delivers_of_toNul (hconsole : m.console = some console) {bytes : List UInt8}
    {calls : List (Call n)}
    (hcalls : Call.ToNul bytes (Format.beforeNul bytes).length calls) :
    Delivers m console calls (Format.beforeNul bytes) := by
  cases hcalls with
  | puts => exact delivers_singleton hconsole (counted_of_console hconsole _)
  | text => exact delivers_printf hconsole (Format.output_text bytes)
  | fallback h => exact delivers_printf hconsole (Format.output_fallback h bytes)
  | starred h =>
    apply delivers_printf hconsole
    rw [Format.output_text_fromArg, h]
    exact (List.prefix_iff_eq_take.mp (List.takeWhile_prefix _)).symm

theorem delivers_of_inFull (hconsole : m.console = some console) {bytes : List UInt8}
    {calls : List (Call n)} (hcalls : Call.InFull bytes calls) :
    Delivers m console calls bytes := by
  cases hcalls with
  | write fd => exact delivers_singleton hconsole rfl
  | starred h =>
    apply delivers_printf hconsole
    rw [Format.output_text_fromArg, List.take_of_length_le h]
  | digits h hword =>
    apply delivers_printf hconsole
    rw [Format.output_text_digits hword, List.take_of_length_le h]
  | characters => exact delivers_putchar hconsole bytes

/-- How the ways to print a string agree. Some print what stands before its first NUL and the
    others all of it, and each of them counts what it prints. Without a NUL they all print the
    same, and so do the text itself and a format with the percent signs doubled, whatever the
    arguments are. -/
theorem paths_agree (hconsole : m.console = some console) (bytes : List UInt8) :
    ∃ front, Front bytes front ∧
      (∀ calls, Call.ToNul bytes front.length calls → Delivers m console calls front) ∧
      (∀ calls, Call.InFull bytes calls → Delivers m console calls bytes) ∧
      (∀ text, utf8 text = bytes → (m.performAll [.print text]).2 = m.emit bytes ∧
        (m.performAll [.print text]).2.events = m.events ++ bytes.map (.sent console)) ∧
      (front = bytes ↔ 0 ∉ bytes) ∧
      (0 ∉ bytes → ∀ args, Delivers m console [.printf (doubled bytes) args] bytes) := by
  have hfront := Format.front_beforeNul bytes
  refine ⟨Format.beforeNul bytes, hfront, fun calls hcalls => delivers_of_toNul hconsole hcalls,
    fun calls hcalls => delivers_of_inFull hconsole hcalls, ?_, ?_, ?_⟩
  · rintro text rfl
    exact ⟨rfl, events_emit_of_console hconsole (utf8 text)⟩
  · constructor
    · intro hall
      rw [← hall]
      exact hfront.nul
    · exact fun hnul => Format.beforeNul_eq_self hnul
  · intro hnul args
    exact delivers_printf hconsole (Format.output_doubled hnul args)

/-- Text with a NUL between a letter and a percent sign. -/
theorem paths_agree_cut :
    let m : Machine 1 := (start #v[⟨⟨0, 0⟩, ⟨.byte, 0⟩, 500⟩]).registerConsole (.uart 0)
    let bytes : List UInt8 := [104, 0, 37]
    m.console = some (.uart 0) ∧
      Delivers m (.uart 0) [.printf (utf8 "%q") [.text bytes]] [104] ∧
      Delivers m (.uart 0) [.write (-1) bytes] bytes ∧
      Delivers m (.uart 0) [.printf (utf8 "%.*s") [.int (-1), .text bytes]] bytes ∧
      Delivers m (.uart 0) (bytes.map .putchar) bytes := by
  intro m bytes
  have hconsole : m.console = some (.uart 0) := rfl
  obtain ⟨front, hfront, htoNul, hinFull, -⟩ := paths_agree hconsole bytes
  have hcut : front = [104] := hfront.eq_beforeNul
  subst hcut
  have hfallback : Fallback 113 := by decide
  exact ⟨hconsole, htoNul _ (.fallback hfallback), hinFull _ (.write (-1)),
    hinFull _ (.starred (by decide)), hinFull _ .characters⟩

end Machine

end HartRuntime
