import Mathlib.Data.List.Induction
import HartRuntime.Proofs.Register.Halves

namespace HartRuntime

namespace Register

/-- The indices of the bytes of a register. -/
def Covers (register : Register) (i : Nat) : Prop :=
  register.offset ≤ i ∧ i < register.offset + register.size.bytes

instance (register : Register) (i : Nat) : Decidable (register.Covers i) :=
  inferInstanceAs (Decidable (_ ∧ _))

/-- Registers without a byte in common. -/
def Apart (first second : Register) : Prop :=
  ∀ i, first.Covers i → ¬ second.Covers i

/-- Whether a register lets software make an access. -/
def Op.Allowed (register : Register) : Op → Prop
  | .read => register.access.reads
  | .write _ => register.access.writes

/-- The byte that an access puts at an index, if it is a write that covers it. The lowest byte
    of the value comes first. -/
def Op.byteAt? (register : Register) (i : Nat) : Op → Option UInt8
  | .read => none
  | .write value =>
    if register.Covers i then some (UInt8.ofNat (value / 256 ^ (i - register.offset))) else none

variable {register : Register} {op : Op}

theorem getElem?_write (hwrites : register.access.writes) (value : Nat) (memory : Memory) (i : Nat) :
    (register.write value memory)[i]? =
      memory[i]?.map fun old => (Op.byteAt? register i (.write value)).getD old := by
  rw [write, if_pos hwrites, Memory.getElem?_store]
  congr 1
  funext old
  rw [getElem?_littleEndianBytes]
  by_cases hfrom : register.offset ≤ i
  · have hupto : i - register.offset < register.size.bytes ↔
        i < register.offset + register.size.bytes := by omega
    simp only [Op.byteAt?, Covers, hfrom, hupto, true_and, if_true]
  · simp only [Op.byteAt?, Covers, hfrom, false_and, if_false, Option.getD_none]

/-- An access changes the bytes that it writes, and no others. -/
theorem getElem?_perform (hallowed : op.Allowed register) (memory : Memory) (i : Nat) :
    (register.perform memory op).2[i]? =
      memory[i]?.map fun old => (op.byteAt? register i).getD old := by
  cases op with
  | read => simp [perform, Op.byteAt?]
  | write value => exact getElem?_write hallowed value memory i

/-- What a register lets software do makes no difference to what it does let it do. -/
theorem perform_eq_of_allowed {other : Register} (hoffset : other.offset = register.offset)
    (hsize : other.size = register.size) (hallowed : op.Allowed register)
    (hother : op.Allowed other) (memory : Memory) :
    other.perform memory op = register.perform memory op := by
  cases op with
  | read =>
    simp only [Op.Allowed] at hallowed hother
    simp only [perform, read?, hallowed, hother, hoffset, hsize, if_true]
  | write value =>
    simp only [Op.Allowed] at hallowed hother
    simp only [perform, write, hallowed, hother, hoffset, hsize, if_true]

/-- Writes to registers without a byte in common can be made in either order. -/
theorem write_comm {first second : Register} (hfirst : first.access.writes)
    (hsecond : second.access.writes) (hapart : first.Apart second) (value other : Nat)
    (memory : Memory) :
    second.write other (first.write value memory) = first.write value (second.write other memory) := by
  apply List.ext_getElem?
  intro i
  rw [getElem?_write hsecond, getElem?_write hfirst, getElem?_write hfirst, getElem?_write hsecond,
    Option.map_map, Option.map_map]
  congr 1
  funext old
  by_cases hcovers : first.Covers i
  · have hother : ¬ second.Covers i := hapart i hcovers
    simp [Op.byteAt?, hcovers, hother]
  · simp [Op.byteAt?, hcovers]

/-- The same access made through registers that may differ in what they let software do. -/
structure Retyped (first second : Register × Op) : Prop where
  offset : second.1.offset = first.1.offset
  size : second.1.size = first.1.size
  op : second.2 = first.2

/-- An access that its register allows and that stays inside a memory of some length. -/
structure Lawful (length : Nat) (access : Register × Op) : Prop where
  allowed : access.2.Allowed access.1
  inside : access.1.offset + access.1.size.bytes ≤ length

end Register

namespace Memory

/-- The memory that a sequence of accesses leaves. -/
def after (memory : Memory) (accesses : List (Register × Register.Op)) : Memory :=
  accesses.foldl (fun memory access => (access.1.perform memory access.2).2) memory

theorem after_append (memory : Memory) (first second : List (Register × Register.Op)) :
    memory.after (first ++ second) = (memory.after first).after second :=
  List.foldl_append

/-- The byte that was last written at an index. -/
def writtenAt? (accesses : List (Register × Register.Op)) (i : Nat) : Option UInt8 :=
  accesses.reverse.findSome? fun access => access.2.byteAt? access.1 i

/-- The byte that an index holds after some accesses: the one that was last written there, and
    the initial one before that. -/
def held (memory : Memory) (accesses : List (Register × Register.Op)) (i : Nat) : UInt8 :=
  (writtenAt? accesses i).getD (memory.getD i 0)

theorem writtenAt?_concat (past : List (Register × Register.Op)) (access : Register × Register.Op)
    (i : Nat) : writtenAt? (past ++ [access]) i =
      (access.2.byteAt? access.1 i).or (writtenAt? past i) := by
  rw [writtenAt?, List.reverse_concat, List.findSome?_cons, writtenAt?]
  cases access.2.byteAt? access.1 i <;> rfl

variable {memory : Memory} {accesses : List (Register × Register.Op)}

theorem getElem?_after (hallowed : ∀ access ∈ accesses, access.2.Allowed access.1) (i : Nat) :
    (memory.after accesses)[i]? =
      memory[i]?.map fun initial => (writtenAt? accesses i).getD initial := by
  induction accesses using List.reverseRecOn with
  | nil => simp [after, writtenAt?]
  | append_singleton past access ih =>
    obtain ⟨hpast, hlast⟩ := List.forall_mem_append.mp hallowed
    have hstep := Register.getElem?_perform (hlast access (List.mem_singleton_self _))
      (memory.after past) i
    rw [after_append]
    refine hstep.trans ?_
    rw [ih hpast, Option.map_map, writtenAt?_concat]
    congr 1
    funext initial
    cases access.2.byteAt? access.1 i <;> rfl

/-- A byte of a memory is the one last written there, by whatever access. -/
theorem getD_after (hallowed : ∀ access ∈ accesses, access.2.Allowed access.1) {i : Nat}
    (hi : i < memory.length) : (memory.after accesses).getD i 0 = memory.held accesses i := by
  rw [List.getD_eq_getElem?_getD, getElem?_after hallowed, held, List.getD_eq_getElem?_getD,
    List.getElem?_eq_getElem hi]
  rfl

/-- What is read is the little-endian number of the bytes that were last written. -/
theorem read?_after (hallowed : ∀ access ∈ accesses, access.2.Allowed access.1)
    {register : Register} (hread : Register.Lawful memory.length (register, .read)) :
    register.read? (memory.after accesses) = some
      (∑ i ∈ Finset.range register.size.bytes,
        (memory.held accesses (register.offset + i)).toNat * 256 ^ i) := by
  have hreads : register.access.reads := hread.allowed
  have hinside : register.offset + register.size.bytes ≤ memory.length := hread.inside
  rw [Register.read?, if_pos hreads, littleEndian_load]
  congr 1
  apply Finset.sum_congr rfl
  intro i hi
  have hlt : i < register.size.bytes := Finset.mem_range.mp hi
  rw [getD_after hallowed (by omega)]

theorem accesses_cons (memory : Memory) (access : Register × Register.Op)
    (rest : List (Register × Register.Op)) :
    memory.accesses (access :: rest) =
      access.1.perform memory access.2 ::
        Memory.accesses (access.1.perform memory access.2).2 rest :=
  rfl

theorem length_accesses (memory : Memory) (accesses : List (Register × Register.Op)) :
    (memory.accesses accesses).length = accesses.length := by
  induction accesses generalizing memory with
  | nil => rfl
  | cons access rest ih => rw [accesses_cons, List.length_cons, ih, List.length_cons]

theorem accesses_append (memory : Memory) (first second : List (Register × Register.Op)) :
    memory.accesses (first ++ second) =
      memory.accesses first ++ (memory.after first).accesses second := by
  induction first generalizing memory with
  | nil => rfl
  | cons access rest ih =>
    rw [List.cons_append, accesses_cons, ih]
    rfl

/-- Each access of a sequence is made in the memory that those before it leave. -/
theorem getElem?_accesses (memory : Memory) (accesses : List (Register × Register.Op)) (k : Nat) :
    (memory.accesses accesses)[k]? =
      accesses[k]?.map fun access => access.1.perform (memory.after (accesses.take k)) access.2 := by
  induction accesses generalizing memory k with
  | nil => rfl
  | cons access rest ih =>
    cases k with
    | zero => rfl
    | succ k =>
      rw [accesses_cons, List.getElem?_cons_succ, ih, List.getElem?_cons_succ, List.take_succ_cons]
      rfl

theorem accesses_eq_of_retyped {others : List (Register × Register.Op)}
    (hretyped : List.Forall₂ Register.Retyped accesses others)
    (hallowed : ∀ access ∈ accesses, access.2.Allowed access.1)
    (hothers : ∀ access ∈ others, access.2.Allowed access.1) (memory : Memory) :
    memory.accesses others = memory.accesses accesses := by
  induction hretyped generalizing memory with
  | nil => rfl
  | @cons access other rest others hsame _ ih =>
    obtain ⟨haccess, hrest⟩ := List.forall_mem_cons.mp hallowed
    obtain ⟨hother, hothers⟩ := List.forall_mem_cons.mp hothers
    rw [hsame.op] at hother
    have hstep : other.1.perform memory other.2 = access.1.perform memory access.2 := by
      rw [hsame.op]
      exact Register.perform_eq_of_allowed hsame.offset hsame.size haccess hother memory
    rw [accesses_cons, accesses_cons, hstep, ih hrest hothers]

/-- What a sequence of accesses to a memory comes to. The accesses before the number `k` leave
    the memory `memory.after (accesses.take k)`. -/
structure Accessed (memory : Memory) (accesses : List (Register × Register.Op)) : Prop where
  result (k : Nat) : (memory.accesses accesses)[k]? =
    accesses[k]?.map fun access => access.1.perform (memory.after (accesses.take k)) access.2
  byte (k i : Nat) : (memory.after (accesses.take k))[i]? =
    memory[i]?.map fun initial => (writtenAt? (accesses.take k) i).getD initial
  read (k : Nat) (register : Register) : accesses[k]? = some (register, .read) →
    register.perform (memory.after (accesses.take k)) .read =
      (some (∑ i ∈ Finset.range register.size.bytes,
        (memory.held (accesses.take k) (register.offset + i)).toNat * 256 ^ i),
        memory.after (accesses.take k))
  write (k : Nat) (register : Register) (value : Nat) :
    accesses[k]? = some (register, .write value) → ∀ i, ¬ register.Covers i →
      (register.perform (memory.after (accesses.take k)) (.write value)).2[i]? =
        (memory.after (accesses.take k))[i]?
  retyped (others : List (Register × Register.Op)) :
    List.Forall₂ Register.Retyped accesses others →
      (∀ access ∈ others, access.2.Allowed access.1) →
        memory.accesses others = memory.accesses accesses
  swapped (past rest : List (Register × Register.Op)) (first second : Register)
    (value other : Nat) :
    accesses = past ++ (first, .write value) :: (second, .write other) :: rest →
      first.Apart second →
        let others := past ++ (second, .write other) :: (first, .write value) :: rest
        (memory.accesses others).take past.length =
            (memory.accesses accesses).take past.length ∧
          (memory.accesses others).drop (past.length + 1) =
            (memory.accesses accesses).drop (past.length + 1)

/-- The results of two accesses that leave the same memory in either order, and of all accesses
    behind them. -/
theorem drop_accesses_swap {past rest : List (Register × Register.Op)}
    {first second : Register × Register.Op}
    (hswap : ∀ memory : Memory, second.1.perform (first.1.perform memory first.2).2 second.2 =
      first.1.perform (second.1.perform memory second.2).2 first.2) (memory : Memory) :
    (memory.accesses (past ++ second :: first :: rest)).drop (past.length + 1) =
      (memory.accesses (past ++ first :: second :: rest)).drop (past.length + 1) := by
  have hlength := length_accesses memory past
  rw [accesses_append, accesses_append, ← hlength, List.drop_length_add_append,
    List.drop_length_add_append]
  simp only [accesses_cons, List.drop_one, List.tail_cons, hswap]

/-- In every sequence of accesses that the registers allow, aligned or not, each byte is the one
    last written there, whatever the widths of the writes. What a register lets software do
    besides makes no difference, nor does the order of two writes without a byte in common. A
    split read of two halves of any memory finds the whole. -/
theorem accessed_of_lawful (memory : Memory) {accesses : List (Register × Register.Op)}
    (hlawful : ∀ access ∈ accesses, Register.Lawful memory.length access) :
    Accessed memory accesses ∧
      ∀ addr part whole, Access.reads part → Access.reads whole →
        ∃ halves value, SplitRead.Halved memory addr part whole halves value := by
  have hallowed : ∀ access ∈ accesses, access.2.Allowed access.1 :=
    fun access haccess => (hlawful access haccess).allowed
  have hpast (k : Nat) : ∀ access ∈ accesses.take k, access.2.Allowed access.1 :=
    fun access haccess => hallowed access (List.mem_of_mem_take haccess)
  refine ⟨?_, fun addr part whole hpart hwhole => SplitRead.exists_halved memory addr hpart hwhole⟩
  refine
    { result := getElem?_accesses memory accesses
      byte := fun k i => getElem?_after (hpast k) i
      read := ?read
      write := ?write
      retyped := fun others hretyped hothers =>
        accesses_eq_of_retyped hretyped hallowed hothers memory
      swapped := ?swapped }
  case read =>
    intro k register hk
    have hread := read?_after (hpast k) (hlawful _ (List.mem_of_getElem? hk))
    rw [Register.perform, hread]
  case write =>
    intro k register value hk i hcovers
    rw [Register.getElem?_perform (hallowed _ (List.mem_of_getElem? hk))]
    simp [Register.Op.byteAt?, hcovers]
  case swapped =>
    intro past rest first second value other haccesses hapart others
    subst haccesses
    have hfirst : first.access.writes := hallowed (first, .write value) (by simp)
    have hsecond : second.access.writes := hallowed (second, .write other) (by simp)
    constructor
    · have hlength := length_accesses memory past
      rw [accesses_append, accesses_append, ← hlength, List.take_left, List.take_left]
    · apply drop_accesses_swap
      intro memory
      rw [Register.perform, Register.perform, Register.perform, Register.perform,
        Register.write_comm hfirst hsecond hapart]

/-- Two writes of different widths to the same place, and a read of some bytes of each. -/
def overlapping : List (Register × Register.Op) :=
  [(⟨8, .double, .writeOnly⟩, .write 0x1122334455667788), (⟨10, .byte, .readWrite⟩, .write 0xaa),
    (⟨8, .word, .readOnly⟩, .read)]

theorem accessed_of_lawful_overlapping :
    let memory : Memory := List.replicate 32 0xff
    (∀ access ∈ overlapping, Register.Lawful memory.length access) ∧
      (memory.accesses overlapping)[2]? =
        some (some 0x55aa7788, memory.after (overlapping.take 2)) := by
  intro memory
  have hlawful : ∀ access ∈ overlapping, Register.Lawful memory.length access := by
    intro access haccess
    simp only [overlapping, List.mem_cons, List.not_mem_nil, or_false] at haccess
    rcases haccess with rfl | rfl | rfl <;> exact ⟨rfl, by decide⟩
  obtain ⟨haccessed, -⟩ := accessed_of_lawful memory hlawful
  have hread := haccessed.read 2 ⟨8, .word, .readOnly⟩ rfl
  have hvalue : ∑ i ∈ Finset.range Size.word.bytes,
      (memory.held (overlapping.take 2) (8 + i)).toNat * 256 ^ i = 0x55aa7788 := by decide +kernel
  rw [hvalue] at hread
  refine ⟨hlawful, (haccessed.result 2).trans ?_⟩
  exact congrArg some hread

end Memory

end HartRuntime
