import Mathlib.Data.List.DropRight
import Mathlib.Data.Nat.Bitwise
import HartRuntime.Proofs.Format.Append
import HartRuntime.Proofs.Machine.Output
import HartRuntime.Proofs.Register.History

namespace HartRuntime.Uart

/-- How many bits an output register has. -/
def Width.bits : Width → Nat
  | .byte => 8
  | .word => 32

theorem Width.values_eq (width : Width) : width.values = 2 ^ width.bits := by
  cases width <;> rfl

theorem Width.lt_two_pow_bits (width : Width) (byte : UInt8) : byte.toNat < 2 ^ width.bits := by
  have hbyte := byte.toNat_lt
  cases width with
  | byte => exact hbyte
  | word => exact Nat.lt_trans hbyte (by norm_num [bits])

/-- The output register, at the low end of the cell. Software only writes to it. -/
def Width.register : Width → Register
  | .byte => ⟨0, .byte, .writeOnly⟩
  | .word => ⟨0, .word, .writeOnly⟩

theorem Width.offset_register (width : Width) : width.register.offset = 0 := by
  cases width <;> rfl

theorem Width.covers_register_iff (width : Width) (i j : Nat) (hj : j < 8) :
    width.register.Covers i ↔ 8 * i + j < width.bits := by
  cases width <;> simp only [Register.Covers, register, bits, Size.bytes] <;> omega

/-- A store as an access to the output register. -/
def Store.access (store : Store) : Register × Register.Op :=
  (store.width.register, .write store.value.toNat)

theorem Store.toNat_apply (store : Store) (cell : UInt64) :
    (store.apply cell).toNat =
      2 ^ store.width.bits * (cell.toNat / 2 ^ store.width.bits) + store.value.toNat := by
  have hcell := cell.toNat_lt
  have hvalue := store.value.toNat_lt
  rw [apply, UInt64.toNat_ofNat', Width.values_eq, Nat.mul_comm, Nat.mod_eq_of_lt]
  cases store.width <;> simp only [Width.bits] <;> omega

/-- A store replaces the low bits of a cell and keeps the others. -/
theorem Store.testBit_apply (store : Store) (cell : UInt64) (i : Nat) :
    (store.apply cell).toNat.testBit i =
      if i < store.width.bits then store.value.toNat.testBit i else cell.toNat.testBit i := by
  rw [toNat_apply, Nat.testBit_two_pow_mul_add _ (store.width.lt_two_pow_bits store.value),
    Nat.testBit_div_two_pow]
  split
  · rfl
  · rw [Nat.sub_add_cancel (by omega)]

theorem testBit_ofNat_div (n i j : Nat) (hj : j < 8) :
    (UInt8.ofNat (n / 256 ^ i)).toNat.testBit j = n.testBit (8 * i + j) := by
  have hplace : 256 ^ i = 2 ^ (8 * i) := by rw [Nat.pow_mul]
  rw [UInt8.toNat_ofNat', Nat.testBit_mod_two_pow, hplace, Nat.testBit_div_two_pow, Nat.add_comm]
  simp [hj]

theorem byte_eq_of_testBit_eq {first second : UInt8}
    (h : ∀ j < 8, first.toNat.testBit j = second.toNat.testBit j) : first = second :=
  UInt8.toBitVec_inj.mp (BitVec.eq_of_getLsbD_eq h)

/-- The bytes of a cell after a store are those that a write to the register leaves. -/
theorem Store.perform_access (store : Store) (cell : UInt64) :
    (store.access.1.perform (littleEndianBytes 8 cell.toNat) store.access.2).2 =
      littleEndianBytes 8 (store.apply cell).toNat := by
  have hallowed : store.access.2.Allowed store.access.1 := by
    rw [access]
    cases store.width <;> rfl
  apply List.ext_getElem?
  intro i
  rw [Register.getElem?_perform hallowed, getElem?_littleEndianBytes, getElem?_littleEndianBytes]
  split
  · rw [Option.map_some]
    congr 1
    apply byte_eq_of_testBit_eq
    intro j hj
    rw [testBit_ofNat_div _ _ _ hj, testBit_apply]
    by_cases hcovers : store.width.register.Covers i
    · have hlow := (store.width.covers_register_iff i j hj).mp hcovers
      have hbyte : store.access.2.byteAt? store.access.1 i =
          some (UInt8.ofNat (store.value.toNat / 256 ^ (i - store.width.register.offset))) :=
        if_pos hcovers
      rw [hbyte, Option.getD_some, store.width.offset_register, Nat.sub_zero,
        testBit_ofNat_div _ _ _ hj, if_pos hlow]
    · have hhigh : ¬ 8 * i + j < store.width.bits :=
        fun hlow => hcovers ((store.width.covers_register_iff i j hj).mpr hlow)
      have hnone : store.access.2.byteAt? store.access.1 i = none := if_neg hcovers
      rw [hnone, Option.getD_none, testBit_ofNat_div _ _ _ hj, if_neg hhigh]
  · rfl

/-- The memory of a cell after some stores, each made as one access to the register. -/
theorem after_map_access (stores : List Store) (cell : UInt64) :
    Memory.after (littleEndianBytes 8 cell.toNat) (stores.map Store.access) =
      littleEndianBytes 8 (stores.foldl (fun cell store => store.apply cell) cell).toNat := by
  induction stores generalizing cell with
  | nil => rfl
  | cons store rest ih =>
    rw [List.foldl_cons, ← ih, ← store.perform_access]
    rfl

/-- The value that an operation gives the cell from outside. -/
def Op.cell? : Op → Option UInt64
  | .overwrite cell => some cell
  | _ => none

/-- The value that the cell was last given from outside, if not the initial one. -/
def givenCell (initial : UInt64) (ops : List Op) : UInt64 :=
  (ops.reverse.findSome? Op.cell?).getD initial

/-- The bytes emitted since the cell was last given a value from outside: single ones, those of
    texts, and those that formats print. -/
def emitted (ops : List Op) : List UInt8 :=
  (ops.rtakeWhile fun op => op.cell?.isNone).flatMap fun
    | .writeByte byte => [byte]
    | .putChar byte => [byte]
    | .putText text => utf8 text
    | .printFormat format args => Format.output format args
    | .overwrite _ => []

theorem emitted_concat_of_cell? {op : Op} (h : op.cell? = none) (ops : List Op) :
    emitted (ops ++ [op]) = emitted ops ++ op.bytes := by
  rw [emitted, List.rtakeWhile_concat_pos _ _ _ (by simp [h]), List.flatMap_append,
    List.flatMap_singleton, emitted]
  cases op <;> rfl

/-- What a cell shows after bytes have been emitted: the last one in the bits of the register,
    extended with zeros, and behind them what the cell was given. -/
structure Shows (width : Width) (given : UInt64) (bytes : List UInt8) (cell : UInt64) : Prop where
  untouched : bytes = [] → cell = given
  low (byte : UInt8) : bytes.getLast? = some byte →
    ∀ i < width.bits, cell.toNat.testBit i = byte.toNat.testBit i
  high (i : Nat) : width.bits ≤ i → cell.toNat.testBit i = given.toNat.testBit i

theorem shows_nil (width : Width) (cell : UInt64) : Shows width cell [] cell where
  untouched _ := rfl
  low _ hlast := by cases hlast
  high _ _ := rfl

/-- The bits determine the cell. -/
theorem Shows.toNat_eq {width : Width} {given cell : UInt64} {bytes : List UInt8}
    (h : Shows width given bytes cell) {byte : UInt8} (hlast : bytes.getLast? = some byte) :
    cell.toNat = 2 ^ width.bits * (given.toNat / 2 ^ width.bits) + byte.toNat := by
  apply Nat.eq_of_testBit_eq
  intro i
  rw [Nat.testBit_two_pow_mul_add _ (width.lt_two_pow_bits byte), Nat.testBit_div_two_pow]
  split
  · next hi => exact h.low byte hlast i hi
  · next hi =>
    rw [Nat.sub_add_cancel (Nat.le_of_not_lt hi)]
    exact h.high i (Nat.le_of_not_lt hi)

theorem Shows.apply {given cell : UInt64} {bytes : List UInt8} {width : Width}
    (h : Shows width given bytes cell) (byte : UInt8) :
    Shows width given (bytes ++ [byte]) ((Store.mk width byte).apply cell) where
  untouched hnil := absurd hnil (List.append_ne_nil_of_right_ne_nil _ (List.cons_ne_nil _ _))
  low last hlast i hi := by
    rw [List.getLast?_concat] at hlast
    obtain rfl := Option.some.inj hlast
    rw [Store.testBit_apply, if_pos hi]
  high i hi := by
    rw [Store.testBit_apply, if_neg (Nat.not_lt.mpr hi)]
    exact h.high i hi

theorem Shows.transmit {uart : Uart} {given : UInt64} {bytes : List UInt8}
    (h : Shows uart.width given bytes uart.cell) (more : List UInt8) :
    Shows uart.width given (bytes ++ more) (uart.transmit more).cell := by
  induction more generalizing uart bytes with
  | nil => simpa [Uart.transmit, stores] using h
  | cons byte rest ih =>
    have hnext : Shows (uart.transmit [byte]).width given (bytes ++ [byte])
        (uart.transmit [byte]).cell := h.apply byte
    have hrest := ih hnext
    rw [List.append_assoc, ← transmit_append] at hrest
    exact hrest

/-- The UART that a sequence of operations leaves. -/
def run (uart : Uart) (ops : List Op) : Uart :=
  ops.foldl (fun uart op => (uart.step op).after) uart

theorem run_concat (uart : Uart) (ops : List Op) (op : Op) :
    uart.run (ops ++ [op]) = ((uart.run ops).step op).after := by
  rw [run, List.foldl_append]
  rfl

theorem after_step_of_cell? {op : Op} (h : op.cell? = none) (uart : Uart) :
    (uart.step op).after = uart.transmit op.bytes := by
  cases op with
  | overwrite cell => cases h
  | writeByte | putChar | putText | printFormat => rfl

theorem width_run (uart : Uart) (ops : List Op) : (uart.run ops).width = uart.width := by
  induction ops using List.reverseRecOn with
  | nil => rfl
  | append_singleton ops op ih =>
    rw [run_concat, ← ih]
    cases op <;> rfl

/-- What the cell shows is decided by the last overwrite and the last byte since. -/
theorem shows_run (uart : Uart) (ops : List Op) :
    Shows uart.width (givenCell uart.cell ops) (emitted ops) (uart.run ops).cell := by
  induction ops using List.reverseRecOn with
  | nil => exact shows_nil uart.width uart.cell
  | append_singleton ops op ih =>
    rw [run_concat]
    cases hcell : op.cell? with
    | none =>
      have hgiven : givenCell uart.cell (ops ++ [op]) = givenCell uart.cell ops := by
        simp [givenCell, hcell]
      rw [hgiven, emitted_concat_of_cell? hcell, after_step_of_cell? hcell, ← width_run uart ops]
      rw [← width_run uart ops] at ih
      exact ih.transmit op.bytes
    | some cell =>
      have hgiven : givenCell uart.cell (ops ++ [op]) = cell := by
        simp [givenCell, hcell]
      have hemitted : emitted (ops ++ [op]) = [] := by
        rw [emitted, List.rtakeWhile_concat_neg _ _ _ (by simp [hcell]), List.flatMap_nil]
      have hafter : ((uart.run ops).step op).after.cell = cell := by
        cases op with
        | overwrite given => exact Option.some.inj hcell
        | writeByte | putChar | putText | printFormat => cases hcell
      rw [hgiven, hemitted, hafter]
      exact shows_nil uart.width cell

theorem getElem?_steps (uart : Uart) (ops : List Op) (k : Nat) :
    (uart.steps ops)[k]? = ops[k]?.map (uart.run (ops.take k)).step := by
  induction ops generalizing uart k with
  | nil => rfl
  | cons op rest ih =>
    cases k with
    | zero => rfl
    | succ k =>
      rw [steps, List.getElem?_cons_succ, ih, List.getElem?_cons_succ, List.take_succ_cons]
      rfl

theorem length_steps (uart : Uart) (ops : List Op) : (uart.steps ops).length = ops.length := by
  induction ops generalizing uart with
  | nil => rfl
  | cons op rest ih => rw [steps, List.length_cons, ih, List.length_cons]

/-- The stores of one step: one for each byte that the operation emits, in order, each of them
    an access to the register in the memory of the cell. A format that is printed counts them. -/
structure Stored (uart : Uart) (op : Op) (step : Step) : Prop where
  byte (byte : UInt8) : op = .writeByte byte → step.stores.map Store.value = [byte]
  character (byte : UInt8) : op = .putChar byte → step.stores.map Store.value = [byte]
  text (text : String) : op = .putText text → step.stores.map Store.value = utf8 text
  format (format : List UInt8) (args : List Format.Arg) : op = .printFormat format args →
    step.stores.map Store.value = Format.output format args
  overwrite (cell : UInt64) : op = .overwrite cell → step.stores = []
  width : ∀ store ∈ step.stores, store.width = uart.width
  memory : op.cell? = none →
    Memory.after (littleEndianBytes 8 uart.cell.toNat) (step.stores.map Store.access) =
      littleEndianBytes 8 step.after.cell.toNat
  count (format : List UInt8) (args : List Format.Arg) : op = .printFormat format args →
    ∃ count, step.count = some count ∧
      (step.stores.length < 2 ^ 64 → count.toNat = step.stores.length)

theorem stores_step (uart : Uart) (op : Op) : (uart.step op).stores = uart.stores op.bytes := by
  cases op <;> rfl

theorem values_step (uart : Uart) (op : Op) :
    (uart.step op).stores.map Store.value = op.bytes := by
  rw [stores_step, stores, List.map_map]
  exact List.map_id _

theorem stored_step (uart : Uart) (op : Op) : Stored uart op (uart.step op) where
  byte byte hop := by
    rw [values_step, hop, Op.bytes]
  character byte hop := by
    rw [values_step, hop, Op.bytes]
  text text hop := by
    rw [values_step, hop, Op.bytes]
  format format args hop := by
    rw [values_step, hop, Op.bytes]
  overwrite cell hop := by
    rw [stores_step, hop]
    rfl
  width store hstore := by
    rw [stores_step] at hstore
    obtain ⟨byte, -, rfl⟩ := List.mem_map.mp hstore
    rfl
  memory hcell := by
    rw [after_map_access, stores_step, after_step_of_cell? hcell]
    rfl
  count format args hop := by
    subst hop
    refine ⟨_, rfl, fun hshort => ?_⟩
    have hlength : (uart.step (.printFormat format args)).stores.length =
        (Format.output format args).length := List.length_map _
    rw [hlength] at hshort ⊢
    exact Format.toNat_count hshort

/-- In every sequence of writes to a UART, by whatever path, and of overwrites from outside, each
    byte is one store to the register, and the cell shows the last byte since the last overwrite
    in the bits of the register. The bits above are never changed by a store. -/
theorem shows_steps (uart : Uart) (ops : List Op) :
    (uart.steps ops).length = ops.length ∧
      ∀ k op, ops[k]? = some op → ∃ step, (uart.steps ops)[k]? = some step ∧
        step.after = uart.run (ops.take (k + 1)) ∧
        Stored (uart.run (ops.take k)) op step ∧
        Shows uart.width (givenCell uart.cell (ops.take (k + 1))) (emitted (ops.take (k + 1)))
          step.after.cell := by
  refine ⟨length_steps uart ops, fun k op hk => ?_⟩
  have hstep : (uart.steps ops)[k]? = some ((uart.run (ops.take k)).step op) := by
    rw [getElem?_steps, hk]
    rfl
  have hafter : ((uart.run (ops.take k)).step op).after = uart.run (ops.take (k + 1)) := by
    rw [List.take_add_one, hk, ← run_concat]
    rfl
  refine ⟨_, hstep, hafter, stored_step _ op, ?_⟩
  rw [hafter]
  exact shows_run uart (ops.take (k + 1))

/-- Text, an overwrite, and a number behind it. -/
def overwriting : List Op :=
  [.putText "A", .overwrite 0x1122334455667788, .printFormat (utf8 "%d") [.int (-7)]]

theorem shows_steps_overwriting :
    overwriting[2]? = some (.printFormat (utf8 "%d") [.int (-7)]) ∧
      ∃ step, (Uart.steps ⟨.word, 0xffffffffffffffff⟩ overwriting)[2]? = some step ∧
        step.stores.map Store.value = utf8 "-7" ∧ step.after.cell.toNat = 0x1122334400000037 := by
  have hk : overwriting[2]? = some (.printFormat (utf8 "%d") [.int (-7)]) := rfl
  obtain ⟨-, hsteps⟩ := shows_steps ⟨.word, 0xffffffffffffffff⟩ overwriting
  obtain ⟨step, hstep, -, hstored, hshows⟩ := hsteps 2 _ hk
  have hbytes : Format.output (utf8 "%d") [.int (-7)] = utf8 "-7" := by decide +kernel
  have hlast : (emitted (overwriting.take 3)).getLast? = some 0x37 := by decide +kernel
  exact ⟨hk, step, hstep, (hstored.format _ _ rfl).trans hbytes, hshows.toNat_eq hlast⟩

end HartRuntime.Uart
