import HartRuntime.Proofs.Register.Bytes
import HartRuntime.Proofs.Timer.SplitRead

namespace HartRuntime.SplitRead

/-- Where a half lies in a counter. -/
def Half.place : Half → Nat
  | .high => 4
  | .low => 0

/-- The register of one half of the 64-bit counter at an address. -/
def halfRegister (addr : Nat) (access : Access) (half : Half) : Register :=
  ⟨addr + half.place, .word, access⟩

/-- What the registers of the halves hold. -/
def halfValue (memory : Memory) (addr : Nat) (half : Half) : UInt32 :=
  UInt32.ofNat (littleEndian (memory.load (addr + half.place) 4))

theorem toNat_halfValue (memory : Memory) (addr : Nat) (half : Half) :
    (halfValue memory addr half).toNat = littleEndian (memory.load (addr + half.place) 4) := by
  have hbound := littleEndian_lt (memory.load (addr + half.place) 4)
  rw [Memory.length_load] at hbound
  exact UInt32.toNat_ofNat_of_lt' hbound

theorem read?_halfRegister (memory : Memory) (addr : Nat) {access : Access}
    (hreads : access.reads) (half : Half) :
    (halfRegister addr access half).read? memory = some (halfValue memory addr half).toNat := by
  rw [toNat_halfValue]
  exact if_pos hreads

/-- The halves of a counter make up the whole of it. -/
theorem toNat_join_halfValue (memory : Memory) (addr : Nat) :
    (join (halfValue memory addr .high) (halfValue memory addr .low)).toNat =
      littleEndian (memory.load addr 8) := by
  have hhalves : memory.load addr 8 = memory.load addr 4 ++ memory.load (addr + 4) 4 :=
    memory.load_add addr 4 4
  have hweight : 256 ^ 4 = 2 ^ 32 := by norm_num
  rw [toNat_join, toNat_halfValue, toNat_halfValue, Half.place, Half.place, hhalves,
    littleEndian_append, Memory.length_load, hweight, Nat.add_zero addr, Nat.add_comm,
    Nat.mul_comm]

/-- How a split read finds the 64-bit register at an address of a memory through the registers
    of its halves: each load leaves the memory alone, so that the first round is accepted. -/
structure Halved (memory : Memory) (addr : Nat) (part whole : Access) (halves : Half → UInt32)
    (value : UInt64) : Prop where
  loads : memory.accesses (roundLoads.map fun half => (halfRegister addr part half, .read)) =
    roundLoads.map fun half => (some (halves half).toNat, memory)
  whole : (Register.mk addr .double whole).read? memory = some value.toNat
  reading (rounds : Nat) : within (fun _ => halves .high) (fun _ => halves .low) rounds 0 =
    if 0 < rounds then some ⟨value, roundLoads⟩ else none

theorem exists_halved (memory : Memory) (addr : Nat) {part whole : Access} (hpart : part.reads)
    (hwhole : whole.reads) : ∃ halves value, Halved memory addr part whole halves value := by
  refine ⟨halfValue memory addr,
    join (halfValue memory addr .high) (halfValue memory addr .low), ?_, ?_, ?_⟩
  · have hload (half : Half) : (halfRegister addr part half).perform memory .read =
        (some (halfValue memory addr half).toNat, memory) := by
      rw [Register.perform, read?_halfRegister memory addr hpart]
    simp only [roundLoads, List.map_cons, List.map_nil, Memory.accesses, hload]
  · rw [toNat_join_halfValue]
    exact if_pos hwhole
  · intro rounds
    have hread : within (fun _ => halfValue memory addr .high)
        (fun _ => halfValue memory addr .low) rounds 0 = _ :=
      within_eq_of_first (Nat.le_refl 0) rfl (fun i _ hi => absurd hi (Nat.not_lt_zero i)) rounds
    rw [hread, Nat.zero_add]
    rfl

end HartRuntime.SplitRead
