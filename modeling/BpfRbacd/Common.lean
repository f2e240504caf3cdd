import BpfRbacd.Lib.Bits

/-!
# The policy map's types

`bpf-rbacd-common`: the key and value of the eBPF map that the daemon fills and
the LSM programs read, the control flags, and the command numbers. Bitmaps are
`u32` words; `u32Bits` is the set of numbers such a word allows. The crate's
program-type and map-type constants are read by no function and left out.
-/

namespace BpfRbacd

structure PolicyKey where
  usernsId : UInt64
  deriving DecidableEq, Repr

structure PolicyValue where
  allowedCmds : UInt32
  allowedProgTypes : UInt32
  allowedMapTypes : UInt32
  allowedAttachTypes : UInt32
  flags : UInt32
  reserved : Vector UInt32 3
  deriving DecidableEq, Repr

def policyFlagAllowAll : UInt32 := (1 : UInt32) <<< 0
def policyFlagDenyAll : UInt32 := (1 : UInt32) <<< 1

/-- `mod commands`: each constant under its name. -/
def commands : List (String × UInt32) := [
  ("MAP_CREATE", 0),
  ("MAP_LOOKUP_ELEM", 1),
  ("MAP_UPDATE_ELEM", 2),
  ("MAP_DELETE_ELEM", 3),
  ("MAP_GET_NEXT_KEY", 4),
  ("PROG_LOAD", 5),
  ("OBJ_PIN", 6),
  ("OBJ_GET", 7),
  ("PROG_ATTACH", 8),
  ("PROG_DETACH", 9),
  ("PROG_TEST_RUN", 10),
  ("OBJ_GET_INFO_BY_FD", 15),
  ("BTF_LOAD", 18),
  ("LINK_CREATE", 28),
  ("LINK_UPDATE", 29),
  ("TOKEN_CREATE", 33)]

-- ---------------------------------------------------------------------------
-- Words as sets of numbers
-- ---------------------------------------------------------------------------

def u32Bits (x : UInt32) : Set (Fin 32) := Bits.bits x.toBitVec

instance (x : UInt32) (i : Fin 32) : Decidable (i ∈ u32Bits x) :=
  inferInstanceAs (Decidable (i ∈ Bits.bits x.toBitVec))

theorem u32Bits_inj {x y : UInt32} : u32Bits x = u32Bits y ↔ x = y := by
  rw [u32Bits, u32Bits, Bits.bits_inj, UInt32.toBitVec_inj]

@[simp] theorem u32Bits_and (x y : UInt32) : u32Bits (x &&& y) = u32Bits x ∩ u32Bits y := by
  simp [u32Bits]

@[simp] theorem u32Bits_or (x y : UInt32) : u32Bits (x ||| y) = u32Bits x ∪ u32Bits y := by
  simp [u32Bits]

@[simp] theorem u32Bits_not (x : UInt32) : u32Bits (~~~x) = (u32Bits x)ᶜ := by
  simp [u32Bits]

@[simp] theorem u32Bits_zero : u32Bits 0 = ∅ := Bits.bits_zero

@[simp] theorem u32Bits_ones : u32Bits 0xFFFFFFFF = Set.univ := Bits.bits_allOnes

theorem one_shiftLeft_toBitVec {n : UInt32} (h : n < 32) :
    ((1 : UInt32) <<< n).toBitVec = 1#32 <<< n.toNat := by
  have hn : n.toNat < 32 := UInt32.lt_iff_toNat_lt.mp h
  simp [UInt32.toBitVec_shiftLeft, BitVec.shiftLeft_eq', BitVec.toNat_umod, Nat.mod_eq_of_lt hn]

theorem mem_u32Bits_one_shiftLeft {n : UInt32} (h : n < 32) {i : Fin 32} :
    i ∈ u32Bits (1 <<< n) ↔ i.val = n.toNat := by
  rw [u32Bits, one_shiftLeft_toBitVec h, Bits.mem_bits_one_shiftLeft]

theorem and_one_shiftLeft_ne_zero {x n : UInt32} (h : n < 32) :
    x &&& (1 <<< n) ≠ 0 ↔ ∃ i ∈ u32Bits x, i.val = n.toNat := by
  have hlt : n.toNat < 32 := UInt32.lt_iff_toNat_lt.mp h
  have hmask : x &&& (1 <<< n) ≠ 0 ↔ x.toBitVec &&& (1#32 <<< n.toNat) ≠ 0#32 := by
    rw [Ne, Ne, ← UInt32.toBitVec_inj, UInt32.toBitVec_and, one_shiftLeft_toBitVec h]
    rfl
  rw [hmask]
  constructor
  · intro hx
    exact ⟨⟨n.toNat, hlt⟩, (Bits.and_mask_ne_zero ⟨n.toNat, hlt⟩).mp hx, rfl⟩
  · rintro ⟨i, hi, hin⟩
    exact hin ▸ (Bits.and_mask_ne_zero i).mpr hi

/-- `n < 32 && bitmap & (1 << n) != 0`, the test of the three hooks. -/
def inBitmap (bitmap n : UInt32) : Bool := n < 32 && (bitmap &&& (1 <<< n)) != 0

theorem inBitmap_iff {bitmap n : UInt32} :
    inBitmap bitmap n = true ↔ ∃ i ∈ u32Bits bitmap, i.val = n.toNat := by
  simp only [inBitmap, Bool.and_eq_true, decide_eq_true_eq, bne_iff_ne]
  constructor
  · rintro ⟨hn, hb⟩
    exact (and_one_shiftLeft_ne_zero hn).mp hb
  · rintro ⟨i, hi, hin⟩
    have hn : n < 32 := UInt32.lt_iff_toNat_lt.mpr (hin ▸ i.isLt)
    exact ⟨hn, (and_one_shiftLeft_ne_zero hn).mpr ⟨i, hi, hin⟩⟩

theorem inBitmap_mono {x y n : UInt32} (h : u32Bits x ⊆ u32Bits y) :
    inBitmap x n = true → inBitmap y n = true := by
  rw [inBitmap_iff, inBitmap_iff]
  rintro ⟨i, hi, hin⟩
  exact ⟨i, h hi, hin⟩

end BpfRbacd
