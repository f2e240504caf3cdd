import BpfRbacd.Lsm.Refinement
import BpfRbacd.Lsm.Tightening

/-!
# What an entry is worth

Entries of the policy map by the calls they permit. `access_le_iff` compares
two entries: which permits no more than the other is decided by the two flags
and the three bitmaps, and by nothing else in them. `PolicyValue.empty` is at
the bottom of this order. `PolicyValue.allowAll` is not at its top: a call
whose number is 32 or more is denied under it, and so is a null attribute.

The resolver in the source is a stub, so as it stands every task is judged by
one entry (`stub_decides`).
-/

namespace BpfRbacd

def PolicyValue.empty : PolicyValue := ⟨0, 0, 0, 0, 0, .replicate 3 0⟩

def PolicyValue.allowAll : PolicyValue :=
  ⟨0xFFFFFFFF, 0xFFFFFFFF, 0xFFFFFFFF, 0xFFFFFFFF, 0, .replicate 3 0⟩

variable {entry other : PolicyValue}

/-- `POLICY_FLAG_ALLOW_ALL` without `POLICY_FLAG_DENY_ALL`. -/
def PolicyValue.Unrestricted (entry : PolicyValue) : Prop :=
  (1 : Fin 32) ∉ u32Bits entry.flags ∧ (0 : Fin 32) ∈ u32Bits entry.flags

/-- Denied by the flag, or nothing is listed. -/
def PolicyValue.Closed (entry : PolicyValue) : Prop :=
  (1 : Fin 32) ∈ u32Bits entry.flags ∨
    (0 : Fin 32) ∉ u32Bits entry.flags ∧ entry.allowedCmds = 0 ∧ entry.allowedProgTypes = 0 ∧
      entry.allowedMapTypes = 0

structure PolicyValue.BitmapsLe (entry other : PolicyValue) : Prop where
  cmds : u32Bits entry.allowedCmds ⊆ u32Bits other.allowedCmds
  progTypes : u32Bits entry.allowedProgTypes ⊆ u32Bits other.allowedProgTypes
  mapTypes : u32Bits entry.allowedMapTypes ⊆ u32Bits other.allowedMapTypes

-- ---------------------------------------------------------------------------
-- Bitmaps by the calls in them
-- ---------------------------------------------------------------------------

theorem inBitmap_subset {x y : UInt32} :
    (∀ n, inBitmap x n = true → inBitmap y n = true) ↔ u32Bits x ⊆ u32Bits y := by
  constructor
  · intro h i hi
    have hn : (UInt32.ofNat i.val).toNat = i.val := by
      apply Nat.mod_eq_of_lt
      omega
    obtain ⟨j, hj, hji⟩ := inBitmap_iff.mp (h (.ofNat i.val) (inBitmap_iff.mpr ⟨i, hi, hn.symm⟩))
    obtain rfl : j = i := Fin.ext (hji.trans hn)
    exact hj
  · intro h n
    exact inBitmap_mono h

theorem bitmapsLe_iff :
    (∀ call : Call, call.InBitmaps entry → call.InBitmaps other) ↔ entry.BitmapsLe other := by
  constructor
  · intro h
    refine ⟨inBitmap_subset.mp fun n hn => ?_, inBitmap_subset.mp fun n hn => ?_,
      inBitmap_subset.mp fun n hn => ?_⟩
    · simpa [Call.InBitmaps] using h (.bpf n.toInt32) (by simpa [Call.InBitmaps] using hn)
    · simpa [Call.InBitmaps] using h (.progLoad (some n)) (by simpa [Call.InBitmaps] using hn)
    · simpa [Call.InBitmaps] using h (.mapCreate (some n)) (by simpa [Call.InBitmaps] using hn)
  · intro h call hcall
    exact hcall.mono h.cmds h.progTypes h.mapTypes

/-- The call no bitmap has: a program load with a null attribute. -/
theorem null_attr_unlisted : ¬ (Call.progLoad none).InBitmaps entry := by
  rintro ⟨_, hnone, -⟩
  cases hnone

theorem u32Bits_subset_empty {x : UInt32} : u32Bits x ⊆ u32Bits 0 ↔ x = 0 := by
  rw [u32Bits_zero, Set.subset_empty_iff, ← u32Bits_zero, u32Bits_inj]

theorem bitmapsLe_empty : entry.BitmapsLe .empty ↔
    entry.allowedCmds = 0 ∧ entry.allowedProgTypes = 0 ∧ entry.allowedMapTypes = 0 := by
  constructor
  · rintro ⟨hcmds, hprogs, hmaps⟩
    exact ⟨u32Bits_subset_empty.mp hcmds, u32Bits_subset_empty.mp hprogs, u32Bits_subset_empty.mp hmaps⟩
  · rintro ⟨hcmds, hprogs, hmaps⟩
    exact ⟨u32Bits_subset_empty.mpr hcmds, u32Bits_subset_empty.mpr hprogs, u32Bits_subset_empty.mpr hmaps⟩

theorem empty_unlisted (call : Call) : ¬ call.InBitmaps .empty := by
  cases call <;> simp [Call.InBitmaps, PolicyValue.empty, inBitmap]

theorem bitmaps_empty_iff : (∀ call : Call, ¬ call.InBitmaps entry) ↔
    entry.allowedCmds = 0 ∧ entry.allowedProgTypes = 0 ∧ entry.allowedMapTypes = 0 := by
  rw [← bitmapsLe_empty, ← bitmapsLe_iff]
  simp [empty_unlisted]

-- ---------------------------------------------------------------------------
-- The order
-- ---------------------------------------------------------------------------

theorem closed_iff : entry.Closed ↔ ∀ call, ¬ entry.Permits call := by
  simp only [PolicyValue.Closed, PolicyValue.permits_iff, ← bitmaps_empty_iff]
  by_cases hdeny : (1 : Fin 32) ∈ u32Bits entry.flags
  · simp [hdeny]
  · by_cases hallow : (0 : Fin 32) ∈ u32Bits entry.flags
    · simp only [hdeny, hallow, not_true_eq_false, false_and, or_false, true_or, not_false_eq_true, and_true]
      exact iff_of_false id fun h => h (.bpf 0)
    · simp [hdeny, hallow]

theorem unrestricted_iff : entry.Unrestricted ↔ ∀ call, entry.Permits call := by
  simp only [PolicyValue.Unrestricted, PolicyValue.permits_iff]
  constructor
  · rintro ⟨hdeny, hallow⟩ call
    exact ⟨hdeny, .inl hallow⟩
  · intro h
    obtain ⟨hdeny, hallow⟩ := h (.progLoad none)
    exact ⟨hdeny, hallow.resolve_right null_attr_unlisted⟩

/-- Which of two entries permits no more than the other. -/
theorem access_le_iff (entry other : PolicyValue) :
    (∀ call, entry.Permits call → other.Permits call) ↔
      entry.Closed ∨ other.Unrestricted ∨
        (0 : Fin 32) ∉ u32Bits entry.flags ∧ (1 : Fin 32) ∉ u32Bits other.flags ∧ entry.BitmapsLe other := by
  constructor
  · intro h
    by_cases hclosed : entry.Closed
    · exact .inl hclosed
    by_cases hopen : other.Unrestricted
    · exact .inr (.inl hopen)
    have hdeny : (1 : Fin 32) ∉ u32Bits entry.flags := fun hin => hclosed (.inl hin)
    obtain ⟨call, hcall⟩ : ∃ call, entry.Permits call := by simpa [closed_iff] using hclosed
    have hother : (1 : Fin 32) ∉ u32Bits other.flags := (PolicyValue.permits_iff.mp (h call hcall)).1
    have hlisted : ∀ call, entry.Permits call → call.InBitmaps other := by
      intro call hcall
      exact (PolicyValue.permits_iff.mp (h call hcall)).2.resolve_left fun hin => hopen ⟨hother, hin⟩
    refine .inr (.inr ⟨fun hallow => ?_, hother, bitmapsLe_iff.mp fun call hcall => ?_⟩)
    · -- with the flag the entry would permit what no bitmap lists
      exact null_attr_unlisted (hlisted (.progLoad none) (PolicyValue.permits_iff.mpr ⟨hdeny, .inl hallow⟩))
    · exact hlisted call (PolicyValue.permits_iff.mpr ⟨hdeny, .inr hcall⟩)
  · rintro (hclosed | hopen | ⟨hallow, hother, hle⟩) call hcall
    · exact absurd hcall (closed_iff.mp hclosed call)
    · exact unrestricted_iff.mp hopen call
    · have hin := (PolicyValue.permits_iff.mp hcall).2.resolve_left hallow
      exact PolicyValue.permits_iff.mpr ⟨hother, .inr (bitmapsLe_iff.mpr hle call hin)⟩

/-- The number a call is looked up by. -/
def Call.number : Call → Option UInt32
  | .bpf cmd => some cmd.toUInt32
  | .progLoad attr | .mapCreate attr => attr

theorem inBitmap_ones {n : UInt32} : inBitmap 0xFFFFFFFF n = true ↔ n < 32 := by
  rw [inBitmap_iff]
  constructor
  · rintro ⟨i, -, hi⟩
    rw [UInt32.lt_iff_toNat_lt, ← hi]
    exact i.isLt
  · intro h
    exact ⟨⟨n.toNat, UInt32.lt_iff_toNat_lt.mp h⟩, by simp, rfl⟩

theorem allowAll_permits_iff (call : Call) :
    PolicyValue.allowAll.Permits call ↔ ∃ n ∈ call.number, n < 32 := by
  rw [PolicyValue.permits_of_flags_zero rfl]
  cases call <;> simp [Call.InBitmaps, PolicyValue.allowAll, Call.number, inBitmap_ones]

-- ---------------------------------------------------------------------------
-- The hooks as they stand
-- ---------------------------------------------------------------------------

/-- With the resolver of the source only the entry under key 0 counts, whoever
calls, and all is let through but for what that entry denies. -/
theorem stub_decides (policyMap other : PolicyMap) :
    ((∀ call : Call, call.hook policyMap getCurrentUsernsId = 0) ↔
      ∀ entry ∈ policyMap ⟨0⟩, entry.Unrestricted) ∧
    (policyMap ⟨0⟩ = other ⟨0⟩ → ∀ call : Call,
      call.hook policyMap getCurrentUsernsId = 0 ↔ call.hook other getCurrentUsernsId = 0) := by
  constructor
  · cases hentry : policyMap ⟨0⟩ with
    | none => exact iff_of_true (fun call => call.hook_unmanaged hentry) (by simp)
    | some entry =>
      have hhook : ∀ call : Call, call.hook policyMap getCurrentUsernsId = 0 ↔ entry.Permits call :=
        fun call => call.hook_managed hentry
      simp [hhook, unrestricted_iff]
  · intro hsame call
    cases hentry : policyMap ⟨0⟩ with
    | none =>
      have hother : other ⟨0⟩ = none := hsame.symm.trans hentry
      exact iff_of_true (call.hook_unmanaged hentry) (call.hook_unmanaged hother)
    | some entry =>
      have hother : other ⟨0⟩ = some entry := hsame.symm.trans hentry
      exact (call.hook_managed hentry).trans (call.hook_managed hother).symm

/-- What the entry of namespace 7 denies, the hooks let its tasks do. -/
theorem namespace_seven_unenforced : ¬ mapCreateOnly.Permits (.bpf 5) ∧
    (Call.bpf 5).hook namespaceSeven getCurrentUsernsId = 0 := by
  have hunmanaged : ∀ entry ∈ namespaceSeven ⟨0⟩, entry.Unrestricted := by
    simp [namespaceSeven, Function.update]
  refine ⟨?_, (stub_decides namespaceSeven (fun _ => none)).1.mpr hunmanaged (.bpf 5)⟩
  rw [PolicyValue.permits_of_flags_zero rfl]
  show ¬ inBitmap 1 5 = true
  decide

end BpfRbacd
