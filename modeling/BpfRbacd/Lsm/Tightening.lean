import BpfRbacd.Lsm
import Mathlib.Logic.Relation
import Mathlib.Logic.Function.Basic

/-!
# Tightening a namespace's entry

An entry is tightened by clearing bits, clearing `POLICY_FLAG_ALLOW_ALL` or
setting `POLICY_FLAG_DENY_ALL`, in any number of steps; it is revoked by
removing it. Tightening never widens what the entry permits. Removal is not a
tightening in this sense: the hooks treat a namespace without an entry as not
managed and allow its calls.
-/

namespace BpfRbacd

inductive Tightening : PolicyValue → PolicyValue → Prop
  | clearCmds (policy : PolicyValue) (keep : UInt32) :
      Tightening policy { policy with allowedCmds := policy.allowedCmds &&& keep }
  | clearProgTypes (policy : PolicyValue) (keep : UInt32) :
      Tightening policy { policy with allowedProgTypes := policy.allowedProgTypes &&& keep }
  | clearMapTypes (policy : PolicyValue) (keep : UInt32) :
      Tightening policy { policy with allowedMapTypes := policy.allowedMapTypes &&& keep }
  | clearAttachTypes (policy : PolicyValue) (keep : UInt32) :
      Tightening policy { policy with allowedAttachTypes := policy.allowedAttachTypes &&& keep }
  | clearAllowAll (policy : PolicyValue) :
      Tightening policy { policy with flags := policy.flags &&& ~~~policyFlagAllowAll }
  | setDenyAll (policy : PolicyValue) :
      Tightening policy { policy with flags := policy.flags ||| policyFlagDenyAll }

/-- The entry after any tightening, revocation included. -/
inductive Tightened (policy : PolicyValue) : Option PolicyValue → Prop
  | entry {tighter : PolicyValue} :
      Relation.ReflTransGen Tightening policy tighter → Tightened policy (some tighter)
  | revoked : Tightened policy none

-- ---------------------------------------------------------------------------
-- Flags and bitmaps
-- ---------------------------------------------------------------------------

theorem allowAll_ne_zero {flags : UInt32} :
    flags &&& policyFlagAllowAll ≠ 0 ↔ (0 : Fin 32) ∈ u32Bits flags := by
  refine (and_one_shiftLeft_ne_zero (by decide)).trans ⟨?_, fun h => ⟨0, h, rfl⟩⟩
  rintro ⟨i, hi, hin⟩
  have hi0 : i = 0 := Fin.ext hin
  exact hi0 ▸ hi

theorem denyAll_ne_zero {flags : UInt32} :
    flags &&& policyFlagDenyAll ≠ 0 ↔ (1 : Fin 32) ∈ u32Bits flags := by
  refine (and_one_shiftLeft_ne_zero (by decide)).trans ⟨?_, fun h => ⟨1, h, rfl⟩⟩
  rintro ⟨i, hi, hin⟩
  have hi1 : i = 1 := Fin.ext hin
  exact hi1 ▸ hi

theorem PolicyValue.permits_iff {policy : PolicyValue} {call : Call} :
    policy.Permits call ↔ (1 : Fin 32) ∉ u32Bits policy.flags ∧
      ((0 : Fin 32) ∈ u32Bits policy.flags ∨ call.InBitmaps policy) := by
  rw [PolicyValue.Permits, ← allowAll_ne_zero, ← denyAll_ne_zero, not_not]

theorem Call.InBitmaps.mono {call : Call} {tighter policy : PolicyValue}
    (h : call.InBitmaps tighter)
    (hcmds : u32Bits tighter.allowedCmds ⊆ u32Bits policy.allowedCmds)
    (hprogs : u32Bits tighter.allowedProgTypes ⊆ u32Bits policy.allowedProgTypes)
    (hmaps : u32Bits tighter.allowedMapTypes ⊆ u32Bits policy.allowedMapTypes) :
    call.InBitmaps policy := by
  cases call with
  | bpf cmd => exact inBitmap_mono hcmds h
  | progLoad attr =>
    obtain ⟨progType, hattr, hbit⟩ := h
    exact ⟨progType, hattr, inBitmap_mono hprogs hbit⟩
  | mapCreate attr =>
    obtain ⟨mapType, hattr, hbit⟩ := h
    exact ⟨mapType, hattr, inBitmap_mono hmaps hbit⟩

theorem u32Bits_and_subset (bitmap keep : UInt32) : u32Bits (bitmap &&& keep) ⊆ u32Bits bitmap := by
  rw [u32Bits_and]
  exact Set.inter_subset_left

-- ---------------------------------------------------------------------------
-- Tightening is monotone
-- ---------------------------------------------------------------------------

theorem Tightening.permits (h : Tightening policy tighter) (hp : tighter.Permits call) :
    policy.Permits call := by
  rw [PolicyValue.permits_iff] at hp ⊢
  obtain ⟨hdeny, hallow⟩ := hp
  cases h with
  | clearCmds keep =>
    refine ⟨hdeny, hallow.imp_right fun h => ?_⟩
    exact h.mono (u32Bits_and_subset _ keep) subset_rfl subset_rfl
  | clearProgTypes keep =>
    refine ⟨hdeny, hallow.imp_right fun h => ?_⟩
    exact h.mono subset_rfl (u32Bits_and_subset _ keep) subset_rfl
  | clearMapTypes keep =>
    refine ⟨hdeny, hallow.imp_right fun h => ?_⟩
    exact h.mono subset_rfl subset_rfl (u32Bits_and_subset _ keep)
  | clearAttachTypes keep =>
    exact ⟨hdeny, hallow.imp_right fun h => h.mono subset_rfl subset_rfl subset_rfl⟩
  | clearAllowAll =>
    have hone : (1 : Fin 32) ∉ u32Bits policyFlagAllowAll := by decide
    have hzero : (0 : Fin 32) ∈ u32Bits policyFlagAllowAll := by decide
    simp only [u32Bits_and, u32Bits_not, Set.mem_inter_iff, Set.mem_compl_iff, hone, hzero,
      not_false_eq_true, and_true, not_true_eq_false, and_false, false_or] at hdeny hallow
    exact ⟨hdeny, .inr (hallow.mono subset_rfl subset_rfl subset_rfl)⟩
  | setDenyAll =>
    have hone : (1 : Fin 32) ∈ u32Bits policyFlagDenyAll := by decide
    exact absurd (Set.mem_union_right _ hone) (by simpa using hdeny)

theorem tightening_run_permits (h : Relation.ReflTransGen Tightening policy tighter)
    (hp : tighter.Permits call) : policy.Permits call := by
  induction h with
  | refl => exact hp
  | tail _ hstep ih => exact ih (hstep.permits hp)

/-- Tightening the entry of a namespace keeps every denial; removing it makes
the namespace unmanaged, so that every call is allowed. -/
theorem tightening_keeps_denials (policyMap : PolicyMap) (ns : UInt64) (policy tighter : PolicyValue)
    (call : Call) (hentry : policyMap ⟨ns⟩ = some policy)
    (htight : Relation.ReflTransGen Tightening policy tighter) :
    (call.hook policyMap (.ok ns) ≠ 0 →
      call.hook (Function.update policyMap ⟨ns⟩ (some tighter)) (.ok ns) ≠ 0) ∧
    call.hook (Function.update policyMap ⟨ns⟩ none) (.ok ns) = 0 := by
  constructor
  · rw [Ne, Ne, call.hook_managed hentry, call.hook_managed (Function.update_self ..)]
    exact mt (tightening_run_permits htight)
  · exact call.hook_unmanaged (Function.update_self ..)

/-- One managed namespace, 7, whose entry allows `MAP_CREATE` only. -/
def mapCreateOnly : PolicyValue := ⟨1, 0, 0, 0, 0, #v[0, 0, 0]⟩

def namespaceSeven : PolicyMap := Function.update (fun _ => none) ⟨7⟩ (some mapCreateOnly)

/-- `PROG_LOAD` stays denied there when `POLICY_FLAG_DENY_ALL` is set on top. -/
theorem tightening_keeps_denials_prog_load :
    (Call.bpf 5).hook (Function.update namespaceSeven ⟨7⟩
      (some { mapCreateOnly with flags := mapCreateOnly.flags ||| policyFlagDenyAll })) (.ok 7) ≠ 0 :=
  (tightening_keeps_denials namespaceSeven 7 mapCreateOnly _ (.bpf 5) (Function.update_self ..)
    (.single (.setDenyAll mapCreateOnly))).1 (by decide)

/-- Revocation widens: a command the entry denied is allowed once it is gone. -/
theorem revocation_widens :
    ¬ ∀ (policyMap : PolicyMap) (ns : UInt64) (policy : PolicyValue) (after : Option PolicyValue)
        (call : Call), policyMap ⟨ns⟩ = some policy → Tightened policy after →
      call.hook policyMap (.ok ns) ≠ 0 →
      call.hook (Function.update policyMap ⟨ns⟩ after) (.ok ns) ≠ 0 := by
  intro h
  exact h namespaceSeven 7 mapCreateOnly none (.bpf 5) (Function.update_self ..) .revoked
    (by decide) (by decide)

end BpfRbacd
