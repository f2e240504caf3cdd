import BpfRbacd.Common

/-!
# The LSM hooks

`bpf-rbacd-ebpf/src/main.rs`: the three programs repeat one decision sequence by
hand and differ in the check they end with, so each is `enforce` at its own
check. Hook arguments are taken from the context: `kernel`, the command, and
the attribute pointer, `none` when null and otherwise the word it points to.

The resolver is a parameter. The source's own, `getCurrentUsernsId`, is a stub
that names namespace 0 for every task.
-/

namespace BpfRbacd

/-- `POLICY_MAP` as a lookup sees it. -/
abbrev PolicyMap := PolicyKey → Option PolicyValue

def getCurrentUsernsId : Except Int64 UInt64 := .ok 0

/-- The sequence of the three hooks up to their last check. -/
def enforce (policyMap : PolicyMap) (resolver : Except Int64 UInt64) (kernel : UInt32)
    (check : PolicyValue → Int32) : Except Int64 Int32 := do
  if kernel != 0 then return 0
  let usernsId ← resolver
  match policyMap ⟨usernsId⟩ with
  | none => return 0 -- not a managed namespace
  | some policy =>
    if policy.flags &&& policyFlagDenyAll != 0 then return -1
    if policy.flags &&& policyFlagAllowAll != 0 then return 0
    return check policy

def tryBpfRbacBpf (policyMap : PolicyMap) (resolver : Except Int64 UInt64) (cmd : Int32)
    (kernel : UInt32) : Except Int64 Int32 :=
  enforce policyMap resolver kernel fun policy =>
    if inBitmap policy.allowedCmds cmd.toUInt32 then 0 else -1

def tryBpfRbacProgLoad (policyMap : PolicyMap) (resolver : Except Int64 UInt64) (attr : Option UInt32)
    (kernel : UInt32) : Except Int64 Int32 :=
  enforce policyMap resolver kernel fun policy =>
    match attr with
    | none => -1
    | some progType => if inBitmap policy.allowedProgTypes progType then 0 else -1

def tryBpfRbacMapCreate (policyMap : PolicyMap) (resolver : Except Int64 UInt64) (attr : Option UInt32)
    (kernel : UInt32) : Except Int64 Int32 :=
  enforce policyMap resolver kernel fun policy =>
    match attr with
    | none => -1
    | some mapType => if inBitmap policy.allowedMapTypes mapType then 0 else -1

/-- What the kernel gets: `EPERM` on error (fail closed). -/
def hookReturn : Except Int64 Int32 → Int32
  | .ok ret => ret
  | .error _ => -1

def bpfRbacBpf (policyMap : PolicyMap) (resolver : Except Int64 UInt64) (cmd : Int32)
    (kernel : UInt32) : Int32 :=
  hookReturn (tryBpfRbacBpf policyMap resolver cmd kernel)

def bpfRbacProgLoad (policyMap : PolicyMap) (resolver : Except Int64 UInt64) (attr : Option UInt32)
    (kernel : UInt32) : Int32 :=
  hookReturn (tryBpfRbacProgLoad policyMap resolver attr kernel)

def bpfRbacMapCreate (policyMap : PolicyMap) (resolver : Except Int64 UInt64) (attr : Option UInt32)
    (kernel : UInt32) : Int32 :=
  hookReturn (tryBpfRbacMapCreate policyMap resolver attr kernel)

-- ---------------------------------------------------------------------------
-- Access of a namespace
-- ---------------------------------------------------------------------------

inductive Call where
  | bpf (cmd : Int32)
  | progLoad (attr : Option UInt32)
  | mapCreate (attr : Option UInt32)
  deriving DecidableEq, Repr

def Call.hook (call : Call) (policyMap : PolicyMap) (resolver : Except Int64 UInt64) : Int32 :=
  match call with
  | .bpf cmd => bpfRbacBpf policyMap resolver cmd 0
  | .progLoad attr => bpfRbacProgLoad policyMap resolver attr 0
  | .mapCreate attr => bpfRbacMapCreate policyMap resolver attr 0

def Call.InBitmaps (call : Call) (policy : PolicyValue) : Prop :=
  match call with
  | .bpf cmd => inBitmap policy.allowedCmds cmd.toUInt32 = true
  | .progLoad attr => ∃ progType ∈ attr, inBitmap policy.allowedProgTypes progType = true
  | .mapCreate attr => ∃ mapType ∈ attr, inBitmap policy.allowedMapTypes mapType = true

def PolicyValue.Permits (policy : PolicyValue) (call : Call) : Prop :=
  policy.flags &&& policyFlagDenyAll = 0 ∧
    (policy.flags &&& policyFlagAllowAll ≠ 0 ∨ call.InBitmaps policy)

theorem enforce_kernel {check : PolicyValue → Int32} (h : kernel ≠ 0) :
    enforce policyMap resolver kernel check = .ok 0 := by
  simp [enforce, h, pure, Except.pure]

theorem enforce_unmanaged {check : PolicyValue → Int32} (h : policyMap ⟨ns⟩ = none) :
    enforce policyMap (.ok ns) kernel check = .ok 0 := by
  by_cases hk : kernel = 0
  · simp [enforce, hk, h, pure, Except.pure, bind, Except.bind]
  · exact enforce_kernel hk

/-- An entry's decision: the deny flag, then the allow flag, then the check. -/
theorem enforce_managed {check : PolicyValue → Int32} (h : policyMap ⟨ns⟩ = some policy) :
    enforce policyMap (.ok ns) 0 check = .ok 0 ↔
      policy.flags &&& policyFlagDenyAll = 0 ∧
        (policy.flags &&& policyFlagAllowAll ≠ 0 ∨ check policy = 0) := by
  by_cases hd : policy.flags &&& policyFlagDenyAll = 0
  · by_cases ha : policy.flags &&& policyFlagAllowAll = 0
    · simp [enforce, h, hd, ha, pure, Except.pure, bind, Except.bind]
    · simp [enforce, h, hd, ha, pure, Except.pure, bind, Except.bind]
  · simp [enforce, h, hd, pure, Except.pure, bind, Except.bind]

theorem hookReturn_eq_zero {r : Except Int64 Int32} : hookReturn r = 0 ↔ r = .ok 0 := by
  cases r <;> simp [hookReturn]

theorem ite_verdict {c : Prop} [Decidable c] : (if c then (0 : Int32) else -1) = 0 ↔ c := by
  split <;> simp_all

theorem Call.hook_unmanaged (call : Call) (h : policyMap ⟨ns⟩ = none) :
    call.hook policyMap (.ok ns) = 0 := by
  cases call <;> exact hookReturn_eq_zero.mpr (enforce_unmanaged h)

/-- In a managed namespace the hooks allow exactly what the entry permits. -/
theorem Call.hook_managed (call : Call) (h : policyMap ⟨ns⟩ = some policy) :
    call.hook policyMap (.ok ns) = 0 ↔ policy.Permits call := by
  cases call with
  | bpf cmd =>
    refine hookReturn_eq_zero.trans ((enforce_managed h).trans ?_)
    simp only [ite_verdict, PolicyValue.Permits, InBitmaps]
  | progLoad attr =>
    refine hookReturn_eq_zero.trans ((enforce_managed h).trans ?_)
    cases attr <;> simp [PolicyValue.Permits, InBitmaps]
  | mapCreate attr =>
    refine hookReturn_eq_zero.trans ((enforce_managed h).trans ?_)
    cases attr <;> simp [PolicyValue.Permits, InBitmaps]

end BpfRbacd
