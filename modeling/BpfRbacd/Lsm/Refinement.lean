import BpfRbacd.Lsm
import BpfRbacd.Policy.Bitmaps
import BpfRbacd.Policy.TypeOps
import Mathlib.Logic.Function.Basic

/-!
# The hooks against the policy

The daemon is to give a namespace the bitmaps of its role. `types_within_policy`
says what a hook that lets a program or map type through knows about the role
and the system policy, `permitted_types_reach_hooks` that the hooks let every
permitted type through, and `command_reaches_hook_iff` which permitted commands
the command hook does.

A bitmap keeps one bit for a number. It drops the names that share it, so role
and ceiling may grant it under different names, and it drops the operation
lists, so a type listed without its operation is let through as well. A
wildcard role is not capped. `Covered` leaves the last two cases out; the first
is how the kernel identifies a type and stays in the statement.
-/

namespace BpfRbacd

open AllowList (granted numbers under)

def Policy.typesEntry (policy : Policy) (role : Role) (rest : PolicyValue) : PolicyValue :=
  { rest with
    allowedProgTypes := policy.progTypesBitmap role
    allowedMapTypes := policy.mapTypesBitmap role
    flags := 0 }

def Policy.commandsEntry (policy : Policy) (role : Role) (rest : PolicyValue) : PolicyValue :=
  { rest with allowedCmds := policy.commandsBitmap role, flags := 0 }

theorem PolicyValue.permits_of_flags_zero {entry : PolicyValue} (h : entry.flags = 0) :
    entry.Permits call ↔ call.InBitmaps entry := by
  simp [PolicyValue.Permits, h]

/-- Without a flag the bitmaps of a namespace's entry decide. -/
theorem Call.hook_entry {entry : PolicyValue} (call : Call) (h : entry.flags = 0) :
    call.hook (Function.update policyMap ⟨ns⟩ (some entry)) (.ok ns) = 0 ↔ call.InBitmaps entry :=
  (call.hook_managed (Function.update_self ..)).trans (PolicyValue.permits_of_flags_zero h)

-- ---------------------------------------------------------------------------
-- Names and numbers
-- ---------------------------------------------------------------------------

section
variable {toBit : String → Option UInt32} {types : HashMap (List String)} {n : UInt32}

/-- The type map grants the number `n`, whatever the operation. -/
def Lists (toBit : String → Option UInt32) (types : HashMap (List String)) (n : UInt32) : Prop :=
  "any" ∈ types ∨ ∃ name ∈ types, toBit name = some n

/-- The type map grants the operation under some name of `n`. -/
def GrantsOp (toBit : String → Option UInt32) (types : HashMap (List String)) (n : UInt32)
    (op : String) : Prop :=
  ∃ name, toBit name = some n ∧ checkTypeOp types name op = true

/-- No operation list read for a name of `n` leaves `op` out. -/
def OpsGrant (toBit : String → Option UInt32) (types : HashMap (List String)) (n : UInt32)
    (op : String) : Prop :=
  ∀ name, toBit name = some n → ∀ ops ∈ opsFor types name, allowsName ops op = true

theorem numbered_iff {i : Fin 32} (hi : i.val = n.toNat) :
    Numbered toBit name i ↔ toBit name = some n := by
  constructor
  · rintro ⟨m, hm, hmi⟩
    have hmn : m = n := UInt32.toNat_inj.mp (hmi.trans hi)
    exact hmn ▸ hm
  · intro h
    exact ⟨n, h, hi.symm⟩

theorem mem_numbers_keys {i : Fin 32} (hi : i.val = n.toNat) :
    i ∈ numbers (Numbered toBit) "any" types.keys ↔ Lists toBit types n := by
  simp only [numbers, Set.mem_ofPred_eq, numbered_iff hi, Lists, AList.mem_keys]

theorem OpsGrant.checkTypeOp_iff (h : OpsGrant toBit types n op) (hn : toBit name = some n) :
    checkTypeOp types name op = true ↔ "any" ∈ types ∨ name ∈ types :=
  checkTypeOp_of_ops (h name hn)

theorem OpsGrant.of_forall (h : ∀ entry ∈ types.entries, allowsName entry.2 op = true) :
    OpsGrant toBit types n op := by
  intro name _ ops hops
  obtain ⟨entry, hentry, rfl⟩ := opsFor_mem_entries hops
  exact h entry hentry

theorem OpsGrant.grantsOp (h : OpsGrant toBit types n op) (hnamed : ∃ name, toBit name = some n)
    (hlists : Lists toBit types n) : GrantsOp toBit types n op := by
  rcases hlists with hany | ⟨name, hmem, hn⟩
  · obtain ⟨name, hn⟩ := hnamed
    exact ⟨name, hn, (h.checkTypeOp_iff hn).mpr (.inl hany)⟩
  · exact ⟨name, hn, (h.checkTypeOp_iff hn).mpr (.inr hmem)⟩

end

-- ---------------------------------------------------------------------------
-- Types the hooks let through
-- ---------------------------------------------------------------------------

section
variable {toBit : String → Option UInt32} {role : HashMap (List String)}
  {system : Option (HashMap (List String))} {n : UInt32}

/-- Listed by the role and, the wildcard role apart, by the ceiling. -/
def Listed (toBit : String → Option UInt32) (role : HashMap (List String))
    (system : Option (HashMap (List String))) (n : UInt32) : Prop :=
  Lists toBit role n ∧ ("any" ∉ role → ∀ types ∈ system, Lists toBit types n)

/-- Role and ceiling grant the operation, each under some name of the number. -/
def Granted (toBit : String → Option UInt32) (role : HashMap (List String))
    (system : Option (HashMap (List String))) (n : UInt32) (op : String) : Prop :=
  GrantsOp toBit role n op ∧ ∀ types ∈ system, GrantsOp toBit types n op

theorem inBitmap_bitmapUnder (hword : InWord toBit)
    (h : inBitmap (bitmapUnder toBit role.keys (system.map AList.keys)) n = true) :
    Listed toBit role system n := by
  obtain ⟨i, hmem, hi⟩ := inBitmap_iff.mp h
  rw [u32Bits_bitmapUnder hword] at hmem
  by_cases hany : "any" ∈ role
  · exact ⟨.inl hany, fun hnot => absurd hany hnot⟩
  · rw [if_neg (mt AList.mem_keys.mpr hany), AllowList.mem_under] at hmem
    obtain ⟨hrole, hceil⟩ := hmem
    refine ⟨(mem_numbers_keys hi).mp hrole, fun _ types htypes => ?_⟩
    refine (mem_numbers_keys hi).mp (hceil _ ?_)
    rw [Option.mem_def.mp htypes]
    rfl

/-- The number has a name, no operation list leaves `op` out, and a wildcard
role stays under the ceiling. -/
structure Covered (toBit : String → Option UInt32) (role : HashMap (List String))
    (system : Option (HashMap (List String))) (n : UInt32) (op : String) : Prop where
  named : ∃ name, toBit name = some n
  roleOps : OpsGrant toBit role n op
  systemOps : ∀ types ∈ system, OpsGrant toBit types n op
  capped : "any" ∈ role → ∀ types ∈ system, Lists toBit types n

/-- Two lists without a wildcard name the number in the same way. -/
def SharedName (toBit : String → Option UInt32) (role : HashMap (List String))
    (system : Option (HashMap (List String))) (n : UInt32) : Prop :=
  "any" ∉ role → ∀ types ∈ system, "any" ∉ types →
    ∃ name, toBit name = some n ∧ name ∈ role ∧ name ∈ types

theorem Covered.granted (h : Covered toBit role system n op) (hlisted : Listed toBit role system n) :
    Granted toBit role system n op := by
  obtain ⟨hrole, hsys⟩ := hlisted
  refine ⟨h.roleOps.grantsOp h.named hrole, fun types htypes => ?_⟩
  have hlists : Lists toBit types n := by
    by_cases hany : "any" ∈ role
    · exact h.capped hany types htypes
    · exact hsys hany types htypes
  exact (h.systemOps types htypes).grantsOp h.named hlists

theorem Covered.allowed (h : Covered toBit role system n op) (hlisted : Listed toBit role system n)
    (hshared : SharedName toBit role system n) :
    ∃ name, toBit name = some n ∧ typeOpAllowed role system name op = true := by
  obtain ⟨⟨ours, hours, hoursOp⟩, hgrants⟩ := h.granted hlisted
  cases system with
  | none => exact ⟨ours, hours, by simp [typeOpAllowed, hoursOp]⟩
  | some types =>
    obtain ⟨theirs, htheirs, htheirsOp⟩ := hgrants types rfl
    have hsysOps : OpsGrant toBit types n op := h.systemOps types rfl
    -- a wildcard on either side follows the other side's name
    suffices hboth : ∃ name, toBit name = some n ∧
        checkTypeOp role name op = true ∧ checkTypeOp types name op = true by
      obtain ⟨name, hn, hr, hs⟩ := hboth
      exact ⟨name, hn, by simp [typeOpAllowed, hr, hs]⟩
    by_cases hroleAny : "any" ∈ role
    · exact ⟨theirs, htheirs, (h.roleOps.checkTypeOp_iff htheirs).mpr (.inl hroleAny), htheirsOp⟩
    · by_cases hsysAny : "any" ∈ types
      · exact ⟨ours, hours, hoursOp, (hsysOps.checkTypeOp_iff hours).mpr (.inl hsysAny)⟩
      · obtain ⟨name, hn, hmem, hmem'⟩ := hshared hroleAny types rfl hsysAny
        exact ⟨name, hn, (h.roleOps.checkTypeOp_iff hn).mpr (.inr hmem),
          (hsysOps.checkTypeOp_iff hn).mpr (.inr hmem')⟩

theorem Listed.sharedName (h : Listed toBit role system n)
    (hinj : ∀ a b, toBit a = some n → toBit b = some n → a = b) :
    SharedName toBit role system n := by
  obtain ⟨hrole, hsys⟩ := h
  intro hroleAny types htypes hsysAny
  obtain ⟨ours, hmem, hours⟩ := hrole.resolve_left hroleAny
  obtain ⟨theirs, hmem', htheirs⟩ := (hsys hroleAny types htypes).resolve_left hsysAny
  exact ⟨ours, hours, hmem, hinj _ _ htheirs hours ▸ hmem'⟩

end

theorem mapTypeToBit_injective {a b : String} (ha : mapTypeToBit a = some n)
    (hb : mapTypeToBit b = some n) : a = b := by
  have hrows : ∀ r ∈ mapTypeNumbers, ∀ r' ∈ mapTypeNumbers, r.2 = r'.2 → r.1 = r'.1 := by decide
  exact hrows (a, n) (lookup_mem ha) (b, n) (lookup_mem hb) rfl

section
variable (policyMap : PolicyMap) (ns : UInt64) (rest : PolicyValue) (policy : Policy) (role : Role)
  (n : UInt32)

theorem progLoad_typesEntry :
    tryBpfRbacProgLoad (Function.update policyMap ⟨ns⟩ (some (policy.typesEntry role rest)))
      (.ok ns) (some n) 0 = .ok 0 ↔ inBitmap (policy.progTypesBitmap role) n = true := by
  refine hookReturn_eq_zero.symm.trans ((Call.hook_entry (.progLoad (some n)) rfl).trans ?_)
  simp [Call.InBitmaps, Policy.typesEntry]

theorem mapCreate_typesEntry :
    tryBpfRbacMapCreate (Function.update policyMap ⟨ns⟩ (some (policy.typesEntry role rest)))
      (.ok ns) (some n) 0 = .ok 0 ↔ inBitmap (policy.mapTypesBitmap role) n = true := by
  refine hookReturn_eq_zero.symm.trans ((Call.hook_entry (.mapCreate (some n)) rfl).trans ?_)
  simp [Call.InBitmaps, Policy.typesEntry]

theorem bpf_commandsEntry :
    tryBpfRbacBpf (Function.update policyMap ⟨ns⟩ (some (policy.commandsEntry role rest)))
      (.ok ns) n.toInt32 0 = .ok 0 ↔ inBitmap (policy.commandsBitmap role) n = true := by
  refine hookReturn_eq_zero.symm.trans ((Call.hook_entry (.bpf n.toInt32) rfl).trans ?_)
  simp [Call.InBitmaps, Policy.commandsEntry]

/-- A type the hooks let through is listed by the role and, the wildcard role
apart, by the system policy. Within `Covered` both grant the operation under
some name of the type, and under one and the same name if they share one;
map types have one name each. -/
theorem types_within_policy :
    (tryBpfRbacProgLoad (Function.update policyMap ⟨ns⟩ (some (policy.typesEntry role rest)))
        (.ok ns) (some n) 0 = .ok 0 →
      Listed progTypeToBit role.progTypes policy.systemProgTypes n ∧
      (Covered progTypeToBit role.progTypes policy.systemProgTypes n "load" →
        Granted progTypeToBit role.progTypes policy.systemProgTypes n "load" ∧
        (SharedName progTypeToBit role.progTypes policy.systemProgTypes n →
          ∃ name, progTypeToBit name = some n ∧ policy.isProgOpAllowed role name "load" = true))) ∧
    (tryBpfRbacMapCreate (Function.update policyMap ⟨ns⟩ (some (policy.typesEntry role rest)))
        (.ok ns) (some n) 0 = .ok 0 →
      Listed mapTypeToBit role.mapTypes policy.systemMapTypes n ∧
      (Covered mapTypeToBit role.mapTypes policy.systemMapTypes n "create" →
        ∃ name, mapTypeToBit name = some n ∧ policy.isMapOpAllowed role name "create" = true)) := by
  constructor
  · intro h
    rw [progLoad_typesEntry, Policy.progTypesBitmap] at h
    have hlisted : Listed progTypeToBit role.progTypes policy.systemProgTypes n :=
      inBitmap_bitmapUnder progTypeToBit_inWord
        (by simpa [Policy.systemProgTypes, Function.comp_def] using h)
    exact ⟨hlisted, fun hcov => ⟨hcov.granted hlisted, hcov.allowed hlisted⟩⟩
  · intro h
    rw [mapCreate_typesEntry, Policy.mapTypesBitmap] at h
    have hlisted : Listed mapTypeToBit role.mapTypes policy.systemMapTypes n :=
      inBitmap_bitmapUnder mapTypeToBit_inWord
        (by simpa [Policy.systemMapTypes, Function.comp_def] using h)
    have hshared := hlisted.sharedName fun _ _ => mapTypeToBit_injective
    exact ⟨hlisted, fun hcov => hcov.allowed hlisted hshared⟩

end

/-- A role's `prog_types: {kprobe: [load]}` under a ceiling `prog_types: {any: [load, attach]}`. -/
def kprobeLoader : Role :=
  { description := none, groups := [], progTypes := (∅ : HashMap (List String)).insert "kprobe" ["load"] }

def anyLoadAttach : Policy :=
  ⟨⟨some { progTypes := (∅ : HashMap (List String)).insert "any" ["load", "attach"] }, ∅⟩⟩

theorem kprobe_load_within_policy :
    ∃ name, progTypeToBit name = some 2 ∧ anyLoadAttach.isProgOpAllowed kprobeLoader name "load" = true := by
  refine (((types_within_policy (fun _ => none) 7 ⟨0, 0, 0, 0, 0, #v[0, 0, 0]⟩ anyLoadAttach
    kprobeLoader 2).1 (by decide)).2 ⟨⟨"kprobe", rfl⟩, ?_, ?_, ?_⟩).2 ?_
  · exact .of_forall (by decide)
  · rintro _ ⟨rfl⟩
    exact .of_forall (by decide)
  · exact fun h => absurd h (by decide)
  · rintro - _ ⟨rfl⟩ hany
    exact absurd (by decide) hany

/-- The wildcard sets the bit of every number, and 31 is no program type's. -/
theorem unnamed_type_let_through :
    ¬ ∀ (policyMap : PolicyMap) (ns : UInt64) (rest : PolicyValue) (policy : Policy) (role : Role)
        (n : UInt32),
      (tryBpfRbacProgLoad (Function.update policyMap ⟨ns⟩ (some (policy.typesEntry role rest)))
          (.ok ns) (some n) 0 = .ok 0 →
        ∃ name, progTypeToBit name = some n ∧ policy.isProgOpAllowed role name "load" = true) ∧
      (tryBpfRbacMapCreate (Function.update policyMap ⟨ns⟩ (some (policy.typesEntry role rest)))
          (.ok ns) (some n) 0 = .ok 0 →
        ∃ name, mapTypeToBit name = some n ∧ policy.isMapOpAllowed role name "create" = true) := by
  intro h
  obtain ⟨name, hname, -⟩ := (h (fun _ => none) 7 ⟨0, 0, 0, 0, 0, #v[0, 0, 0]⟩ ⟨⟨none, ∅⟩⟩
    { description := none, groups := [], progTypes := (∅ : HashMap (List String)).insert "any" ["any"] }
    31).1 (by decide)
  have hnone : ∀ row ∈ progTypeNumbers, row.2 ≠ 31 := by decide
  exact hnone _ (lookup_mem hname) rfl

-- ---------------------------------------------------------------------------
-- Types that are permitted
-- ---------------------------------------------------------------------------

section
variable {toBit : String → Option UInt32} {roleTypes types : HashMap (List String)}
  {systemTypes : Option (HashMap (List String))} {name op : String} {n : UInt32}

theorem granted_of_checkTypeOp (h : checkTypeOp types name op = true) : name ∈ granted "any" types.keys := by
  obtain ⟨ops, hops, -⟩ := checkTypeOp_iff.mp h
  exact (opsFor_isSome.mp ⟨ops, hops⟩).imp AList.mem_keys.mpr AList.mem_keys.mpr

/-- An operation on a type presupposes its listing on both sides, and so its bit. -/
theorem inBitmap_of_typeOpAllowed (hword : InWord toBit) (hn : toBit name = some n)
    (h : typeOpAllowed roleTypes systemTypes name op = true) :
    inBitmap (bitmapUnder toBit roleTypes.keys (systemTypes.map AList.keys)) n = true := by
  have hboth : name ∈ under ((systemTypes.map AList.keys).map (granted "any"))
      (granted "any" roleTypes.keys) := by
    obtain ⟨hrole, hceil⟩ := typeOpAllowed_checks.mp h
    refine AllowList.mem_under.mpr ⟨granted_of_checkTypeOp hrole, ?_⟩
    rintro c hc
    obtain ⟨names, hnames, rfl⟩ := Option.mem_map.mp hc
    obtain ⟨types, htypes, rfl⟩ := Option.mem_map.mp hnames
    exact granted_of_checkTypeOp (hceil types htypes)
  have hnum := AllowList.under_numbers_of_granted hboth (hword.numbered hn)
  exact inBitmap_iff.mpr ⟨_, under_subset_bitmapUnder hword _ _ hnum, rfl⟩

end

/-- Whatever type the proxy authorises, the hooks accept under the same role. -/
theorem permitted_types_reach_hooks (policyMap : PolicyMap) (ns : UInt64) (rest : PolicyValue)
    (policy : Policy) (role : Role) (op t u : String) (n m : UInt32)
    (ht : progTypeToBit t = some n) (hu : mapTypeToBit u = some m) :
    (policy.isProgOpAllowed role t op = true →
      tryBpfRbacProgLoad (Function.update policyMap ⟨ns⟩ (some (policy.typesEntry role rest)))
        (.ok ns) (some n) 0 = .ok 0) ∧
    (policy.isMapOpAllowed role u op = true →
      tryBpfRbacMapCreate (Function.update policyMap ⟨ns⟩ (some (policy.typesEntry role rest)))
        (.ok ns) (some m) 0 = .ok 0) := by
  constructor
  · intro h
    have hbit := inBitmap_of_typeOpAllowed progTypeToBit_inWord ht h
    rw [Option.map_map] at hbit
    exact (progLoad_typesEntry ..).mpr hbit
  · intro h
    have hbit := inBitmap_of_typeOpAllowed mapTypeToBit_inWord hu h
    rw [Option.map_map] at hbit
    exact (mapCreate_typesEntry ..).mpr hbit

theorem kprobe_load_reaches_hook :
    tryBpfRbacProgLoad (Function.update (fun _ => none) ⟨7⟩
      (some (anyLoadAttach.typesEntry kprobeLoader ⟨0, 0, 0, 0, 0, #v[0, 0, 0]⟩)))
      (.ok 7) (some 2) 0 = .ok 0 :=
  (permitted_types_reach_hooks (fun _ => none) 7 ⟨0, 0, 0, 0, 0, #v[0, 0, 0]⟩ anyLoadAttach kprobeLoader
    "load" "kprobe" "hash" 2 1 rfl rfl).1 (by decide)

-- ---------------------------------------------------------------------------
-- Commands that are permitted
-- ---------------------------------------------------------------------------

theorem Policy.isCommandAllowed_iff {policy : Policy} {role : Role} :
    policy.isCommandAllowed role c = true ↔
      c ∈ under ((policy.config.systemPolicy.map (·.commands)).map (granted "any"))
        (granted "any" role.commands) := by
  rw [AllowList.mem_under, Policy.isCommandAllowed]
  cases policy.config.systemPolicy with
  | none => simp [allowsName_iff]
  | some system => simp [allowsName_iff]

theorem Policy.commandsBitmap_of_allowed {policy : Policy} {role : Role}
    (hn : commandToBit c = some n) (h : policy.isCommandAllowed role c = true) :
    inBitmap (policy.commandsBitmap role) n = true := by
  have hnum := commandToBit_inWord.numbered hn
  have hboth := AllowList.under_numbers_of_granted (isCommandAllowed_iff.mp h) hnum
  exact inBitmap_iff.mpr ⟨_, under_subset_bitmapUnder commandToBit_inWord _ _ hboth, rfl⟩

theorem commandToBit_of_constant (h : commands.lookup c = some n) (hc : c ≠ "TOKEN_CREATE") :
    commandToBit c = some n := by
  have hrows : ∀ row ∈ commands, row.1 ≠ "TOKEN_CREATE" → commandToBit row.1 = some row.2 := by decide
  exact hrows (c, n) (lookup_mem h) hc

/-- A permitted command reaches the kernel unless it is `TOKEN_CREATE`, whose
number 33 has no bit. -/
theorem command_reaches_hook_iff (policyMap : PolicyMap) (ns : UInt64) (rest : PolicyValue)
    (policy : Policy) (role : Role) (c : String) (n : UInt32)
    (h : commandToBit c = some n ∨ commands.lookup c = some n) :
    (policy.isCommandAllowed role c = true →
      tryBpfRbacBpf (Function.update policyMap ⟨ns⟩ (some (policy.commandsEntry role rest)))
        (.ok ns) n.toInt32 0 = .ok 0) ↔
      c = "TOKEN_CREATE" → allowsName role.commands c = true →
        ∃ system ∈ policy.config.systemPolicy, allowsName system.commands c = false := by
  rw [bpf_commandsEntry]
  by_cases hc : c = "TOKEN_CREATE"
  · subst hc
    have hn : n = 33 := by
      have hbit : commandToBit "TOKEN_CREATE" = none := by decide
      have hconst : commands.lookup "TOKEN_CREATE" = some 33 := by decide
      simpa [hbit, hconst, eq_comm] using h
    subst hn
    have hrange : inBitmap (policy.commandsBitmap role) 33 = false := by simp [inBitmap]
    rw [hrange, Policy.isCommandAllowed]
    cases policy.config.systemPolicy <;> simp
  · have hn : commandToBit c = some n := h.elim id fun h => commandToBit_of_constant h hc
    exact ⟨fun _ htoken => absurd htoken hc, fun _ => Policy.commandsBitmap_of_allowed hn⟩

def loaderOnly : Role := { description := none, groups := [], commands := ["PROG_LOAD"] }

theorem prog_load_reaches_hook :
    tryBpfRbacBpf (Function.update (fun _ => none) ⟨7⟩
      (some (Policy.commandsEntry ⟨⟨none, ∅⟩⟩ loaderOnly ⟨0, 0, 0, 0, 0, #v[0, 0, 0]⟩)))
      (.ok 7) (5 : UInt32).toInt32 0 = .ok 0 :=
  (command_reaches_hook_iff (fun _ => none) 7 ⟨0, 0, 0, 0, 0, #v[0, 0, 0]⟩ ⟨⟨none, ∅⟩⟩ loaderOnly
    "PROG_LOAD" 5 (.inl rfl)).mpr (by decide) (by decide)

/-- A role with `commands: [any]` may issue `TOKEN_CREATE`, and the hook refuses it. -/
theorem token_create_refused :
    ¬ ∀ (policyMap : PolicyMap) (ns : UInt64) (rest : PolicyValue) (policy : Policy) (role : Role)
        (c : String) (n : UInt32), commandToBit c = some n ∨ commands.lookup c = some n →
      policy.isCommandAllowed role c = true →
        tryBpfRbacBpf (Function.update policyMap ⟨ns⟩ (some (policy.commandsEntry role rest)))
          (.ok ns) n.toInt32 0 = .ok 0 := by
  intro h
  exact absurd (h (fun _ => none) 7 ⟨0, 0, 0, 0, 0, #v[0, 0, 0]⟩ ⟨⟨none, ∅⟩⟩
    { description := none, groups := [], commands := ["any"] } "TOKEN_CREATE" 33
    (.inr (by decide)) (by decide)) (by decide)

end BpfRbacd
