import BpfRbacd.Lib.AllowList
import BpfRbacd.Policy

/-!
# Type checks

`checkTypeOp` reads one operation list, that of the wildcard if there is one
and otherwise that of the type. `opsFor` is that list; which operations a type
map grants is a question about it.

The union of both lists (`unionGrants`) is more where the wildcard's list is
narrower than the type's own (`shadowed`). `type_ops_union_iff` says that this
is the only difference, and what it does to an entry that is added.
-/

namespace BpfRbacd

open AllowList (granted under)

variable {types types' : HashMap (List String)}

theorem allowsName_iff {names : List String} : allowsName names c = true ↔ c ∈ granted "any" names := by
  simp [allowsName, granted, or_comm, and_comm, exists_or, or_and_right]

def opsFor (types : HashMap (List String)) (name : String) : Option (List String) :=
  (types.lookup "any").or (types.lookup name)

theorem checkTypeOp_iff :
    checkTypeOp types name op = true ↔ ∃ ops ∈ opsFor types name, allowsName ops op = true := by
  unfold checkTypeOp opsFor
  cases types.lookup "any" with
  | some ops => simp
  | none => cases types.lookup name <;> simp

theorem opsFor_isSome : (∃ ops, ops ∈ opsFor types name) ↔ "any" ∈ types ∨ name ∈ types := by
  rw [← AList.lookup_isSome, ← AList.lookup_isSome, ← Bool.or_eq_true, ← Option.isSome_or,
    Option.isSome_iff_exists]
  rfl

theorem opsFor_mem_entries (h : ops ∈ opsFor types name) : ∃ entry ∈ types.entries, entry.2 = ops := by
  rcases Option.or_eq_some_iff.mp h with hany | ⟨-, hname⟩
  · exact ⟨_, AList.mem_lookup_iff.mp hany, rfl⟩
  · exact ⟨_, AList.mem_lookup_iff.mp hname, rfl⟩

/-- Where the operation lists read for a name grant `op`, being listed decides. -/
theorem checkTypeOp_of_ops (h : ∀ ops ∈ opsFor types name, allowsName ops op = true) :
    checkTypeOp types name op = true ↔ "any" ∈ types ∨ name ∈ types := by
  rw [checkTypeOp_iff, ← opsFor_isSome]
  constructor
  · rintro ⟨ops, hops, -⟩
    exact ⟨ops, hops⟩
  · rintro ⟨ops, hops⟩
    exact ⟨ops, hops, h ops hops⟩

-- ---------------------------------------------------------------------------
-- What is listed
-- ---------------------------------------------------------------------------

/-- What the wildcard's list or the type's own grants. -/
def unionGrants (types : HashMap (List String)) (name : String) : Set String :=
  {op | ∃ key ∈ ["any", name], ∃ ops ∈ types.lookup key, op ∈ granted "any" ops}

/-- What the type's own list grants and the wildcard's, read in its place, does not. -/
def shadowed (types : HashMap (List String)) (name : String) : Set String :=
  {op | (∃ ops ∈ types.lookup "any", op ∉ granted "any" ops) ∧
    ∃ ops ∈ types.lookup name, op ∈ granted "any" ops}

theorem mem_unionGrants : op ∈ unionGrants types name ↔
    (∃ ops ∈ types.lookup "any", op ∈ granted "any" ops) ∨
      ∃ ops ∈ types.lookup name, op ∈ granted "any" ops := by
  simp [unionGrants]

theorem checkTypeOp_iff_union :
    checkTypeOp types name op = true ↔ op ∈ unionGrants types name ∧ op ∉ shadowed types name := by
  rw [checkTypeOp_iff, mem_unionGrants, opsFor, shadowed, Set.mem_ofPred_eq]
  simp only [allowsName_iff]
  cases types.lookup "any" with
  | none => simp
  | some ops =>
    by_cases hgranted : op ∈ granted "any" ops
    · simp [hgranted]
    · simp [hgranted]

/-- Entries and operations were added. -/
def Extends (types types' : HashMap (List String)) : Prop :=
  ∀ key, ∀ ops ∈ types.lookup key, ∃ ops' ∈ types'.lookup key, ops ⊆ ops'

theorem Extends.unionGrants (h : Extends types types') (name : String) :
    unionGrants types name ⊆ unionGrants types' name := by
  rintro op ⟨key, hkey, ops, hops, hgranted⟩
  obtain ⟨ops', hops', hsub⟩ := h key ops hops
  exact ⟨key, hkey, ops', hops', hgranted.imp (hsub ·) (hsub ·)⟩

-- ---------------------------------------------------------------------------
-- A role under the system policy
-- ---------------------------------------------------------------------------

section
variable {roleTypes roleTypes' : HashMap (List String)}
  {systemTypes systemTypes' : Option (HashMap (List String))}

/-- The operation is in the unions of role and ceiling. -/
def UnionAllows (roleTypes : HashMap (List String)) (systemTypes : Option (HashMap (List String)))
    (name op : String) : Prop :=
  op ∈ under (systemTypes.map (unionGrants · name)) (unionGrants roleTypes name)

def EitherShadows (roleTypes : HashMap (List String)) (systemTypes : Option (HashMap (List String)))
    (name op : String) : Prop :=
  op ∈ shadowed roleTypes name ∨ ∃ types ∈ systemTypes, op ∈ shadowed types name

theorem typeOpAllowed_checks : typeOpAllowed roleTypes systemTypes name op = true ↔
    checkTypeOp roleTypes name op = true ∧ ∀ types ∈ systemTypes, checkTypeOp types name op = true := by
  unfold typeOpAllowed
  cases systemTypes <;> simp

theorem typeOpAllowed_iff : typeOpAllowed roleTypes systemTypes name op = true ↔
    UnionAllows roleTypes systemTypes name op ∧ ¬ EitherShadows roleTypes systemTypes name op := by
  rw [typeOpAllowed_checks, checkTypeOp_iff_union, UnionAllows, EitherShadows]
  simp only [checkTypeOp_iff_union]
  cases systemTypes with
  | none => simp
  | some types =>
    simp only [Option.mem_some_iff, forall_eq', exists_eq_left', Option.map_some, AllowList.under_some,
      Set.mem_inter_iff, not_or]
    exact and_and_and_comm

theorem typeOpAllowed_union_iff :
    (typeOpAllowed roleTypes systemTypes name op = true ↔ UnionAllows roleTypes systemTypes name op) ↔
      ¬ (UnionAllows roleTypes systemTypes name op ∧ EitherShadows roleTypes systemTypes name op) := by
  rw [typeOpAllowed_iff]
  tauto

/-- Entries and operations were added to a ceiling. -/
def CeilingExtends (systemTypes systemTypes' : Option (HashMap (List String))) : Prop :=
  ∀ types' ∈ systemTypes', ∃ types ∈ systemTypes, Extends types types'

theorem UnionAllows.mono (hrole : Extends roleTypes roleTypes')
    (hsystem : CeilingExtends systemTypes systemTypes') (h : UnionAllows roleTypes systemTypes name op) :
    UnionAllows roleTypes' systemTypes' name op := by
  obtain ⟨hown, hceil⟩ := AllowList.mem_under.mp h
  refine AllowList.mem_under.mpr ⟨hrole.unionGrants name hown, ?_⟩
  rintro c hc
  obtain ⟨types', htypes', rfl⟩ := Option.mem_map.mp hc
  obtain ⟨types, htypes, hext⟩ := hsystem types' htypes'
  exact hext.unionGrants name (hceil _ (Option.mem_map.mpr ⟨types, htypes, rfl⟩))

theorem typeOpAllowed_extended (hrole : Extends roleTypes roleTypes')
    (hsystem : CeilingExtends systemTypes systemTypes')
    (h : typeOpAllowed roleTypes systemTypes name op = true) :
    typeOpAllowed roleTypes' systemTypes' name op = true ↔
      ¬ EitherShadows roleTypes' systemTypes' name op := by
  have hunion := (typeOpAllowed_iff.mp h).1.mono hrole hsystem
  rw [typeOpAllowed_iff, and_iff_right hunion]

end

def Policy.systemProgTypes (policy : Policy) : Option (HashMap (List String)) :=
  policy.config.systemPolicy.map (·.progTypes)

def Policy.systemMapTypes (policy : Policy) : Option (HashMap (List String)) :=
  policy.config.systemPolicy.map (·.mapTypes)

/-- Entries were added to the allow-lists of a role and of the system policy. -/
structure Widened (policy : Policy) (role : Role) (policy' : Policy) (role' : Role) : Prop where
  progTypes : Extends role.progTypes role'.progTypes
  mapTypes : Extends role.mapTypes role'.mapTypes
  systemProgTypes : CeilingExtends policy.systemProgTypes policy'.systemProgTypes
  systemMapTypes : CeilingExtends policy.systemMapTypes policy'.systemMapTypes

/-- Type permissions are the union of what is listed, but for an operation that
a wildcard entry shadows; and only that takes a permission away when entries
are added. -/
theorem type_ops_union_iff (policy : Policy) (role : Role) (name op : String) :
    ((policy.isProgOpAllowed role name op = true ↔
        UnionAllows role.progTypes policy.systemProgTypes name op) ↔
      ¬ (UnionAllows role.progTypes policy.systemProgTypes name op ∧
        EitherShadows role.progTypes policy.systemProgTypes name op)) ∧
    ((policy.isMapOpAllowed role name op = true ↔
        UnionAllows role.mapTypes policy.systemMapTypes name op) ↔
      ¬ (UnionAllows role.mapTypes policy.systemMapTypes name op ∧
        EitherShadows role.mapTypes policy.systemMapTypes name op)) ∧
    ∀ policy' role', Widened policy role policy' role' →
      (policy.isProgOpAllowed role name op = true →
        (policy'.isProgOpAllowed role' name op = true ↔
          ¬ EitherShadows role'.progTypes policy'.systemProgTypes name op)) ∧
      (policy.isMapOpAllowed role name op = true →
        (policy'.isMapOpAllowed role' name op = true ↔
          ¬ EitherShadows role'.mapTypes policy'.systemMapTypes name op)) := by
  refine ⟨typeOpAllowed_union_iff, typeOpAllowed_union_iff, ?_⟩
  intro policy' role' hwide
  exact ⟨typeOpAllowed_extended hwide.progTypes hwide.systemProgTypes,
    typeOpAllowed_extended hwide.mapTypes hwide.systemMapTypes⟩

-- `kprobe: [load]`, and the same with a wildcard entry added.
def kprobeLoad : HashMap (List String) := (∅ : HashMap (List String)).insert "kprobe" ["load"]

def progRole (types : HashMap (List String)) : Role :=
  { description := none, groups := [], progTypes := types }

theorem kprobeLoad_widened (ops : List String) :
    Widened ⟨⟨none, ∅⟩⟩ (progRole kprobeLoad) ⟨⟨none, ∅⟩⟩ (progRole (kprobeLoad.insert "any" ops)) where
  progTypes key ops hops := by
    have hkey : key ≠ "any" := by
      rintro rfl
      cases hops
    refine ⟨ops, ?_, List.Subset.refl _⟩
    show (kprobeLoad.insert "any" _).lookup key = some ops
    rw [AList.lookup_insert_ne hkey]
    exact hops
  mapTypes key ops hops := ⟨ops, hops, List.Subset.refl _⟩
  systemProgTypes types' htypes' := by cases htypes'
  systemMapTypes types' htypes' := by cases htypes'

theorem wildcard_entry_keeps :
    (Policy.isProgOpAllowed ⟨⟨none, ∅⟩⟩ (progRole (kprobeLoad.insert "any" ["any"])) "kprobe" "load") =
      true := by
  have hext := (type_ops_union_iff ⟨⟨none, ∅⟩⟩ (progRole kprobeLoad) "kprobe" "load").2.2 ⟨⟨none, ∅⟩⟩
    (progRole (kprobeLoad.insert "any" ["any"])) (kprobeLoad_widened ["any"])
  refine (hext.1 (by decide)).mpr ?_
  rintro (⟨⟨ops, hops, hnot⟩, -⟩ | ⟨types, htypes, -⟩)
  · cases hops
    exact hnot (.inl List.mem_cons_self)
  · cases htypes

theorem wildcard_entry_takes_away :
    Widened ⟨⟨none, ∅⟩⟩ (progRole kprobeLoad) ⟨⟨none, ∅⟩⟩
        (progRole (kprobeLoad.insert "any" ["attach"])) ∧
      Policy.isProgOpAllowed ⟨⟨none, ∅⟩⟩ (progRole kprobeLoad) "kprobe" "load" = true ∧
      UnionAllows (kprobeLoad.insert "any" ["attach"]) none "kprobe" "load" ∧
      Policy.isProgOpAllowed ⟨⟨none, ∅⟩⟩ (progRole (kprobeLoad.insert "any" ["attach"])) "kprobe" "load" =
        false := by
  refine ⟨kprobeLoad_widened ["attach"], by decide, ?_, by decide⟩
  have hlist : "load" ∈ granted "any" ["load"] := .inr List.mem_cons_self
  rw [UnionAllows, Option.map_none, AllowList.under_none, mem_unionGrants]
  exact .inr ⟨["load"], rfl, hlist⟩

end BpfRbacd
