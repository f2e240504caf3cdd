import BpfRbacd.Policy

/-!
# Which role a user gets

`getRoleForGroups` against `Policy.Matches`, the roles that have one of the
user's groups: the result matches, a well-known match comes before any other,
and there is a result as soon as some role matches.

`role_resolution` says so of every policy, which carries the order its roles
are enumerated in. `role_resolution_iff` compares two enumerations of the same
roles. The two always agree on whether the user has a role, and on the role itself exactly
when a well-known role matches or no two roles do.
-/

namespace BpfRbacd

/-- The role has one of the user's groups. -/
def Policy.Matches (policy : Policy) (userGroups : List String) (name : String) : Prop :=
  ∃ role, policy.config.roles.lookup name = some role ∧ role.hasMember userGroups = true

/-- The user has a role and it allows the request, what the proxy asks before
it acts. -/
def Policy.Authorizes (policy : Policy) (userGroups : List String) (request : Request) : Prop :=
  ∃ name, policy.getRoleForGroups userGroups = some name ∧ policy.isAllowed name request = true

theorem Role.hasMember_iff {role : Role} :
    role.hasMember userGroups = true ↔ ∃ group ∈ role.groups, group ∈ userGroups := by
  simp [Role.hasMember]

-- ---------------------------------------------------------------------------
-- The two passes
-- ---------------------------------------------------------------------------

section
variable {policy : Policy} {userGroups : List String}

def Policy.wellKnownMatch (policy : Policy) (userGroups : List String) (name : String) : Bool :=
  match policy.config.roles.lookup name with
  | some role => role.hasMember userGroups
  | none => false

theorem Policy.wellKnownMatch_iff :
    policy.wellKnownMatch userGroups name = true ↔ policy.Matches userGroups name := by
  unfold Policy.wellKnownMatch Policy.Matches
  cases policy.config.roles.lookup name <;> simp

theorem Policy.getRoleForGroups_eq :
    policy.getRoleForGroups userGroups =
      (priority.find? (policy.wellKnownMatch userGroups)).or
        ((policy.config.roles.entries.find? fun entry => entry.2.hasMember userGroups).map (·.1)) :=
  rfl

theorem Policy.matches_iff_entry :
    policy.Matches userGroups name ↔
      ∃ entry ∈ policy.config.roles.entries, entry.1 = name ∧ entry.2.hasMember userGroups = true := by
  constructor
  · rintro ⟨role, hrole, hmem⟩
    exact ⟨⟨name, role⟩, AList.mem_lookup_iff.mp hrole, rfl, hmem⟩
  · rintro ⟨⟨_, role⟩, hentry, rfl, hmem⟩
    exact ⟨role, AList.mem_lookup_iff.mpr hentry, hmem⟩

theorem Policy.getRoleForGroups_matches (h : policy.getRoleForGroups userGroups = some name) :
    policy.Matches userGroups name := by
  rw [Policy.getRoleForGroups_eq, Option.or_eq_some_iff] at h
  rcases h with hfirst | ⟨-, hsecond⟩
  · exact Policy.wellKnownMatch_iff.mp (List.find?_some hfirst)
  · obtain ⟨entry, hentry, rfl⟩ := Option.map_eq_some_iff.mp hsecond
    have hmem : entry.2.hasMember userGroups = true := by simpa using List.find?_some hentry
    exact Policy.matches_iff_entry.mpr ⟨entry, List.mem_of_find?_eq_some hentry, rfl, hmem⟩

theorem Policy.getRoleForGroups_eq_none :
    policy.getRoleForGroups userGroups = none ↔ ∀ name, ¬ policy.Matches userGroups name := by
  constructor
  · intro h name hm
    rw [Policy.getRoleForGroups_eq, Option.or_eq_none_iff, Option.map_eq_none_iff] at h
    obtain ⟨entry, hentry, -, hmem⟩ := Policy.matches_iff_entry.mp hm
    exact List.find?_eq_none.mp h.2 entry hentry hmem
  · intro h
    cases hr : policy.getRoleForGroups userGroups with
    | none => rfl
    | some name => exact absurd (Policy.getRoleForGroups_matches hr) (h name)

/-- A well-known match decides, the first in priority order. -/
theorem Policy.getRoleForGroups_of_wellKnown
    (h : ∃ name ∈ priority, policy.Matches userGroups name) :
    policy.getRoleForGroups userGroups = priority.find? (policy.wellKnownMatch userGroups) := by
  obtain ⟨name, hname, hm⟩ := h
  have hsome : (priority.find? (policy.wellKnownMatch userGroups)).isSome = true :=
    List.find?_isSome.mpr ⟨name, hname, Policy.wellKnownMatch_iff.mpr hm⟩
  rw [Policy.getRoleForGroups_eq, Option.or_of_isSome hsome]

theorem Policy.getRoleForGroups_of_custom
    (h : ¬ ∃ name ∈ priority, policy.Matches userGroups name) :
    policy.getRoleForGroups userGroups =
      (policy.config.roles.entries.find? fun entry => entry.2.hasMember userGroups).map (·.1) := by
  have hnone : priority.find? (policy.wellKnownMatch userGroups) = none := by
    rw [List.find?_eq_none]
    intro name hname hm
    exact h ⟨name, hname, Policy.wellKnownMatch_iff.mp hm⟩
  rw [Policy.getRoleForGroups_eq, hnone, Option.none_or]

theorem Policy.getRoleForGroups_first (before : List String) {after : List String}
    (hsplit : priority = before ++ name :: after) (hm : policy.Matches userGroups name)
    (hbefore : ∀ other ∈ before, ¬ policy.Matches userGroups other) :
    policy.getRoleForGroups userGroups = some name := by
  rw [Policy.getRoleForGroups_of_wellKnown ⟨name, by simp [hsplit], hm⟩,
    List.find?_eq_some_iff_append]
  refine ⟨Policy.wellKnownMatch_iff.mpr hm, before, after, hsplit, fun other hother => ?_⟩
  simpa [← Policy.wellKnownMatch_iff] using hbefore other hother

/-- Resolution is sound and complete, and the first well-known match decides. -/
theorem role_resolution (policy : Policy) (userGroups : List String) :
    (policy.getRoleForGroups userGroups = none ↔
      ∀ name role, policy.config.roles.lookup name = some role →
        ¬ ∃ group ∈ role.groups, group ∈ userGroups) ∧
    (∀ name, policy.getRoleForGroups userGroups = some name →
      ∃ role, policy.config.roles.lookup name = some role ∧ ∃ group ∈ role.groups, group ∈ userGroups) ∧
    (policy.Matches userGroups "ebpf-admin" → policy.getRoleForGroups userGroups = some "ebpf-admin") ∧
    (¬ policy.Matches userGroups "ebpf-admin" → policy.Matches userGroups "ebpf-net" →
      policy.getRoleForGroups userGroups = some "ebpf-net") ∧
    (¬ policy.Matches userGroups "ebpf-admin" → ¬ policy.Matches userGroups "ebpf-net" →
      policy.Matches userGroups "ebpf" → policy.getRoleForGroups userGroups = some "ebpf") ∧
    ∀ name, policy.getRoleForGroups userGroups = some name → name ∉ ["ebpf-admin", "ebpf-net", "ebpf"] →
      ∀ known ∈ ["ebpf-admin", "ebpf-net", "ebpf"], ¬ policy.Matches userGroups known := by
  refine ⟨?_, ?_, ?_, ?_, ?_, ?_⟩
  · rw [Policy.getRoleForGroups_eq_none]
    simp only [Policy.Matches, Role.hasMember_iff, not_exists, not_and]
  · intro name hr
    obtain ⟨role, hrole, hmem⟩ := Policy.getRoleForGroups_matches hr
    exact ⟨role, hrole, Role.hasMember_iff.mp hmem⟩
  · intro hadmin
    exact Policy.getRoleForGroups_first [] rfl hadmin (by simp)
  · intro hadmin hnet
    exact Policy.getRoleForGroups_first ["ebpf-admin"] rfl hnet (by simpa using hadmin)
  · intro hadmin hnet hebpf
    exact Policy.getRoleForGroups_first ["ebpf-admin", "ebpf-net"] rfl hebpf
      (by simpa using ⟨hadmin, hnet⟩)
  · intro name hr hcustom known hknown hm
    rw [Policy.getRoleForGroups_of_wellKnown ⟨known, hknown, hm⟩] at hr
    exact hcustom (List.mem_of_find?_eq_some hr)

end

-- ---------------------------------------------------------------------------
-- Enumerations of one policy
-- ---------------------------------------------------------------------------

/-- The same policy file, its roles enumerated in another order. -/
structure Reordered (policy other : Policy) : Prop where
  system : other.config.systemPolicy = policy.config.systemPolicy
  roles : other.config.roles.entries.Perm policy.config.roles.entries

/-- Every role in the reverse order. -/
def Policy.backwards (policy : Policy) : Policy :=
  let nodup := (List.perm_nodupKeys (List.reverse_perm _)).mpr policy.config.roles.nodupKeys
  ⟨{ policy.config with roles := ⟨policy.config.roles.entries.reverse, nodup⟩ }⟩

theorem reordered_backwards (policy : Policy) : Reordered policy policy.backwards :=
  ⟨rfl, List.reverse_perm _⟩

def SameGroups (groups groups' : List String) : Prop := ∀ group, group ∈ groups ↔ group ∈ groups'

/-- A well-known role matches, or no two roles do. -/
def Policy.Determined (policy : Policy) (userGroups : List String) : Prop :=
  (∃ name ∈ priority, policy.Matches userGroups name) ∨
    ∀ a b, policy.Matches userGroups a → policy.Matches userGroups b → a = b

section
variable {policy other : Policy} {userGroups groups : List String}

theorem Reordered.lookup (h : Reordered policy other) (name : String) :
    other.config.roles.lookup name = policy.config.roles.lookup name :=
  AList.perm_lookup h.roles

theorem SameGroups.hasMember (h : SameGroups userGroups groups) (role : Role) :
    role.hasMember groups = role.hasMember userGroups := by
  rw [Bool.eq_iff_iff, Role.hasMember_iff, Role.hasMember_iff]
  simp only [← h _]

theorem Reordered.matches (h : Reordered policy other) (hg : SameGroups userGroups groups) :
    other.Matches groups name ↔ policy.Matches userGroups name := by
  simp only [Policy.Matches, h.lookup, hg.hasMember]

theorem Reordered.wellKnownMatch (h : Reordered policy other) (hg : SameGroups userGroups groups) :
    other.wellKnownMatch groups = policy.wellKnownMatch userGroups := by
  funext name
  rw [Bool.eq_iff_iff, Policy.wellKnownMatch_iff, Policy.wellKnownMatch_iff, h.matches hg]

theorem Reordered.isAllowed (h : Reordered policy other) (name : String) (request : Request) :
    other.isAllowed name request = policy.isAllowed name request := by
  unfold Policy.isAllowed
  rw [h.lookup]
  cases policy.config.roles.lookup name with
  | none => rfl
  | some role =>
    cases request <;>
      simp only [Policy.isCommandAllowed, Policy.isProgOpAllowed, Policy.isMapOpAllowed, h.system]

theorem Reordered.getRoleForGroups_eq_none (h : Reordered policy other)
    (hg : SameGroups userGroups groups) :
    other.getRoleForGroups groups = none ↔ policy.getRoleForGroups userGroups = none := by
  simp only [Policy.getRoleForGroups_eq_none, h.matches hg]

theorem Policy.Determined.getRoleForGroups (hd : policy.Determined userGroups)
    (h : Reordered policy other) (hg : SameGroups userGroups groups) :
    other.getRoleForGroups groups = policy.getRoleForGroups userGroups := by
  rcases hd with hknown | hunique
  · have hother : ∃ name ∈ priority, other.Matches groups name := by simpa only [h.matches hg]
    rw [Policy.getRoleForGroups_of_wellKnown hknown, Policy.getRoleForGroups_of_wellKnown hother,
      h.wellKnownMatch hg]
  · cases hr : policy.getRoleForGroups userGroups with
    | none => exact (h.getRoleForGroups_eq_none hg).mpr hr
    | some a =>
      cases hr' : other.getRoleForGroups groups with
      | none => exact absurd ((h.getRoleForGroups_eq_none hg).mp hr') (by simp [hr])
      | some b =>
        have hb := (h.matches hg).mp (Policy.getRoleForGroups_matches hr')
        exact congrArg some (hunique b a hb (Policy.getRoleForGroups_matches hr))

theorem Policy.Determined.authorizes (hd : policy.Determined userGroups) (h : Reordered policy other)
    (hg : SameGroups userGroups groups) :
    other.Authorizes groups request ↔ policy.Authorizes userGroups request := by
  simp only [Policy.Authorizes, hd.getRoleForGroups h hg, h.isAllowed]

/-- Some enumeration meets the entry of `name` first. -/
theorem exists_reordered (hm : policy.Matches userGroups name)
    (hcustom : ¬ ∃ name ∈ priority, policy.Matches userGroups name) :
    ∃ other, Reordered policy other ∧ other.getRoleForGroups userGroups = some name := by
  obtain ⟨entry, hentry, rfl, hmem⟩ := Policy.matches_iff_entry.mp hm
  obtain ⟨before, after, hsplit⟩ := List.append_of_mem hentry
  have hperm : (entry :: (before ++ after)).Perm policy.config.roles.entries :=
    hsplit ▸ List.perm_middle.symm
  have hnodup := (List.perm_nodupKeys hperm).mpr policy.config.roles.nodupKeys
  have hr : Reordered policy ⟨{ policy.config with roles := ⟨_, hnodup⟩ }⟩ := ⟨rfl, hperm⟩
  refine ⟨_, hr, ?_⟩
  rw [Policy.getRoleForGroups_of_custom (by simpa only [hr.matches fun _ => Iff.rfl])]
  simp only [List.find?_cons, hmem, Option.map_some]

end

/-- Whether the user has a role never depends on the enumeration. Which role,
and so what the user may do, is settled exactly for a determined user. -/
theorem role_resolution_iff (policy : Policy) (userGroups : List String) :
    (policy.Determined userGroups ↔
      ∀ other groups, Reordered policy other → SameGroups userGroups groups →
        other.getRoleForGroups groups = policy.getRoleForGroups userGroups) ∧
    (policy.Determined userGroups →
      ∀ other groups request, Reordered policy other → SameGroups userGroups groups →
        (other.Authorizes groups request ↔ policy.Authorizes userGroups request)) ∧
    ∀ other groups, Reordered policy other → SameGroups userGroups groups →
      (other.getRoleForGroups groups = none ↔ ∀ name, ¬ policy.Matches userGroups name) ∧
      ∀ name, other.getRoleForGroups groups = some name → policy.Matches userGroups name := by
  refine ⟨⟨?_, ?_⟩, ?_, ?_⟩
  · intro hd other groups hr hg
    exact hd.getRoleForGroups hr hg
  · intro hsame
    by_cases hknown : ∃ name ∈ priority, policy.Matches userGroups name
    · exact .inl hknown
    · refine .inr fun a b ha hb => ?_
      obtain ⟨firstA, hrA, hA⟩ := exists_reordered ha hknown
      obtain ⟨firstB, hrB, hB⟩ := exists_reordered hb hknown
      have hab : some a = some b := by
        rw [← hA, ← hB, hsame _ _ hrA fun _ => Iff.rfl, hsame _ _ hrB fun _ => Iff.rfl]
      exact Option.some.inj hab
  · intro hd other groups request hr hg
    exact hd.authorizes hr hg
  · intro other groups hr hg
    refine ⟨?_, fun name h => (hr.matches hg).mp (Policy.getRoleForGroups_matches h)⟩
    simp only [Policy.getRoleForGroups_eq_none, hr.matches hg]

-- Two custom roles: `tracers` may load kprobes, `auditors` may do nothing.
def tracersFirst : HashMap Role :=
  ((∅ : HashMap Role).insert "auditors" { description := none, groups := ["audit"] }).insert "tracers"
    { description := none, groups := ["trace"], commands := ["PROG_LOAD"],
      progTypes := (∅ : HashMap (List String)).insert "kprobe" ["load"] }

def auditorsFirst : HashMap Role :=
  ((∅ : HashMap Role).insert "tracers"
    { description := none, groups := ["trace"], commands := ["PROG_LOAD"],
      progTypes := (∅ : HashMap (List String)).insert "kprobe" ["load"] }).insert "auditors"
    { description := none, groups := ["audit"] }

theorem fallback_depends_on_order :
    ¬ ∀ (policy other : Policy) (userGroups groups : List String), Reordered policy other →
        SameGroups userGroups groups →
        other.getRoleForGroups groups = policy.getRoleForGroups userGroups := by
  intro h
  have hperm : auditorsFirst.entries.Perm tracersFirst.entries := List.Perm.swap ..
  exact absurd (h ⟨⟨none, tracersFirst⟩⟩ ⟨⟨none, auditorsFirst⟩⟩ ["audit", "trace"] ["audit", "trace"]
    ⟨rfl, hperm⟩ fun _ => Iff.rfl) (by decide)

def withEbpf (roles : HashMap Role) : Policy :=
  ⟨⟨none, roles.insert "ebpf" { description := none, groups := ["ebpf"] }⟩⟩

theorem ebpf_comes_first :
    (withEbpf tracersFirst).getRoleForGroups ["audit", "ebpf"] = some "ebpf" := by
  have hnone : ∀ name ∈ ["ebpf-admin", "ebpf-net"],
      ¬ (withEbpf tracersFirst).Matches ["audit", "ebpf"] name := by
    simp only [← Policy.wellKnownMatch_iff]
    decide
  obtain ⟨-, -, -, -, hebpf, -⟩ := role_resolution (withEbpf tracersFirst) ["audit", "ebpf"]
  exact hebpf (hnone _ (by decide)) (hnone _ (by decide)) (Policy.wellKnownMatch_iff.mp (by decide))

/-- A member of `ebpf` and of two custom roles has the role `ebpf` in every run. -/
theorem ebpf_resolution :
    (withEbpf auditorsFirst).getRoleForGroups ["trace", "ebpf", "audit", "ebpf"] =
      (withEbpf tracersFirst).getRoleForGroups ["audit", "trace", "ebpf"] := by
  refine (role_resolution_iff (withEbpf tracersFirst) ["audit", "trace", "ebpf"]).1.mp
    (.inl ⟨"ebpf", by decide, Policy.wellKnownMatch_iff.mp (by decide)⟩) _ _ ⟨rfl, ?_⟩ ?_
  · exact AList.perm_insert (List.Perm.swap ..)
  · intro group
    simp only [List.mem_cons, List.not_mem_nil, or_false]
    tauto

end BpfRbacd
