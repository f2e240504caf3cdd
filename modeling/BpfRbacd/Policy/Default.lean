import BpfRbacd.Policy.Roles
import BpfRbacd.Policy.TypeOps

/-!
# The policy the daemon starts with

`Policy::load`, the fallback in `main` and `Policy::default`. Reading a file
and the YAML decoder are the parameters `readToString` and `fromStr`; nothing
is assumed of them.

A file the decoder rejects is not told apart from a missing file, so the
built-in roles then govern the daemon. `rejected_policy_denies_iff` says for
every user and request whether that denies.
-/

namespace BpfRbacd

-- ---------------------------------------------------------------------------
-- The built-in roles
-- ---------------------------------------------------------------------------

section
variable {V : Type}

def HashMap.ofInserts (inserts : List (String × V)) : HashMap V :=
  inserts.foldl (fun map entry => map.insert entry.1 entry.2) ∅

end

def ebpfRole : Role where
  description := some "Tracing workloads"
  groups := ["ebpf"]
  commands := ["PROG_LOAD", "MAP_CREATE", "MAP_LOOKUP_ELEM", "MAP_UPDATE_ELEM", "LINK_CREATE",
    "BTF_LOAD"]
  progTypes := .ofInserts [
    ("kprobe", ["load", "attach"]),
    ("uprobe", ["load", "attach"]),
    ("tracepoint", ["load", "attach"]),
    ("perf_event", ["load", "attach"]),
    ("raw_tracepoint", ["load", "attach"])]
  mapTypes := .ofInserts [
    ("hash", ["create", "read", "write"]),
    ("array", ["create", "read", "write"]),
    ("perf_event_array", ["create", "read"]),
    ("ringbuf", ["create", "read"])]

def netRole : Role where
  description := some "Networking workloads"
  groups := ["ebpf-net"]
  commands := ["PROG_LOAD", "MAP_CREATE", "MAP_LOOKUP_ELEM", "MAP_UPDATE_ELEM", "LINK_CREATE",
    "PROG_ATTACH", "BTF_LOAD"]
  progTypes := .ofInserts [
    ("xdp", ["load", "attach", "detach"]),
    ("sched_cls", ["load", "attach", "detach"]),
    ("socket_filter", ["load", "attach"])]
  mapTypes := .ofInserts [
    ("hash", ["create", "read", "write"]),
    ("array", ["create", "read", "write"]),
    ("devmap", ["create", "read", "write"]),
    ("lru_hash", ["create", "read", "write"])]

def adminRole : Role where
  description := some "Full BPF access"
  groups := ["ebpf-admin"]
  commands := ["any"]
  progTypes := .ofInserts [("any", ["any"])]
  mapTypes := .ofInserts [("any", ["any"])]

def Policy.default : Policy :=
  ⟨⟨none, .ofInserts [("ebpf", ebpfRole), ("ebpf-net", netRole), ("ebpf-admin", adminRole)]⟩⟩

-- ---------------------------------------------------------------------------
-- Loading
-- ---------------------------------------------------------------------------

section
variable {ε : Type} (readToString : String → Except ε String) (fromStr : String → Except ε PolicyConfig)

def Policy.load (path : String) : Except ε Policy := do
  let contents ← readToString path
  let config ← fromStr contents
  return ⟨config⟩

def policyPath : String := "/etc/bpf-rbac/policy.yaml"

/-- `Policy::load(..).unwrap_or_else(|_| Policy::default())`. -/
def startupPolicy : Policy :=
  match Policy.load readToString fromStr policyPath with
  | .ok policy => policy
  | .error _ => Policy.default

variable {readToString fromStr}

theorem startupPolicy_of_rejected (hread : readToString policyPath = .ok contents)
    (hyaml : fromStr contents = .error e) :
    startupPolicy readToString fromStr = Policy.default := by
  simp [startupPolicy, Policy.load, hread, hyaml, bind, Except.bind]

end

-- ---------------------------------------------------------------------------
-- What the built-in roles allow
-- ---------------------------------------------------------------------------

/-- The requests of the `ebpf` role. -/
def TracingRequest : Request → Prop
  | .loadProgram progType _ _ =>
    progType ∈ ["kprobe", "uprobe", "tracepoint", "perf_event", "raw_tracepoint"]
  | .createMap mapType _ _ _ _ => mapType ∈ ["hash", "array", "perf_event_array", "ringbuf"]
  | .attach _ _ _ => False

/-- The requests of the `ebpf-net` role. -/
def NetRequest : Request → Prop
  | .loadProgram progType _ _ => progType ∈ ["xdp", "sched_cls", "socket_filter"]
  | .createMap mapType _ _ _ _ => mapType ∈ ["hash", "array", "devmap", "lru_hash"]
  | .attach attachType _ _ => attachType ∈ ["xdp", "sched_cls", "socket_filter"]

/-- Members of `ebpf-admin` may do everything; other members of `ebpf-net` have
its requests, and other members of `ebpf` those of tracing. -/
def BuiltinGrants (userGroups : List String) (request : Request) : Prop :=
  if "ebpf-admin" ∈ userGroups then True
  else if "ebpf-net" ∈ userGroups then NetRequest request
  else "ebpf" ∈ userGroups ∧ TracingRequest request

section
variable {policy : Policy} {role : Role}

/-- A request under a role and no ceiling: the command, then the type. -/
theorem Policy.isAllowed_uncapped (hrole : policy.config.roles.lookup name = some role)
    (hsystem : policy.config.systemPolicy = none) (request : Request) :
    policy.isAllowed name request = true ↔
      match request with
      | .loadProgram progType _ _ =>
        allowsName role.commands "PROG_LOAD" = true ∧ checkTypeOp role.progTypes progType "load" = true
      | .createMap mapType _ _ _ _ =>
        allowsName role.commands "MAP_CREATE" = true ∧ checkTypeOp role.mapTypes mapType "create" = true
      | .attach attachType _ _ =>
        allowsName role.commands "PROG_ATTACH" = true ∧
          checkTypeOp role.progTypes attachType "attach" = true := by
  cases request <;>
    simp [Policy.isAllowed, hrole, hsystem, Policy.isCommandAllowed, Policy.isProgOpAllowed,
      Policy.isMapOpAllowed, typeOpAllowed]

/-- A map without a wildcard whose lists all grant `op` grants it to its keys. -/
theorem checkTypeOp_of_keys {types : HashMap (List String)} {names : List String}
    (hkeys : types.keys.Perm names) (hany : "any" ∉ names)
    (hops : ∀ entry ∈ types.entries, allowsName entry.2 op = true) :
    checkTypeOp types name op = true ↔ name ∈ names := by
  have hmem : ∀ name, name ∈ types ↔ name ∈ names := fun _ => AList.mem_keys.trans hkeys.mem_iff
  rw [checkTypeOp_of_ops, hmem, hmem, or_iff_right hany]
  intro ops h
  obtain ⟨entry, hentry, rfl⟩ := opsFor_mem_entries h
  exact hops entry hentry

end

theorem default_isAllowed_admin (request : Request) :
    Policy.default.isAllowed "ebpf-admin" request = true := by
  have hany : ∀ name op, checkTypeOp (.ofInserts [("any", ["any"])]) name op = true := fun _ _ => rfl
  rw [Policy.isAllowed_uncapped (show _ = some adminRole from rfl) rfl]
  cases request with
  | loadProgram progType => exact ⟨rfl, hany progType "load"⟩
  | createMap mapType => exact ⟨rfl, hany mapType "create"⟩
  | attach attachType => exact ⟨rfl, hany attachType "attach"⟩

theorem default_isAllowed_net (request : Request) :
    Policy.default.isAllowed "ebpf-net" request = true ↔ NetRequest request := by
  rw [Policy.isAllowed_uncapped (show _ = some netRole from rfl) rfl]
  cases request with
  | loadProgram progType =>
    refine (and_iff_right (by decide)).trans (checkTypeOp_of_keys ?_ ?_ ?_) <;> decide
  | createMap mapType =>
    refine (and_iff_right (by decide)).trans (checkTypeOp_of_keys ?_ ?_ ?_) <;> decide
  | attach attachType =>
    refine (and_iff_right (by decide)).trans (checkTypeOp_of_keys ?_ ?_ ?_) <;> decide

theorem default_isAllowed_ebpf (request : Request) :
    Policy.default.isAllowed "ebpf" request = true ↔ TracingRequest request := by
  rw [Policy.isAllowed_uncapped (show _ = some ebpfRole from rfl) rfl]
  cases request with
  | loadProgram progType =>
    refine (and_iff_right (by decide)).trans (checkTypeOp_of_keys ?_ ?_ ?_) <;> decide
  | createMap mapType =>
    refine (and_iff_right (by decide)).trans (checkTypeOp_of_keys ?_ ?_ ?_) <;> decide
  | attach attachType =>
    -- the role may not attach at all
    have hcommand : allowsName ebpfRole.commands "PROG_ATTACH" = false := by decide
    simp [hcommand, TracingRequest]

-- ---------------------------------------------------------------------------
-- Who has a built-in role
-- ---------------------------------------------------------------------------

theorem default_matches :
    (Policy.default.Matches userGroups "ebpf-admin" ↔ "ebpf-admin" ∈ userGroups) ∧
    (Policy.default.Matches userGroups "ebpf-net" ↔ "ebpf-net" ∈ userGroups) ∧
    (Policy.default.Matches userGroups "ebpf" ↔ "ebpf" ∈ userGroups) := by
  have hlookup : Policy.default.config.roles.lookup "ebpf-admin" = some adminRole ∧
      Policy.default.config.roles.lookup "ebpf-net" = some netRole ∧
      Policy.default.config.roles.lookup "ebpf" = some ebpfRole := ⟨rfl, rfl, rfl⟩
  simp [Policy.Matches, hlookup, Role.hasMember_iff, adminRole, netRole, ebpfRole]

theorem default_matches_wellKnown (h : Policy.default.Matches userGroups name) : name ∈ priority := by
  obtain ⟨entry, hentry, rfl, -⟩ := Policy.matches_iff_entry.mp h
  have hkeys : ∀ entry ∈ Policy.default.config.roles.entries, entry.1 ∈ priority := by decide
  exact hkeys entry hentry

theorem default_determined (userGroups : List String) : Policy.default.Determined userGroups := by
  by_cases hknown : ∃ name ∈ priority, Policy.default.Matches userGroups name
  · exact .inl hknown
  · refine .inr fun a _ ha => ?_
    exact absurd ⟨a, default_matches_wellKnown ha, ha⟩ hknown

theorem default_getRoleForGroups (userGroups : List String) :
    Policy.default.getRoleForGroups userGroups =
      if "ebpf-admin" ∈ userGroups then some "ebpf-admin"
      else if "ebpf-net" ∈ userGroups then some "ebpf-net"
      else if "ebpf" ∈ userGroups then some "ebpf" else none := by
  obtain ⟨hadmin, hnet, hebpf⟩ := @default_matches userGroups
  rw [← Policy.wellKnownMatch_iff] at hadmin hnet hebpf
  by_cases hknown : ∃ name ∈ priority, Policy.default.Matches userGroups name
  · rw [Policy.getRoleForGroups_of_wellKnown hknown, priority]
    simp only [← hadmin, ← hnet, ← hebpf, List.find?_cons, List.find?_nil]
    cases Policy.default.wellKnownMatch userGroups "ebpf-admin" <;>
      cases Policy.default.wellKnownMatch userGroups "ebpf-net" <;>
        cases Policy.default.wellKnownMatch userGroups "ebpf" <;> rfl
  · have hnone := Policy.getRoleForGroups_eq_none.mpr fun name hm =>
      hknown ⟨name, default_matches_wellKnown hm, hm⟩
    have hout : ∀ name ∈ priority, ¬ Policy.default.wellKnownMatch userGroups name = true :=
      fun name hname hm => hknown ⟨name, hname, Policy.wellKnownMatch_iff.mp hm⟩
    rw [hnone, if_neg (mt hadmin.mpr (hout _ (by decide))), if_neg (mt hnet.mpr (hout _ (by decide))),
      if_neg (mt hebpf.mpr (hout _ (by decide)))]

theorem default_authorizes_iff :
    Policy.default.Authorizes userGroups request ↔ BuiltinGrants userGroups request := by
  rw [Policy.Authorizes, BuiltinGrants, default_getRoleForGroups]
  split
  · simp [default_isAllowed_admin]
  · split
    · simp [default_isAllowed_net]
    · split <;> simp_all [default_isAllowed_ebpf]

/-- A file the decoder rejects authorizes nothing exactly for the users and
requests that the built-in roles do not grant, in every run of the daemon. -/
theorem rejected_policy_denies_iff {ε : Type} (readToString : String → Except ε String)
    (fromStr : String → Except ε PolicyConfig) (contents : String) (e : ε) (policy : Policy)
    (hread : readToString policyPath = .ok contents) (hyaml : fromStr contents = .error e)
    (hpolicy : Reordered (startupPolicy readToString fromStr) policy)
    (userGroups : List String) (request : Request) :
    (∀ name, policy.getRoleForGroups userGroups = some name → policy.isAllowed name request = false) ↔
      ¬ BuiltinGrants userGroups request := by
  rw [startupPolicy_of_rejected hread hyaml] at hpolicy
  have hsame : policy.Authorizes userGroups request ↔ Policy.default.Authorizes userGroups request :=
    (default_determined userGroups).authorizes hpolicy fun _ => Iff.rfl
  rw [← default_authorizes_iff, ← hsame, Policy.Authorizes]
  simp only [not_exists, not_and, Bool.not_eq_true]

def rejectsOpenBracket (document : String) : Except String PolicyConfig :=
  if document = "roles: [" then .error "did not find expected node content"
  else .ok { roles := ∅ }

def loadKprobe : Request := .loadProgram "kprobe" "/tmp/probe.o" "probe"

theorem rejected_policy_denies_stranger : ¬ BuiltinGrants ["users"] loadKprobe ∧
    ∀ name, (startupPolicy (fun _ => .ok "roles: [") rejectsOpenBracket).getRoleForGroups ["users"] =
      some name → (startupPolicy (fun _ => .ok "roles: [") rejectsOpenBracket).isAllowed name
        loadKprobe = false := by
  have hstranger : ¬ BuiltinGrants ["users"] loadKprobe := by simp [BuiltinGrants]
  exact ⟨hstranger, (rejected_policy_denies_iff (fun _ => .ok "roles: [") rejectsOpenBracket "roles: [" _ _
    rfl rfl ⟨rfl, List.Perm.refl _⟩ ["users"] loadKprobe).mpr hstranger⟩

theorem rejected_policy_authorizes_admin :
    ¬ ∀ (readToString : String → Except String String) (fromStr : String → Except String PolicyConfig)
        (contents e : String), readToString policyPath = .ok contents → fromStr contents = .error e →
      ∀ (userGroups : List String) (request : Request) (name : String),
        (startupPolicy readToString fromStr).getRoleForGroups userGroups = some name →
          (startupPolicy readToString fromStr).isAllowed name request = false := by
  intro h
  have hdefault : startupPolicy (fun _ => .ok "roles: [") rejectsOpenBracket = Policy.default :=
    startupPolicy_of_rejected rfl rfl
  have hdenied := h (fun _ => .ok "roles: [") rejectsOpenBracket "roles: [" _ rfl rfl
    ["ebpf-admin"] loadKprobe "ebpf-admin" rfl
  rw [hdefault, default_isAllowed_admin] at hdenied
  exact absurd hdenied (by decide)

end BpfRbacd
