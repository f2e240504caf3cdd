import BpfRbacd.Policy.Default

/-!
# The shipped policy

`config/policy.yaml` as the decoder reads it: a ceiling, the two roles for
tracing and networking, and an administrator with wildcards. What it grants in
closed form is `shipped_authorizes_iff`.

The daemon falls back to the built-in policy when the file is missing or
rejected. `fallback_within_shipped_iff` says when that gives a user no more than
the file would have: the built-in policy has no ceiling, so its administrators
alone can gain.
-/

namespace BpfRbacd

-- ---------------------------------------------------------------------------
-- The file
-- ---------------------------------------------------------------------------

def ceilingProgTypes : List (String × List String) := [
  ("kprobe", ["load", "attach", "detach"]),
  ("kretprobe", ["load", "attach", "detach"]),
  ("uprobe", ["load", "attach", "detach"]),
  ("uretprobe", ["load", "attach", "detach"]),
  ("tracepoint", ["load", "attach", "detach"]),
  ("raw_tracepoint", ["load", "attach", "detach"]),
  ("perf_event", ["load", "attach", "detach"]),
  ("fentry", ["load", "attach", "detach"]),
  ("fexit", ["load", "attach", "detach"]),
  ("xdp", ["load", "attach", "detach"]),
  ("sched_cls", ["load", "attach", "detach"]),
  ("sched_act", ["load", "attach", "detach"]),
  ("socket_filter", ["load", "attach", "detach"]),
  ("sk_skb", ["load", "attach"]),
  ("sk_msg", ["load", "attach"]),
  ("sock_ops", ["load", "attach"])]

def ceilingMapTypes : List (String × List String) := [
  ("hash", ["create", "read", "write"]),
  ("percpu_hash", ["create", "read", "write"]),
  ("array", ["create", "read", "write"]),
  ("percpu_array", ["create", "read", "write"]),
  ("perf_event_array", ["create", "read"]),
  ("ringbuf", ["create", "read"]),
  ("stack_trace", ["create", "read"]),
  ("lru_hash", ["create", "read", "write"]),
  ("lru_percpu_hash", ["create", "read", "write"]),
  ("devmap", ["create", "read", "write"]),
  ("devmap_hash", ["create", "read", "write"]),
  ("cpumap", ["create", "read", "write"]),
  ("xskmap", ["create", "read", "write"]),
  ("sockmap", ["create", "read", "write"]),
  ("sockhash", ["create", "read", "write"])]

def shippedCeiling : SystemPolicy where
  commands := ["PROG_LOAD", "MAP_CREATE", "MAP_LOOKUP_ELEM", "MAP_UPDATE_ELEM", "MAP_DELETE_ELEM",
    "MAP_GET_NEXT_KEY", "LINK_CREATE", "OBJ_PIN", "OBJ_GET", "OBJ_GET_INFO_BY_FD", "BTF_LOAD",
    "PROG_ATTACH", "PROG_DETACH"]
  progTypes := .ofInserts ceilingProgTypes
  mapTypes := .ofInserts ceilingMapTypes

def tracingProgTypes : List (String × List String) := [
  ("kprobe", ["load", "attach"]),
  ("kretprobe", ["load", "attach"]),
  ("uprobe", ["load", "attach"]),
  ("uretprobe", ["load", "attach"]),
  ("tracepoint", ["load", "attach"]),
  ("raw_tracepoint", ["load", "attach"]),
  ("perf_event", ["load", "attach"]),
  ("fentry", ["load", "attach"]),
  ("fexit", ["load", "attach"])]

def tracingMapTypes : List (String × List String) := [
  ("hash", ["create", "read", "write"]),
  ("percpu_hash", ["create", "read", "write"]),
  ("array", ["create", "read", "write"]),
  ("percpu_array", ["create", "read", "write"]),
  ("perf_event_array", ["create", "read"]),
  ("ringbuf", ["create", "read"]),
  ("stack_trace", ["create", "read"])]

def shippedEbpf : Role where
  description := some "Tracing and observability programs"
  groups := ["ebpf"]
  commands := ["PROG_LOAD", "MAP_CREATE", "MAP_LOOKUP_ELEM", "MAP_UPDATE_ELEM", "MAP_DELETE_ELEM",
    "MAP_GET_NEXT_KEY", "LINK_CREATE", "OBJ_PIN", "OBJ_GET", "OBJ_GET_INFO_BY_FD", "BTF_LOAD"]
  progTypes := .ofInserts tracingProgTypes
  mapTypes := .ofInserts tracingMapTypes

def networkProgTypes : List (String × List String) := [
  ("xdp", ["load", "attach", "detach"]),
  ("sched_cls", ["load", "attach", "detach"]),
  ("sched_act", ["load", "attach", "detach"]),
  ("socket_filter", ["load", "attach"]),
  ("sk_skb", ["load", "attach"]),
  ("sk_msg", ["load", "attach"]),
  ("sock_ops", ["load", "attach"])]

def networkMapTypes : List (String × List String) := [
  ("hash", ["create", "read", "write"]),
  ("percpu_hash", ["create", "read", "write"]),
  ("array", ["create", "read", "write"]),
  ("percpu_array", ["create", "read", "write"]),
  ("lru_hash", ["create", "read", "write"]),
  ("lru_percpu_hash", ["create", "read", "write"]),
  ("devmap", ["create", "read", "write"]),
  ("devmap_hash", ["create", "read", "write"]),
  ("cpumap", ["create", "read", "write"]),
  ("xskmap", ["create", "read", "write"]),
  ("sockmap", ["create", "read", "write"]),
  ("sockhash", ["create", "read", "write"])]

def shippedNet : Role where
  description := some "Networking programs"
  groups := ["ebpf-net"]
  commands := ["PROG_LOAD", "MAP_CREATE", "MAP_LOOKUP_ELEM", "MAP_UPDATE_ELEM", "MAP_DELETE_ELEM",
    "MAP_GET_NEXT_KEY", "LINK_CREATE", "OBJ_PIN", "OBJ_GET", "OBJ_GET_INFO_BY_FD", "BTF_LOAD",
    "PROG_ATTACH", "PROG_DETACH"]
  progTypes := .ofInserts networkProgTypes
  mapTypes := .ofInserts networkMapTypes

def shippedAdmin : Role where
  description := some "Full BPF access for administrators"
  groups := ["ebpf-admin", "wheel"]
  commands := ["any"]
  progTypes := .ofInserts [("any", ["any"])]
  mapTypes := .ofInserts [("any", ["any"])]

def Policy.shipped : Policy :=
  ⟨⟨some shippedCeiling,
    .ofInserts [("ebpf", shippedEbpf), ("ebpf-net", shippedNet), ("ebpf-admin", shippedAdmin)]⟩⟩

-- ---------------------------------------------------------------------------
-- Maps from a list of inserts
-- ---------------------------------------------------------------------------

section
variable {V : Type} {inserts : List (String × V)} {map : HashMap V}

theorem mem_inserts {name : String} :
    name ∈ inserts.foldl (fun map entry => map.insert entry.1 entry.2) map ↔
      name ∈ map ∨ name ∈ inserts.map (·.1) := by
  induction inserts generalizing map with
  | nil => simp
  | cons entry inserts ih => simp [ih, or_left_comm, or_assoc]

theorem HashMap.mem_ofInserts {name : String} :
    name ∈ HashMap.ofInserts inserts ↔ name ∈ inserts.map (·.1) := by
  rw [ofInserts, mem_inserts]
  simp

theorem forall_inserts {P : V → Prop} (hmap : ∀ entry ∈ map.entries, P entry.2)
    (h : ∀ entry ∈ inserts, P entry.2) :
    ∀ entry ∈ (inserts.foldl (fun map entry => map.insert entry.1 entry.2) map).entries, P entry.2 := by
  induction inserts generalizing map with
  | nil => exact hmap
  | cons entry inserts ih =>
    obtain ⟨hentry, hinserts⟩ := List.forall_mem_cons.mp h
    apply ih _ hinserts
    intro other hother
    rw [AList.entries_insert] at hother
    rcases List.mem_cons.mp hother with rfl | hother
    · exact hentry
    · exact hmap other ((List.kerase_sublist _ _).subset hother)

theorem HashMap.forall_ofInserts {P : V → Prop} (h : ∀ entry ∈ inserts, P entry.2) :
    ∀ entry ∈ (HashMap.ofInserts inserts).entries, P entry.2 := by
  apply forall_inserts _ h
  simp

end

/-- Without a wildcard, an operation that every type lists is granted to the types listed. -/
theorem checkTypeOp_ofInserts {types : List (String × List String)} (hany : "any" ∉ types.map (·.1))
    (hops : ∀ entry ∈ types, allowsName entry.2 op = true) :
    checkTypeOp (.ofInserts types) name op = true ↔ name ∈ types.map (·.1) := by
  rw [checkTypeOp_of_ops, HashMap.mem_ofInserts, HashMap.mem_ofInserts, or_iff_right hany]
  intro ops h
  obtain ⟨entry, hentry, rfl⟩ := opsFor_mem_entries h
  exact HashMap.forall_ofInserts (P := fun ops => allowsName ops op = true) hops entry hentry

-- ---------------------------------------------------------------------------
-- What the roles allow
-- ---------------------------------------------------------------------------

/-- The requests within the ceiling. -/
def CeilingRequest : Request → Prop
  | .loadProgram progType _ _ => progType ∈ ceilingProgTypes.map (·.1)
  | .createMap mapType _ _ _ _ => mapType ∈ ceilingMapTypes.map (·.1)
  | .attach attachType _ _ => attachType ∈ ceilingProgTypes.map (·.1)

def ShippedTracing : Request → Prop
  | .loadProgram progType _ _ => progType ∈ tracingProgTypes.map (·.1)
  | .createMap mapType _ _ _ _ => mapType ∈ tracingMapTypes.map (·.1)
  | .attach _ _ _ => False

def ShippedNetwork : Request → Prop
  | .loadProgram progType _ _ => progType ∈ networkProgTypes.map (·.1)
  | .createMap mapType _ _ _ _ => mapType ∈ networkMapTypes.map (·.1)
  | .attach attachType _ _ => attachType ∈ networkProgTypes.map (·.1)

/-- Administrators have what the ceiling leaves, and the others their role. -/
def ShippedGrants (userGroups : List String) (request : Request) : Prop :=
  if "ebpf-admin" ∈ userGroups ∨ "wheel" ∈ userGroups then CeilingRequest request
  else if "ebpf-net" ∈ userGroups then ShippedNetwork request
  else "ebpf" ∈ userGroups ∧ ShippedTracing request

section
variable {policy : Policy} {role : Role} {system : SystemPolicy}

/-- A request under a role and a ceiling. -/
theorem Policy.isAllowed_capped (hrole : policy.config.roles.lookup name = some role)
    (hsystem : policy.config.systemPolicy = some system) (request : Request) :
    policy.isAllowed name request = true ↔
      match request with
      | .loadProgram progType _ _ =>
        (allowsName role.commands "PROG_LOAD" = true ∧ allowsName system.commands "PROG_LOAD" = true) ∧
          checkTypeOp role.progTypes progType "load" = true ∧ checkTypeOp system.progTypes progType "load" = true
      | .createMap mapType _ _ _ _ =>
        (allowsName role.commands "MAP_CREATE" = true ∧ allowsName system.commands "MAP_CREATE" = true) ∧
          checkTypeOp role.mapTypes mapType "create" = true ∧ checkTypeOp system.mapTypes mapType "create" = true
      | .attach attachType _ _ =>
        (allowsName role.commands "PROG_ATTACH" = true ∧ allowsName system.commands "PROG_ATTACH" = true) ∧
          checkTypeOp role.progTypes attachType "attach" = true ∧
            checkTypeOp system.progTypes attachType "attach" = true := by
  cases request <;>
    simp [Policy.isAllowed, hrole, hsystem, Policy.isCommandAllowed, Policy.isProgOpAllowed,
      Policy.isMapOpAllowed, typeOpAllowed]

end

theorem ceiling_load : checkTypeOp shippedCeiling.progTypes name "load" = true ↔
    name ∈ ceilingProgTypes.map (·.1) := checkTypeOp_ofInserts (by decide) (by decide)

theorem ceiling_attach : checkTypeOp shippedCeiling.progTypes name "attach" = true ↔
    name ∈ ceilingProgTypes.map (·.1) := checkTypeOp_ofInserts (by decide) (by decide)

theorem ceiling_create : checkTypeOp shippedCeiling.mapTypes name "create" = true ↔
    name ∈ ceilingMapTypes.map (·.1) := checkTypeOp_ofInserts (by decide) (by decide)

theorem shipped_isAllowed_admin (request : Request) :
    Policy.shipped.isAllowed "ebpf-admin" request = true ↔ CeilingRequest request := by
  have hany : ∀ name op, checkTypeOp (.ofInserts [("any", ["any"])]) name op = true := fun _ _ => rfl
  rw [Policy.isAllowed_capped (show _ = some shippedAdmin from rfl) (show _ = some shippedCeiling from rfl)]
  cases request with
  | loadProgram progType =>
    exact (and_iff_right (by decide)).trans ((and_iff_right (hany progType "load")).trans ceiling_load)
  | createMap mapType =>
    exact (and_iff_right (by decide)).trans ((and_iff_right (hany mapType "create")).trans ceiling_create)
  | attach attachType =>
    exact (and_iff_right (by decide)).trans ((and_iff_right (hany attachType "attach")).trans ceiling_attach)

theorem network_in_ceiling : networkProgTypes.map (·.1) ⊆ ceilingProgTypes.map (·.1) ∧
    networkMapTypes.map (·.1) ⊆ ceilingMapTypes.map (·.1) := by decide

theorem tracing_in_ceiling : tracingProgTypes.map (·.1) ⊆ ceilingProgTypes.map (·.1) ∧
    tracingMapTypes.map (·.1) ⊆ ceilingMapTypes.map (·.1) := by decide

/-- A ceiling that lists all that the role lists takes nothing from it. -/
theorem checkTypeOp_under {types ceiling : List (String × List String)}
    (hany : "any" ∉ types.map (·.1) ∧ "any" ∉ ceiling.map (·.1))
    (hops : (∀ entry ∈ types, allowsName entry.2 op = true) ∧ ∀ entry ∈ ceiling, allowsName entry.2 op = true)
    (hsub : types.map (·.1) ⊆ ceiling.map (·.1)) :
    checkTypeOp (.ofInserts types) name op = true ∧ checkTypeOp (.ofInserts ceiling) name op = true ↔
      name ∈ types.map (·.1) := by
  rw [checkTypeOp_ofInserts hany.1 hops.1, checkTypeOp_ofInserts hany.2 hops.2]
  exact and_iff_left_of_imp fun h => hsub h

theorem shipped_isAllowed_net (request : Request) :
    Policy.shipped.isAllowed "ebpf-net" request = true ↔ ShippedNetwork request := by
  obtain ⟨hprogs, hmaps⟩ := network_in_ceiling
  rw [Policy.isAllowed_capped (show _ = some shippedNet from rfl) (show _ = some shippedCeiling from rfl)]
  cases request with
  | loadProgram => exact (and_iff_right (by decide)).trans (checkTypeOp_under (by decide) (by decide) hprogs)
  | createMap => exact (and_iff_right (by decide)).trans (checkTypeOp_under (by decide) (by decide) hmaps)
  | attach => exact (and_iff_right (by decide)).trans (checkTypeOp_under (by decide) (by decide) hprogs)

theorem shipped_isAllowed_ebpf (request : Request) :
    Policy.shipped.isAllowed "ebpf" request = true ↔ ShippedTracing request := by
  obtain ⟨hprogs, hmaps⟩ := tracing_in_ceiling
  rw [Policy.isAllowed_capped (show _ = some shippedEbpf from rfl) (show _ = some shippedCeiling from rfl)]
  cases request with
  | loadProgram => exact (and_iff_right (by decide)).trans (checkTypeOp_under (by decide) (by decide) hprogs)
  | createMap => exact (and_iff_right (by decide)).trans (checkTypeOp_under (by decide) (by decide) hmaps)
  | attach attachType =>
    have hcommand : allowsName shippedEbpf.commands "PROG_ATTACH" = false := by decide
    simp [hcommand, ShippedTracing]

-- ---------------------------------------------------------------------------
-- Who has which role
-- ---------------------------------------------------------------------------

/-- With no role beside the well-known ones, priority alone decides. -/
theorem Policy.getRoleForGroups_of_priority {policy : Policy}
    (hkeys : ∀ entry ∈ policy.config.roles.entries, entry.1 ∈ priority) (userGroups : List String) :
    policy.getRoleForGroups userGroups = priority.find? (policy.wellKnownMatch userGroups) := by
  by_cases hknown : ∃ name ∈ priority, policy.Matches userGroups name
  · exact getRoleForGroups_of_wellKnown hknown
  · have hmatches : ∀ name, ¬ policy.Matches userGroups name := by
      intro name hm
      obtain ⟨entry, hentry, rfl, -⟩ := matches_iff_entry.mp hm
      exact hknown ⟨entry.1, hkeys entry hentry, hm⟩
    rw [getRoleForGroups_eq_none.mpr hmatches, eq_comm, List.find?_eq_none]
    intro name hname hm
    exact hmatches name (wellKnownMatch_iff.mp hm)

theorem shipped_wellKnown : ∀ entry ∈ Policy.shipped.config.roles.entries, entry.1 ∈ priority := by decide

theorem shipped_determined (userGroups : List String) : Policy.shipped.Determined userGroups := by
  by_cases hknown : ∃ name ∈ priority, Policy.shipped.Matches userGroups name
  · exact .inl hknown
  · refine .inr fun a _ ha => ?_
    obtain ⟨entry, hentry, rfl, -⟩ := Policy.matches_iff_entry.mp ha
    exact absurd ⟨entry.1, shipped_wellKnown entry hentry, ha⟩ hknown

theorem shipped_getRoleForGroups (userGroups : List String) :
    Policy.shipped.getRoleForGroups userGroups =
      if "ebpf-admin" ∈ userGroups ∨ "wheel" ∈ userGroups then some "ebpf-admin"
      else if "ebpf-net" ∈ userGroups then some "ebpf-net"
      else if "ebpf" ∈ userGroups then some "ebpf" else none := by
  have hadmin : Policy.shipped.wellKnownMatch userGroups "ebpf-admin" =
      decide ("ebpf-admin" ∈ userGroups ∨ "wheel" ∈ userGroups) := by
    show shippedAdmin.hasMember userGroups = _
    simp [Role.hasMember, shippedAdmin]
  have hnet : Policy.shipped.wellKnownMatch userGroups "ebpf-net" = decide ("ebpf-net" ∈ userGroups) := by
    show shippedNet.hasMember userGroups = _
    simp [Role.hasMember, shippedNet]
  have hebpf : Policy.shipped.wellKnownMatch userGroups "ebpf" = decide ("ebpf" ∈ userGroups) := by
    show shippedEbpf.hasMember userGroups = _
    simp [Role.hasMember, shippedEbpf]
  rw [Policy.getRoleForGroups_of_priority shipped_wellKnown, priority]
  simp only [List.find?_cons, List.find?_nil, hadmin, hnet, hebpf]
  by_cases ha : "ebpf-admin" ∈ userGroups ∨ "wheel" ∈ userGroups
  · simp [ha]
  · by_cases hn : "ebpf-net" ∈ userGroups
    · simp [ha, hn]
    · by_cases he : "ebpf" ∈ userGroups <;> simp [ha, hn, he]

theorem shipped_grants : Policy.shipped.Authorizes userGroups request ↔ ShippedGrants userGroups request := by
  rw [Policy.Authorizes, ShippedGrants, shipped_getRoleForGroups]
  split
  · simp [shipped_isAllowed_admin]
  · split
    · simp [shipped_isAllowed_net]
    · split <;> simp_all [shipped_isAllowed_ebpf]

/-- What the shipped file grants, in whatever order a run enumerates its roles. -/
theorem shipped_authorizes_iff (policy : Policy) (h : Reordered Policy.shipped policy)
    (userGroups : List String)
    (request : Request) : policy.Authorizes userGroups request ↔ ShippedGrants userGroups request :=
  ((shipped_determined userGroups).authorizes h fun _ => Iff.rfl).trans shipped_grants

theorem wheel_may_not_load_lsm :
    ¬ Policy.shipped.backwards.Authorizes ["alice", "wheel"] (.loadProgram "lsm" "/tmp/hook.o" "hook") := by
  rw [shipped_authorizes_iff Policy.shipped.backwards (reordered_backwards _)]
  simp [ShippedGrants, CeilingRequest, ceilingProgTypes]

-- ---------------------------------------------------------------------------
-- Without the file
-- ---------------------------------------------------------------------------

theorem TracingRequest.shipped (h : TracingRequest request) : ShippedTracing request := by
  cases request with
  | loadProgram => exact (show _ ⊆ tracingProgTypes.map (·.1) by decide) h
  | createMap => exact (show _ ⊆ tracingMapTypes.map (·.1) by decide) h
  | attach => exact h

theorem NetRequest.shipped (h : NetRequest request) : ShippedNetwork request := by
  cases request with
  | loadProgram => exact (show _ ⊆ networkProgTypes.map (·.1) by decide) h
  | createMap => exact (show _ ⊆ networkMapTypes.map (·.1) by decide) h
  | attach => exact (show _ ⊆ networkProgTypes.map (·.1) by decide) h

theorem ShippedTracing.ceiling (h : ShippedTracing request) : CeilingRequest request := by
  cases request with
  | loadProgram => exact tracing_in_ceiling.1 h
  | createMap => exact tracing_in_ceiling.2 h
  | attach => exact h.elim

theorem ShippedNetwork.ceiling (h : ShippedNetwork request) : CeilingRequest request := by
  cases request with
  | loadProgram => exact network_in_ceiling.1 h
  | createMap => exact network_in_ceiling.2 h
  | attach => exact network_in_ceiling.1 h

/-- The built-in policy gives a user no more than the shipped one, unless it
makes them an administrator and they ask for what the ceiling leaves out. The
two runs may enumerate their roles in any order. -/
theorem fallback_within_shipped_iff (fallback shipped : Policy)
    (hfallback : Reordered Policy.default fallback) (hshipped : Reordered Policy.shipped shipped)
    (userGroups : List String) (request : Request) :
    (fallback.Authorizes userGroups request → shipped.Authorizes userGroups request) ↔
      ("ebpf-admin" ∈ userGroups → CeilingRequest request) := by
  rw [(default_determined userGroups).authorizes hfallback fun _ => Iff.rfl,
    (shipped_determined userGroups).authorizes hshipped fun _ => Iff.rfl,
    default_authorizes_iff, shipped_grants, BuiltinGrants, ShippedGrants]
  by_cases hadmin : "ebpf-admin" ∈ userGroups
  · simp [hadmin]
  · rw [if_neg hadmin]
    refine iff_of_true (fun h => ?_) fun h => absurd h hadmin
    by_cases hnet : "ebpf-net" ∈ userGroups
    · rw [if_pos hnet] at h
      by_cases hwheel : "wheel" ∈ userGroups
      · simpa [hwheel] using h.shipped.ceiling
      · simpa [hadmin, hwheel, hnet] using h.shipped
    · rw [if_neg hnet] at h
      obtain ⟨hebpf, h⟩ := h
      by_cases hwheel : "wheel" ∈ userGroups
      · simpa [hwheel] using h.shipped.ceiling
      · simpa [hadmin, hwheel, hnet, hebpf] using h.shipped

/-- An administrator may load an LSM program only without the file. -/
theorem fallback_lets_admin_load_lsm :
    ¬ (Policy.default.backwards.Authorizes ["ebpf-admin"] (.loadProgram "lsm" "/tmp/hook.o" "hook") →
      Policy.shipped.backwards.Authorizes ["ebpf-admin"] (.loadProgram "lsm" "/tmp/hook.o" "hook")) := by
  rw [fallback_within_shipped_iff _ _ (reordered_backwards _) (reordered_backwards _)]
  simp [CeilingRequest, ceilingProgTypes]

end BpfRbacd
