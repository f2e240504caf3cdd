import BpfRbacd.Daemon.Groups
import BpfRbacd.Policy.Joining

/-!
# Lookups that fail

`get_user_groups` passes over a group whose lookup fails, and over all but the
primary one if the list cannot be had. So it finds fewer groups, never other
ones (`Fewer.groups`), and what a user may then do compares with what the full
list would let them do as for any user who joins groups (`joining_groups`).
-/

namespace BpfRbacd.Daemon

open Interaction

/-- The same database, some lookups of groups failing. -/
structure Fewer (fewer full : (op : Op) → Res op) : Prop where
  user : ∀ uid, fewer (.userFromUid uid) = full (.userFromUid uid)
  group : ∀ gid, fewer (.groupFromGid gid) = full (.groupFromGid gid) ∨
    ∀ name, fewer (.groupFromGid gid) ≠ .ok (some name)
  list : ∀ username gid, fewer (.getgrouplist username gid) = full (.getgrouplist username gid) ∨
    ∃ e, fewer (.getgrouplist username gid) = .error e

section
variable {host fewer full : (op : Op) → Res op} {uid : UInt32}

theorem exec_answering {p : Prog Op Res α} {tr : List (Event (answering host))} {s s' : (answering host).State}
    {a : α} (h : Exec (answering host) p s tr a s') : ∀ e ∈ tr, e.res = host e.op := by
  induction h with
  | ret => simp
  | call hr _ ih => exact List.forall_mem_cons.mpr ⟨hr, ih⟩

/-- The names that a database has for the groups of a user. -/
def Named (host : (op : Op) → Res op) (user : User) (name : String) : Prop :=
  ∃ gid, (gid = user.gid ∨ gid ∈ listedGids (host (.getgrouplist user.name user.gid))) ∧
    host (.groupFromGid gid) = .ok (some name)

theorem mem_asked_iff {W : World Op Res} {tr : List (Event W)} {gid : UInt32} :
    gid ∈ asked tr ↔ ∃ m answer, (⟨m, .groupFromGid gid, answer⟩ : Event W) ∈ tr := by
  constructor
  · intro h
    obtain ⟨⟨m, op, r⟩, he, hgid⟩ := List.mem_filterMap.mp h
    cases op with
    | groupFromGid =>
      cases hgid
      exact ⟨m, r, he⟩
    | _ => cases hgid
  · rintro ⟨m, answer, h⟩
    exact mem_asked h

theorem getUserGroups_answering {tr : List (Event (answering host))} {r : Except String (List String)}
    (h : Exec (answering host) (getUserGroups uid).run () tr r ()) :
    (∀ e, r = .error e ↔ resolveUser (host (.userFromUid uid)) = .error e) ∧
      ∀ groups, r = .ok groups → ∃ user, resolveUser (host (.userFromUid uid)) = .ok user ∧
        ∀ name, name ∈ groups ↔ Named host user name := by
  have hanswers := exec_answering h
  obtain ⟨m, answer, huser, hfailed, hgroups⟩ := getUserGroups_complete h
  obtain rfl : answer = host (.userFromUid uid) := hanswers _ huser
  refine ⟨hfailed, fun groups hr => ?_⟩
  obtain ⟨user, listed, hresolved, ⟨m', hlisted⟩, hasked, -, -, hmem⟩ := hgroups groups hr
  obtain rfl : listed = host (.getgrouplist user.name user.gid) := hanswers _ hlisted
  refine ⟨user, hresolved, fun name => ?_⟩
  rw [hmem, mem_found, Named]
  have hgid : ∀ gid, gid ∈ asked tr ↔
      gid = user.gid ∨ gid ∈ listedGids (host (.getgrouplist user.name user.gid)) := by
    intro gid
    rw [hasked, List.mem_cons]
  simp only [← hgid, mem_asked_iff]
  constructor
  · rintro ⟨m, gid, he⟩
    exact ⟨gid, ⟨m, _, he⟩, (hanswers _ he).symm⟩
  · rintro ⟨gid, ⟨m, answer, he⟩, hname⟩
    obtain rfl : answer = host (.groupFromGid gid) := hanswers _ he
    exact ⟨m, gid, hname ▸ he⟩

theorem Fewer.named (h : Fewer fewer full) {user : User} {name : String} (hname : Named fewer user name) :
    Named full user name := by
  obtain ⟨gid, hgid, hfound⟩ := hname
  refine ⟨gid, hgid.imp_right fun hlisted => ?_, ?_⟩
  · rcases h.list user.name user.gid with hsame | ⟨e, hfailed⟩
    · rwa [← hsame]
    · rw [hfailed] at hlisted
      cases hlisted
  · rcases h.group gid with hsame | hlost
    · rwa [← hsame]
    · exact absurd hfound (hlost name)

/-- The full lookup finds all the groups that one with failures finds. -/
theorem Fewer.groups (h : Fewer fewer full) {tr : List (Event (answering fewer))}
    {tr' : List (Event (answering full))} {userGroups : List String} {r : Except String (List String)}
    (hfewer : Exec (answering fewer) (getUserGroups uid).run () tr (.ok userGroups) ())
    (hfull : Exec (answering full) (getUserGroups uid).run () tr' r ()) :
    ∃ groups, r = .ok groups ∧ ∀ group ∈ userGroups, group ∈ groups := by
  obtain ⟨-, hfound⟩ := getUserGroups_answering hfewer
  obtain ⟨hfailed, hall⟩ := getUserGroups_answering hfull
  obtain ⟨user, hresolved, hnames⟩ := hfound userGroups rfl
  rw [h.user] at hresolved
  cases r with
  | error e =>
    rw [(hfailed e).mp rfl] at hresolved
    cases hresolved
  | ok groups =>
    obtain ⟨user', hresolved', hnames'⟩ := hall groups rfl
    obtain rfl : user = user' := Except.ok.inj (hresolved.symm.trans hresolved')
    exact ⟨groups, rfl, fun group hgroup => (hnames' group).mpr (h.named ((hnames group).mp hgroup))⟩

end

end BpfRbacd.Daemon

namespace BpfRbacd

open Interaction Daemon

/-- A user who joins groups keeps a role, though not always its permissions. The
same holds between the groups found where some lookups fail and those found
where they do not. -/
theorem joining_groups (policy : Policy) (userGroups : List String) (r : String) (request : Request)
    (hr : policy.getRoleForGroups userGroups = some r) (hallowed : policy.isAllowed r request = true) :
    (∀ groups, (∀ group ∈ userGroups, group ∈ groups) → policy.Keeps userGroups groups r request) ∧
      ∀ (fewer full : (op : Op) → Res op) (uid : UInt32) (tr : List (Event (answering fewer)))
        (tr' : List (Event (answering full))) (outcome : Except String (List String)), Fewer fewer full →
        Exec (answering fewer) (getUserGroups uid).run () tr (.ok userGroups) () →
        Exec (answering full) (getUserGroups uid).run () tr' outcome () →
        ∃ groups, outcome = .ok groups ∧ policy.Keeps userGroups groups r request := by
  have hkeeps : ∀ groups, (∀ group ∈ userGroups, group ∈ groups) → policy.Keeps userGroups groups r request :=
    fun groups hsub => Policy.keeps_of_subset hsub hr hallowed
  refine ⟨hkeeps, fun fewer full uid tr tr' outcome h hfewer hfull => ?_⟩
  obtain ⟨groups, rfl, hsub⟩ := h.groups hfewer hfull
  exact ⟨groups, rfl, hkeeps groups hsub⟩

/-- The database of a member of `ebpf` and `ebpf-admin`. -/
def adminDatabase (listed : Except String (List UInt32)) : (op : Op) → Res op
  | .groupFromGid gid => .ok (some (if gid = 1000 then "ebpf" else "ebpf-admin"))
  | .getgrouplist .. => listed
  | op => hashMapClient op

def adminLookup (listed : Except String (List UInt32)) :
    List (Event (answering (adminDatabase listed))) × Except String (List String) × Unit :=
  (getUserGroups 1000).run.play (fun _ op => (adminDatabase listed op, ())) ()

theorem adminLookup_exec (listed : Except String (List UInt32)) :
    Exec (answering (adminDatabase listed)) (getUserGroups 1000).run () (adminLookup listed).1
      (adminLookup listed).2.1 () :=
  exec_play (W := answering (adminDatabase listed)) (fun _ op => (adminDatabase listed op, ()))
    (fun _ _ => rfl) (getUserGroups 1000).run ()

theorem adminDatabase_fewer (e : String) (listed : Except String (List UInt32)) :
    Fewer (adminDatabase (.error e)) (adminDatabase listed) where
  user _ := rfl
  group _ := .inl rfl
  list _ _ := .inr ⟨e, rfl⟩

/-- Without the list only the primary group is found, and the list adds `ebpf-admin`. -/
theorem admin_keeps_kprobe :
    (∃ r', Policy.default.getRoleForGroups ["ebpf", "ebpf-admin"] = some r' ∧
      Policy.default.isAllowed r' loadKprobe = true) ∧
    (adminLookup (.error "Cannot allocate memory")).2.1 = .ok ["ebpf"] ∧
      ∃ groups, (adminLookup (.ok [1000, 1001])).2.1 = .ok groups ∧
        Policy.default.Keeps ["ebpf"] groups "ebpf" loadKprobe := by
  have hsub : ∀ group ∈ ["ebpf"], group ∈ ["ebpf", "ebpf-admin"] := by decide
  have hr : Policy.default.getRoleForGroups ["ebpf"] = some "ebpf" := rfl
  have hallowed : Policy.default.isAllowed "ebpf" loadKprobe = true := rfl
  obtain ⟨hjoining, hlookups⟩ := joining_groups _ _ _ _ hr hallowed
  have hfewer := adminDatabase_fewer "Cannot allocate memory" (.ok [1000, 1001])
  refine ⟨?_, rfl, hlookups _ _ 1000 _ _ _ hfewer (adminLookup_exec _) (adminLookup_exec _)⟩
  obtain ⟨r', hr', -, -, hkept⟩ := hjoining _ hsub
  refine ⟨r', hr', hkept fun name hnew => ?_⟩
  have hnet : Policy.default.wellKnownMatch ["ebpf", "ebpf-admin"] "ebpf-net" = false := rfl
  have hknown : name ∈ priority := default_matches_wellKnown hnew.matched
  simp only [priority, List.mem_cons, List.not_mem_nil, or_false] at hknown
  rcases hknown with rfl | rfl | rfl
  · rfl
  · simpa [hnet] using Policy.wellKnownMatch_iff.mpr hnew.matched
  · rfl

/-- A member of `ebpf` who joins `ebpf-net` may no longer load a kprobe. -/
theorem joining_takes_away :
    ¬ ∀ (policy : Policy) (userGroups groups : List String) (request : Request) (r : String),
        (∀ group ∈ userGroups, group ∈ groups) → policy.getRoleForGroups userGroups = some r →
        policy.isAllowed r request = true →
          ∃ r', policy.getRoleForGroups groups = some r' ∧ policy.isAllowed r' request = true := by
  intro h
  obtain ⟨r', hr', hallowed⟩ := h Policy.default ["ebpf"] ["ebpf", "ebpf-net"] loadKprobe "ebpf"
    (by decide) rfl rfl
  obtain rfl : "ebpf-net" = r' := Option.some.inj hr'
  exact absurd hallowed (by decide)

end BpfRbacd
