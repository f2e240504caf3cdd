import BpfRbacd.Daemon.Mediation

/-!
# The peer's groups

What `get_user_groups` makes of the user and group database. It asks for the
user, for the primary group and for every group `getgrouplist` lists, and
returns the names it was told, each once and in the order it asked. A lookup
that fails is skipped; only the user's own record, or its name, ends the
function with an error.

The database may answer differently each time, so everything is about the
answers of the run itself.
-/

namespace BpfRbacd.Daemon

open Interaction

-- ---------------------------------------------------------------------------
-- Names without repetition
-- ---------------------------------------------------------------------------

section
variable {α : Type} [BEq α] [LawfulBEq α]

def insertNew (seen : List α) (a : α) : List α := if seen.contains a then seen else seen ++ [a]

theorem mem_insertNew {seen : List α} {a b : α} : b ∈ insertNew seen a ↔ b ∈ seen ∨ b = a := by
  unfold insertNew
  split <;> simp_all

theorem insertNew_nodup {seen : List α} (h : seen.Nodup) (a : α) : (insertNew seen a).Nodup := by
  unfold insertNew
  split
  · exact h
  · next hnew => simpa [List.nodup_append, h] using fun b hb hab => hnew (by simpa [← hab] using hb)

variable {names seen : List α}

theorem mem_insertAll {a : α} : a ∈ names.foldl insertNew seen ↔ a ∈ seen ∨ a ∈ names := by
  induction names generalizing seen with
  | nil => simp
  | cons name names ih => simp [ih, mem_insertNew, or_assoc]

theorem insertAll_nodup (h : seen.Nodup) : (names.foldl insertNew seen).Nodup := by
  induction names generalizing seen with
  | nil => exact h
  | cons name names ih => exact ih (insertNew_nodup h name)

omit [LawfulBEq α] in
/-- What was there stays in front, and the new names keep their order. -/
theorem insertAll_append (names seen : List α) :
    ∃ added, names.foldl insertNew seen = seen ++ added ∧ added.Sublist names := by
  induction names generalizing seen with
  | nil => exact ⟨[], by simp, .slnil⟩
  | cons name names ih =>
    obtain ⟨added, heq, hsub⟩ := ih (insertNew seen name)
    rw [List.foldl_cons, heq]
    unfold insertNew
    split
    · exact ⟨added, rfl, hsub.cons name⟩
    · exact ⟨name :: added, by simp, hsub.cons_cons name⟩

end

-- ---------------------------------------------------------------------------
-- What a run was told
-- ---------------------------------------------------------------------------

variable {W : World Op Res} {s s' : W.State} {tr : List (Event W)}

def foundName (e : Event W) : Option String :=
  match e with
  | ⟨_, .groupFromGid _, .ok (some name)⟩ => some name
  | _ => none

def askedGid (e : Event W) : Option UInt32 :=
  match e with
  | ⟨_, .groupFromGid gid, _⟩ => some gid
  | _ => none

/-- The names of the groups that were found, in order. -/
def found (tr : List (Event W)) : List String := tr.filterMap foundName

/-- The groups that were asked for, in order. -/
def asked (tr : List (Event W)) : List UInt32 := tr.filterMap askedGid

/-- The user record `get_user_groups` goes on with. -/
def resolveUser (answer : Except String (Option User)) : Except String User := do
  let some user ← answer | throw "User not found"
  let _ ← cString user.name
  return user

def listedGids : Except String (List UInt32) → List UInt32
  | .ok gids => gids
  | .error _ => []

@[simp] theorem found_append (t₁ t₂ : List (Event W)) : found (t₁ ++ t₂) = found t₁ ++ found t₂ :=
  List.filterMap_append

@[simp] theorem asked_append (t₁ t₂ : List (Event W)) : asked (t₁ ++ t₂) = asked t₁ ++ asked t₂ :=
  List.filterMap_append

theorem found_singleton_nodup (e : Event W) : (found [e]).Nodup := by
  cases hname : foundName e <;> simp [found, hname]

theorem foundName_eq {e : Event W} {name : String} :
    foundName e = some name ↔ ∃ m gid, e = ⟨m, .groupFromGid gid, .ok (some name)⟩ := by
  constructor
  · intro h
    obtain ⟨m, op, res⟩ := e
    cases op with
    | groupFromGid gid =>
      rcases res with _ | _ | name'
      · cases h
      · cases h
      · cases h
        exact ⟨m, gid, rfl⟩
    | _ => cases h
  · rintro ⟨m, gid, rfl⟩
    rfl

theorem mem_found {name : String} :
    name ∈ found tr ↔ ∃ m gid, (⟨m, .groupFromGid gid, .ok (some name)⟩ : Event W) ∈ tr := by
  simp only [found, List.mem_filterMap, foundName_eq]
  constructor
  · rintro ⟨_, he, m, gid, rfl⟩
    exact ⟨m, gid, he⟩
  · rintro ⟨m, gid, he⟩
    exact ⟨_, he, m, gid, rfl⟩

-- ---------------------------------------------------------------------------
-- The loop
-- ---------------------------------------------------------------------------

theorem exec_addGroup {groups : List String} {gid : UInt32} {r : Except String (List String)}
    (h : Exec W (addGroup groups gid).run s tr r s') :
    r = .ok ((found tr).foldl insertNew groups) ∧ asked tr = [gid] := by
  unfold addGroup at h
  obtain ⟨answer, m, t, -, hrest, rfl⟩ := exec_ask_bind h
  rcases answer with e | none | name
  · obtain ⟨rfl, rfl, -⟩ := exec_run_pure.mp hrest
    exact ⟨rfl, rfl⟩
  · obtain ⟨rfl, rfl, -⟩ := exec_run_pure.mp hrest
    exact ⟨rfl, rfl⟩
  · obtain ⟨rfl, rfl, -⟩ := exec_run_pure.mp hrest
    exact ⟨rfl, rfl⟩

theorem exec_addGroups {groupList : List UInt32} {groups : List String} {r : Except String (List String)}
    (h : Exec W (groupList.foldlM addGroup groups).run s tr r s') :
    r = .ok ((found tr).foldl insertNew groups) ∧ asked tr = groupList := by
  induction groupList generalizing groups s tr with
  | nil =>
    obtain ⟨rfl, rfl, -⟩ := exec_run_pure.mp h
    exact ⟨rfl, rfl⟩
  | cons gid groupList ih =>
    rw [List.foldlM_cons] at h
    rcases exec_run_bind.mp h with ⟨e, hfirst, -⟩ | ⟨groups', m, t₁, t₂, hfirst, hrest, rfl⟩
    · cases (exec_addGroup hfirst).1
    · obtain ⟨hgroups, hasked⟩ := exec_addGroup hfirst
      cases hgroups
      obtain ⟨rfl, hlater⟩ := ih hrest
      simp [hasked, hlater, List.foldl_append]

-- ---------------------------------------------------------------------------
-- The whole function
-- ---------------------------------------------------------------------------

/-- The user record ends it, or the primary group and the listed ones follow. -/
inductive Looks (uid : UInt32) : List (Event W) → Except String (List String) → Prop
  | unresolved {m : W.State} {answer : Except String (Option User)} {t : List (Event W)} {e : String} :
      resolveUser answer = .error e → Looks uid (⟨m, .userFromUid uid, answer⟩ :: t) (.error e)
  | resolved {m m₁ m₂ : W.State} {answer : Except String (Option User)} {user : User}
      {primary : Except String (Option String)} {listed : Except String (List UInt32)} {t : List (Event W)} :
      resolveUser answer = .ok user → asked t = listedGids listed →
      Looks uid (⟨m, .userFromUid uid, answer⟩ :: ⟨m₁, .groupFromGid user.gid, primary⟩ ::
        ⟨m₂, .getgrouplist user.name user.gid, listed⟩ :: t)
        (.ok ((found t).foldl insertNew (found [(⟨m₁, .groupFromGid user.gid, primary⟩ : Event W)])))

theorem cString_ok {s username : String} (h : cString s = .ok username) : username = s := by
  unfold cString at h
  split at h <;> cases h
  rfl

theorem getUserGroups_looks {r : Except String (List String)}
    (h : Exec W (getUserGroups uid).run s tr r s') : Looks uid tr r := by
  unfold getUserGroups at h
  rcases exec_run_bind.mp h with ⟨e, huser, rfl⟩ | ⟨user, m, _, t, huser, h₁, rfl⟩
  · obtain ⟨-, rfl⟩ := exec_issue.mp huser
    exact .unresolved rfl
  obtain ⟨-, rfl⟩ := exec_issue.mp huser
  cases user with
  | none =>
    obtain ⟨rfl, rfl, -⟩ := exec_run_throw.mp h₁
    exact .unresolved rfl
  | some user =>
    obtain ⟨primary, m₁, t₁, -, h₂, rfl⟩ := exec_ask_bind h₁
    rcases exec_run_bind.mp h₂ with ⟨e, hname, rfl⟩ | ⟨username, m₂, _, t₂, hname, h₃, rfl⟩
    · obtain ⟨rfl, hnul, -⟩ := exec_pure.mp hname
      refine .unresolved ?_
      simp [resolveUser, ← hnul, bind, Except.bind]
    · obtain ⟨rfl, hcstring, rfl⟩ := exec_pure.mp hname
      obtain rfl := cString_ok hcstring.symm
      have hresolved : resolveUser (.ok (some user)) = .ok user := by
        simp [resolveUser, ← hcstring, bind, Except.bind, pure, Except.pure]
      obtain ⟨listed, m₃, t₃, -, h₄, rfl⟩ := exec_ask_bind h₃
      cases listed with
      | error e =>
        obtain ⟨rfl, rfl, -⟩ := exec_run_pure.mp h₄
        rcases primary with e | none | name <;> exact .resolved hresolved rfl
      | ok gids =>
        obtain ⟨rfl, hasked⟩ := exec_addGroups h₄
        rcases primary with e | none | name <;> exact .resolved hresolved hasked

/-- The result is the names that were found for the user's groups, each once,
in the order of the primary group and the list. Only a user without a usable
record is an error. -/
theorem getUserGroups_complete {r : Except String (List String)}
    (h : Exec W (getUserGroups uid).run s tr r s') :
    ∃ m answer, (⟨m, .userFromUid uid, answer⟩ : Event W) ∈ tr ∧
      (∀ e, r = .error e ↔ resolveUser answer = .error e) ∧
      ∀ groups, r = .ok groups → ∃ user listed, resolveUser answer = .ok user ∧
        (∃ m, (⟨m, .getgrouplist user.name user.gid, listed⟩ : Event W) ∈ tr) ∧
        asked tr = user.gid :: listedGids listed ∧
        groups.Nodup ∧ groups.Sublist (found tr) ∧ ∀ name, name ∈ groups ↔ name ∈ found tr := by
  cases getUserGroups_looks h with
  | @unresolved m answer t e hfailed =>
    exact ⟨m, answer, List.mem_cons_self, by simp [hfailed], nofun⟩
  | @resolved m m₁ m₂ answer user primary listed t hresolved hasked =>
    refine ⟨m, answer, List.mem_cons_self, by simp [hresolved], ?_⟩
    rintro _ ⟨⟩
    have hfound : found (⟨m, .userFromUid uid, answer⟩ :: ⟨m₁, .groupFromGid user.gid, primary⟩ ::
        ⟨m₂, .getgrouplist user.name user.gid, listed⟩ :: t) =
        found [(⟨m₁, .groupFromGid user.gid, primary⟩ : Event W)] ++ found t := by
      rw [← found_append]
      rfl
    refine ⟨user, listed, hresolved, ⟨m₂, by simp⟩, ?_, ?_, ?_, ?_⟩
    · show user.gid :: asked t = _
      rw [hasked]
    · apply insertAll_nodup
      apply found_singleton_nodup
    · obtain ⟨added, heq, hsub⟩ := insertAll_append (found t)
        (found [(⟨m₁, .groupFromGid user.gid, primary⟩ : Event W)])
      rw [heq, hfound]
      exact hsub.append_left _
    · intro name
      rw [mem_insertAll, hfound, List.mem_append]

/-- The lookup of the client of `hashMapClient`, whose primary group is listed
once more. -/
def tracerLookup : List (Event (answering hashMapClient)) × Except String (List String) × Unit :=
  (getUserGroups 1000).run.play (W := answering hashMapClient) (fun _ op => (hashMapClient op, ())) ()

theorem tracer_groups :
    found tracerLookup.1 = ["ebpf", "ebpf"] ∧ ∃ groups, tracerLookup.2.1 = .ok groups ∧ groups.Nodup ∧
      ∀ name, name ∈ groups ↔ name = "ebpf" := by
  have hrun := exec_play (W := answering hashMapClient) (fun _ op => (hashMapClient op, ()))
    (fun _ _ => rfl) (getUserGroups 1000).run ()
  have hfound : found tracerLookup.1 = ["ebpf", "ebpf"] := rfl
  obtain ⟨m, answer, -, -, hgroups⟩ := getUserGroups_complete hrun
  obtain ⟨_, _, _, _, _, hnodup, -, hmem⟩ := hgroups ["ebpf"] rfl
  exact ⟨hfound, ["ebpf"], rfl, hnodup, by simp⟩

-- ---------------------------------------------------------------------------
-- The peer
-- ---------------------------------------------------------------------------

/-- In the run the kernel named the user at the other end of the stream, and
the database one of this user's groups. -/
def MemberOf (stream : RawFd) (name : String) (tr : List (Event W)) : Prop :=
  ∃ cred user gid, (∃ m, (⟨m, .peerCredentials stream, .ok cred⟩ : Event W) ∈ tr) ∧
    (∃ m, (⟨m, .userFromUid cred.uid, .ok (some user)⟩ : Event W) ∈ tr) ∧
    (∃ m, (⟨m, .groupFromGid gid, .ok (some name)⟩ : Event W) ∈ tr) ∧
    (gid = user.gid ∨
      ∃ m gids, (⟨m, .getgrouplist user.name user.gid, .ok gids⟩ : Event W) ∈ tr ∧ gid ∈ gids)

theorem MemberOf.mono {t t' : List (Event W)} {name : String} (h : MemberOf stream name t) (hsub : t ⊆ t') :
    MemberOf stream name t' := by
  obtain ⟨cred, user, gid, ⟨_, hpeer⟩, ⟨_, huser⟩, ⟨_, hgroup⟩, hgid⟩ := h
  refine ⟨cred, user, gid, ⟨_, hsub hpeer⟩, ⟨_, hsub huser⟩, ⟨_, hsub hgroup⟩, hgid.imp_right ?_⟩
  rintro ⟨m, gids, hlisted, hmem⟩
  exact ⟨m, gids, hsub hlisted, hmem⟩

theorem resolveUser_ok {answer : Except String (Option User)} {user : User}
    (h : resolveUser answer = .ok user) : answer = .ok (some user) := by
  rcases answer with e | none | found
  · cases h
  · cases h
  · simp only [resolveUser, bind, Except.bind] at h
    cases hname : cString found.name with
    | error e => simp [hname] at h
    | ok username => simp_all [pure, Except.pure]

theorem mem_asked {m : W.State} {gid : UInt32} {answer : Except String (Option String)}
    (h : (⟨m, .groupFromGid gid, answer⟩ : Event W) ∈ tr) : gid ∈ asked tr :=
  List.mem_filterMap.mpr ⟨_, h, rfl⟩

theorem getUserGroups_member {name : String} {groups : List String}
    (h : Exec W (getUserGroups uid).run s tr (.ok groups) s') (hname : name ∈ groups) :
    ∃ user gid, (∃ m, (⟨m, .userFromUid uid, .ok (some user)⟩ : Event W) ∈ tr) ∧
      (∃ m, (⟨m, .groupFromGid gid, .ok (some name)⟩ : Event W) ∈ tr) ∧
      (gid = user.gid ∨
        ∃ m gids, (⟨m, .getgrouplist user.name user.gid, .ok gids⟩ : Event W) ∈ tr ∧ gid ∈ gids) := by
  generalize hr : Except.ok groups = r at h
  cases getUserGroups_looks h with
  | unresolved => cases hr
  | @resolved m m₁ m₂ answer user primary listed t hresolved hasked =>
    cases hr
    obtain rfl := resolveUser_ok hresolved
    rcases mem_insertAll.mp hname with hprimary | hlater
    · obtain ⟨_, gid, hgid⟩ := mem_found.mp hprimary
      cases List.mem_singleton.mp hgid
      exact ⟨user, user.gid, ⟨m, by simp⟩, ⟨m₁, by simp⟩, .inl rfl⟩
    · obtain ⟨m₃, gid, hgid⟩ := mem_found.mp hlater
      have hlisted : gid ∈ listedGids listed := hasked ▸ mem_asked hgid
      refine ⟨user, gid, ⟨m, by simp⟩, ⟨m₃, by simp [hgid]⟩, .inr ?_⟩
      cases listed with
      | error e => cases hlisted
      | ok gids => exact ⟨m₂, gids, by simp, hlisted⟩

theorem clientGroups_member {name : String} {groups : List String}
    (h : Exec W (clientGroups stream).run s tr (.ok groups) s') (hname : name ∈ groups) :
    MemberOf stream name tr := by
  obtain ⟨before, t, after, cred, m, m', rfl, ⟨m₀, hpeer⟩, hgroups⟩ := clientGroups_peer h
  obtain ⟨user, gid, ⟨m₁, huser⟩, ⟨m₂, hgroup⟩, hgid⟩ := getUserGroups_member hgroups hname
  refine ⟨cred, user, gid, ⟨m₀, by simp [hpeer]⟩, ⟨m₁, by simp [huser]⟩, ⟨m₂, by simp [hgroup]⟩,
    hgid.imp_right ?_⟩
  rintro ⟨m₃, gids, hlisted, hmem⟩
  exact ⟨m₃, gids, by simp [hlisted], hmem⟩

end BpfRbacd.Daemon
