import BpfRbacd.Namespace

/-!
# Back to the thread's own namespaces

The world here keeps the calling thread's user and mount namespace. A
successful `setns` changes them, a file below `/proc/self` stands for the
thread's own, and every other outcome is left open.

After a mount or an unmount both namespaces are restored, whatever its result.
The two functions return early between the two entries, though, and then leave
the thread in the target's user namespace: `namespaces_restored_iff`. And a
restore that is refused goes unnoticed: `success_means_home_iff`.
-/

namespace BpfRbacd.Namespace

open Interaction

structure Thread where
  user : UInt64
  mnt : UInt64
  deriving DecidableEq, Repr

def Thread.nsId (thread : Thread) : NsType → UInt64
  | .user => thread.user
  | .mnt => thread.mnt

def Thread.enter (thread : Thread) (file : NsFile) : CloneFlag → Thread
  | .newUser => { thread with user := file.nsId }
  | .newNs => { thread with mnt := file.nsId }

def threadEffect (thread : Thread) (op : Op) (r : Res op) (thread' : Thread) : Prop :=
  match op, r with
  | .openNs .self nsType, .ok file =>
    file = ⟨.self, nsType, thread.nsId nsType⟩ ∧ thread' = thread
  | .openNs (.pid pid) nsType, .ok file =>
    file.proc = .pid pid ∧ file.nsType = nsType ∧ thread' = thread
  | .setns file flag, .ok _ => thread' = thread.enter file flag
  | _, _ => thread' = thread

def threadWorld : World Op Res where
  State := Thread
  answer := threadEffect

/-- A `setns` of a run and whether it succeeded. -/
structure Entry where
  file : NsFile
  flag : CloneFlag
  entered : Bool

def entry {W : World Op Res} (e : Event W) : Option Entry :=
  match e with
  | ⟨_, .setns file flag, r⟩ => some ⟨file, flag, Except.isOk r⟩
  | _ => none

@[simp] theorem isOk_ok (a : α) : (Except.ok a : Except String α).isOk = true := rfl
@[simp] theorem isOk_error (e : String) : (Except.error e : Except String α).isOk = false := rfl

def entries {W : World Op Res} (tr : List (Event W)) : List Entry := tr.filterMap entry

variable {thread thread' : Thread} {tr : List (Event threadWorld)}

def RestoresSucceed (tr : List (Event threadWorld)) : Prop :=
  ∀ a ∈ entries tr, a.file.proc = .self → a.entered = true

/-- The target's user namespace was another one and was entered, and its mount
namespace was refused. -/
def Stranded (thread : Thread) (tr : List (Event threadWorld)) : Prop :=
  (∃ a ∈ entries tr, a.file.proc ≠ .self ∧ a.flag = .newUser ∧ a.entered = true ∧
    a.file.nsId ≠ thread.user) ∧
  ∃ a ∈ entries tr, a.file.proc ≠ .self ∧ a.flag = .newNs ∧ a.entered = false

-- ---------------------------------------------------------------------------
-- The parts of a call
-- ---------------------------------------------------------------------------

/-- Operations other than `setns`. -/
def Op.Staying : Op → Prop
  | .setns .. => False
  | _ => True

theorem threadEffect_staying {op : Op} {r : Res op} (hop : op.Staying)
    (h : threadEffect thread op r thread') : thread' = thread := by
  cases op with
  | setns => exact absurd hop id
  | openNs proc nsType =>
    cases r with
    | error => cases proc <;> exact h
    | ok file =>
      cases proc with
      | self => exact h.2
      | pid => exact h.2.2
  | _ => exact h

theorem exec_staying {p : Prog Op Res α} {a : α} (hp : p.Uses Op.Staying)
    (h : Exec threadWorld p thread tr a thread') : thread' = thread ∧ entries tr = [] := by
  refine exec_induct (W := threadWorld)
    (Q := fun thread tr thread' => thread' = thread ∧ entries tr = []) ?_ ?_ hp h
  · exact fun _ => ⟨rfl, rfl⟩
  · rintro thread op r m tr thread' hop hr ⟨rfl, htr⟩
    refine ⟨threadEffect_staying hop hr, ?_⟩
    cases op with
    | setns => exact absurd hop id
    | _ => exact htr

theorem Op.Opening.staying {op : Op} (h : op.Opening) : op.Staying := by
  cases op with
  | openNs => trivial
  | _ => exact absurd h id

theorem openNamespaces_thread {r : Except String NsFiles}
    (h : Exec threadWorld (openNamespaces target).run thread tr r thread') :
    thread' = thread ∧ entries tr = [] :=
  exec_staying (uses_mono (fun _ => Op.Opening.staying) uses_openNamespaces) h

theorem openNamespaces_files {files : NsFiles}
    (h : Exec threadWorld (openNamespaces target).run thread tr (.ok files) thread') :
    files.selfUserns = ⟨.self, .user, thread.user⟩ ∧ files.selfMntns = ⟨.self, .mnt, thread.mnt⟩ ∧
      files.targetUserns.proc = .pid target.pid ∧ files.targetMntns.proc = .pid target.pid := by
  obtain ⟨s₁, s₂, s₃, ⟨hself, rfl⟩, ⟨hselfMnt, rfl⟩, ⟨huser, -, rfl⟩, ⟨hmnt, -, -⟩, -⟩ := openNamespaces_ok h
  exact ⟨hself, hselfMnt, huser, hmnt⟩

theorem entries_append {W : World Op Res} (t₁ t₂ : List (Event W)) :
    entries (t₁ ++ t₂) = entries t₁ ++ entries t₂ := List.filterMap_append

theorem Thread.enter_user_eq_iff {file : NsFile} :
    thread.enter file .newUser = thread ↔ file.nsId = thread.user := by
  cases thread
  simp [Thread.enter]

/-- Where the saved files lead back to, from anywhere. -/
theorem Thread.enter_saved (t : Thread) :
    (t.enter ⟨.self, .user, thread.user⟩ .newUser).enter ⟨.self, .mnt, thread.mnt⟩ .newNs = thread := rfl

theorem Visit.restored_iff {files : NsFiles} {act : NamespaceM Unit} {r : Except String Unit}
    (hact : act.run.Uses Op.Staying) (h : Visit (W := threadWorld) files act thread tr r thread')
    (hself : files.selfUserns = ⟨.self, .user, thread.user⟩)
    (hselfMnt : files.selfMntns = ⟨.self, .mnt, thread.mnt⟩)
    (huser : files.targetUserns.proc = .pid pid) (hmnt : files.targetMntns.proc = .pid pid)
    (hrestore : RestoresSucceed tr) : thread' = thread ↔ ¬ Stranded thread tr := by
  cases h with
  | userRefused hrefused =>
    obtain rfl : thread' = thread := hrefused
    simp [Stranded, entries, entry]
  | mountRefused hentered hrefused =>
    obtain rfl : _ = thread.enter files.targetUserns .newUser := hentered
    obtain rfl : thread' = thread.enter files.targetUserns .newUser := hrefused
    rw [Thread.enter_user_eq_iff]
    simp [Stranded, entries, entry, huser, hmnt]
  | @visited s₁ s₂ s₃ s₄ _ t _ u m hentered hentered' hrun hback hback' =>
    obtain ⟨rfl, hnone⟩ := exec_staying hact hrun
    have hstays : t.filterMap entry = [] := hnone
    simp only [RestoresSucceed, Stranded, entries, entry, List.filterMap_cons, List.filterMap_append,
      hstays, List.filterMap_nil, List.nil_append, List.forall_mem_cons] at hrestore ⊢
    obtain ⟨-, -, hu, hm, -⟩ := hrestore
    -- both returns are to saved namespaces
    cases u with
    | error e => exact absurd (hu (by rw [hself])) (by simp)
    | ok =>
      cases m with
      | error e => exact absurd (hm (by rw [hselfMnt])) (by simp)
      | ok =>
        obtain rfl : s₄ = Thread.enter s₃ files.selfUserns .newUser := hback
        obtain rfl : thread' = Thread.enter _ files.selfMntns .newNs := hback'
        rw [hself, hselfMnt]
        exact iff_of_true (Thread.enter_saved s₃) (by simp)

theorem inTargetNamespace_restored_iff {act : NamespaceM Unit} {r : Except String Unit}
    (hact : act.run.Uses Op.Staying)
    (h : Exec threadWorld (inTargetNamespace target act).run thread tr r thread')
    (hrestore : RestoresSucceed tr) : thread' = thread ↔ ¬ Stranded thread tr := by
  rcases inTargetNamespace_ok h with ⟨e, hopen, -⟩ | ⟨files, m, t₁, t₂, hopen, hvisit, rfl⟩
  · obtain ⟨rfl, hnone⟩ := openNamespaces_thread hopen
    simp [Stranded, hnone]
  · obtain ⟨hself, hselfMnt, huser, hmnt⟩ := openNamespaces_files hopen
    obtain ⟨rfl, hnone⟩ := openNamespaces_thread hopen
    have hentries : entries (t₁ ++ t₂) = entries t₂ := by rw [entries_append, hnone, List.nil_append]
    simp only [RestoresSucceed, hentries] at hrestore
    simp only [Stranded, hentries]
    exact hvisit.restored_iff hact hself hselfMnt huser hmnt hrestore

theorem uses_mountBpffs : (mountBpffs mountPath opts).run.Uses Op.Staying :=
  uses_bind (uses_perform trivial) fun _ => uses_pure

theorem uses_umountBpffs : (umountBpffs mountPath).run.Uses Op.Staying :=
  uses_bind (uses_perform trivial) fun _ => uses_pure

/-- A delegation or a revocation leaves the thread in the namespaces it had
exactly if it was not refused the target's mount namespace on the way in. -/
theorem namespaces_restored_iff (target : TargetNamespace) (mountPath : String) (opts : DelegationOpts)
    (thread thread' : Thread) (tr : List (Event threadWorld)) (r : Except String Unit)
    (h : Exec threadWorld (delegateBpfToNamespace target mountPath opts).run thread tr r thread' ∨
      Exec threadWorld (revokeBpfDelegation target mountPath).run thread tr r thread')
    (hrestore : RestoresSucceed tr) : thread' = thread ↔ ¬ Stranded thread tr := by
  rcases h with hdelegate | hrevoke
  · exact inTargetNamespace_restored_iff uses_mountBpffs hdelegate hrestore
  · exact inTargetNamespace_restored_iff uses_umountBpffs hrevoke hrestore

-- ---------------------------------------------------------------------------
-- What success says
-- ---------------------------------------------------------------------------

/-- The mount or unmount was made. -/
def Acted (tr : List (Event threadWorld)) : Prop := ∃ e ∈ tr, remounted e = true

/-- A return was refused that would have led out of the target's namespace. -/
def LeftBehind (tr : List (Event threadWorld)) : Prop :=
  ∃ back ∈ entries tr, back.file.proc = .self ∧ back.entered = false ∧
    ∃ into ∈ entries tr, into.file.proc ≠ .self ∧ into.flag = back.flag ∧
      into.file.nsId ≠ back.file.nsId

theorem uses_act (call : DelegationCall) : call.act.run.Uses Op.Staying := by
  cases call with
  | delegate => exact uses_mountBpffs
  | revoke => exact uses_umountBpffs

theorem not_acted {p : Prog Op Res α} {a : α} (hp : p.Uses Op.Opening)
    (h : Exec threadWorld p thread tr a thread') : ¬ Acted tr := by
  rintro ⟨e, he, hacted⟩
  exact (exec_uses hp h e he).not_remounting (remounted_remounting hacted)

theorem setns_effect {file : NsFile} {flag : CloneFlag} {r : Except String Unit}
    (h : threadEffect thread (.setns file flag) r thread') :
    thread' = if r.isOk then thread.enter file flag else thread := by
  cases r with
  | ok => exact h
  | error => exact h

/-- Where a visit that acted leaves the thread, and what it reports. -/
theorem Visit.home_iff {call : DelegationCall} {files : NsFiles} {r : Except String Unit}
    (h : Visit (W := threadWorld) files call.act thread tr r thread')
    (hself : files.selfUserns = ⟨.self, .user, thread.user⟩)
    (hselfMnt : files.selfMntns = ⟨.self, .mnt, thread.mnt⟩)
    (huser : files.targetUserns.proc = .pid pid) (hmnt : files.targetMntns.proc = .pid pid) :
    (r = .ok () ↔ Acted tr) ∧ (Acted tr → (thread' = thread ↔ ¬ LeftBehind tr)) := by
  cases h with
  | userRefused hrefused => simp [Acted, remounted]
  | mountRefused hentered hrefused => simp [Acted, remounted]
  | @visited s₁ s₂ s₃ s₄ _ t _ u m hentered hentered' hact hback hback' =>
    obtain ⟨hstay, hnone⟩ := exec_staying (uses_act call) hact
    obtain ⟨e, rfl, -, -, hresult⟩ := DelegationCall.act_event hact
    refine ⟨hresult.trans ?_, fun _ => ?_⟩
    · simp [Acted, remounted]
    have hstays : [e].filterMap entry = [] := hnone
    have hinside : s₃ = ⟨files.targetUserns.nsId, files.targetMntns.nsId⟩ := by
      obtain rfl : s₁ = Thread.enter thread files.targetUserns .newUser := hentered
      exact hstay.trans hentered'
    subst hinside
    unfold LeftBehind
    simp only [entries, entry, List.filterMap_cons, List.filterMap_append, hstays, List.filterMap_nil,
      List.nil_append]
    obtain rfl : s₄ = if u.isOk then _ else _ := setns_effect hback
    obtain rfl : thread' = if m.isOk then _ else _ := setns_effect hback'
    obtain ⟨user, mnt⟩ := thread
    cases u <;> cases m <;> simp [hself, hselfMnt, huser, hmnt, Thread.enter]

section
variable {call : DelegationCall} {r : Except String Unit}

theorem body_home_iff (h : Exec threadWorld call.body.run thread tr r thread') :
    (r = .ok () ↔ Acted tr) ∧ (Acted tr → (thread' = thread ↔ ¬ LeftBehind tr)) := by
  rw [call.body_eq] at h
  rcases inTargetNamespace_ok h with ⟨e, hopen, rfl⟩ | ⟨files, m, t₁, t₂, hopen, hvisit, rfl⟩
  · have hnot := not_acted uses_openNamespaces hopen
    simp [hnot]
  · obtain ⟨hself, hselfMnt, huser, hmnt⟩ := openNamespaces_files hopen
    obtain ⟨rfl, hnone⟩ := openNamespaces_thread hopen
    have hacted : Acted (t₁ ++ t₂) ↔ Acted t₂ := by
      have hnot := not_acted uses_openNamespaces hopen
      simp only [Acted, List.mem_append, or_and_right, exists_or] at hnot ⊢
      exact or_iff_right hnot
    have hleft : LeftBehind (t₁ ++ t₂) ↔ LeftBehind t₂ := by
      rw [LeftBehind, entries_append, hnone, List.nil_append]
      rfl
    rw [hacted, hleft]
    exact hvisit.home_iff hself hselfMnt huser hmnt

/-- The result says whether the mount or unmount was made, and nothing else. -/
theorem ok_iff_acted (h : Exec threadWorld call.body.run thread tr r thread') : r = .ok () ↔ Acted tr :=
  (body_home_iff h).1

end

/-- `Ok` means back home, unless a return was refused. -/
theorem success_means_home_iff (call : DelegationCall) (thread thread' : Thread)
    (tr : List (Event threadWorld)) (r : Except String Unit)
    (h : Exec threadWorld call.body.run thread tr r thread') :
    ((r = .ok () → thread' = thread) ↔ ¬ (Acted tr ∧ LeftBehind tr)) ∧
    ((r = .ok () → RestoresSucceed tr) ↔ ¬ (Acted tr ∧ ¬ RestoresSucceed tr)) := by
  rw [ok_iff_acted h, not_and, not_and, Classical.not_not]
  exact ⟨forall_congr' (body_home_iff h).2, Iff.rfl⟩

/-- The target of the runs below is in user namespace 2 and mount namespace 20. -/
def targetFile (pid : UInt32) : NsType → NsFile
  | .user => ⟨.pid pid, .user, 2⟩
  | .mnt => ⟨.pid pid, .mnt, 20⟩

/-- Everything succeeds, entering the target's mount namespace only if `reachable`. -/
def threadStrategy (reachable : Bool) (thread : Thread) : (op : Op) → Res op × Thread
  | .ino .. => (.ok 2, thread)
  | .openNs .self nsType => (.ok ⟨.self, nsType, thread.nsId nsType⟩, thread)
  | .openNs (.pid pid) nsType => (.ok (targetFile pid nsType), thread)
  | .setns file flag =>
    if reachable = false ∧ file = targetFile 4242 .mnt then (.error "Operation not permitted", thread)
    else (.ok (), thread.enter file flag)
  | .mount .. | .umount _ => (.ok (), thread)

theorem threadStrategy_ok (reachable : Bool) (thread : Thread) (op : Op) :
    threadEffect thread op (threadStrategy reachable thread op).1
      (threadStrategy reachable thread op).2 := by
  cases op with
  | openNs proc nsType =>
    cases proc with
    | self => exact ⟨rfl, rfl⟩
    | pid => cases nsType <;> exact ⟨rfl, rfl, rfl⟩
  | setns file flag =>
    by_cases hrefused : reachable = false ∧ file = targetFile 4242 .mnt
    · simp only [threadStrategy, if_pos hrefused]
      rfl
    · simp only [threadStrategy, if_neg hrefused]
      rfl
  | _ => rfl

/-- A run of the delegation from user namespace 1 and mount namespace 10. -/
def delegation (reachable : Bool) : List (Event threadWorld) × Except String Unit × Thread :=
  (delegateBpfToNamespace ⟨4242, 2⟩ "/sys/fs/bpf" .allowAll).run.play (W := threadWorld)
    (threadStrategy reachable) (⟨1, 10⟩ : Thread)

theorem delegation_exec (reachable : Bool) :
    Exec threadWorld (delegateBpfToNamespace ⟨4242, 2⟩ "/sys/fs/bpf" .allowAll).run (⟨1, 10⟩ : Thread)
      (delegation reachable).1 (delegation reachable).2.1 (delegation reachable).2.2 :=
  exec_play (W := threadWorld) (threadStrategy reachable) (threadStrategy_ok reachable) _ _

theorem delegation_entries : entries (delegation true).1 =
    [⟨targetFile 4242 .user, .newUser, true⟩, ⟨targetFile 4242 .mnt, .newNs, true⟩,
      ⟨⟨.self, .user, 1⟩, .newUser, true⟩, ⟨⟨.self, .mnt, 10⟩, .newNs, true⟩] := by rfl

theorem delegation_returns : (delegation true).2.2 = ⟨1, 10⟩ := by
  refine (namespaces_restored_iff ⟨4242, 2⟩ "/sys/fs/bpf" .allowAll _ _ _ _
    (.inl (delegation_exec true)) ?_).mpr ?_
  · simp [RestoresSucceed, delegation_entries]
  · simp [Stranded, delegation_entries]

/-- Refused the target's mount namespace, the thread stays in user namespace 2. -/
theorem delegation_leaks :
    ¬ ∀ (target : TargetNamespace) (mountPath : String) (opts : DelegationOpts)
        (thread thread' : Thread) (tr : List (Event threadWorld)) (r : Except String Unit),
      (Exec threadWorld (delegateBpfToNamespace target mountPath opts).run thread tr r thread' ∨
        Exec threadWorld (revokeBpfDelegation target mountPath).run thread tr r thread') →
      RestoresSucceed tr → thread' = thread := by
  intro h
  have hentries : entries (delegation false).1 =
      [⟨targetFile 4242 .user, .newUser, true⟩, ⟨targetFile 4242 .mnt, .newNs, false⟩] := by rfl
  have hreturns := h _ _ _ _ _ _ _ (.inl (delegation_exec false))
    (by simp [RestoresSucceed, hentries, targetFile])
  exact absurd hreturns (by decide)

theorem successful_delegation_is_home :
    (delegation true).2.1 = .ok () ∧ (delegation true).2.2 = ⟨1, 10⟩ := by
  refine ⟨rfl, (success_means_home_iff (.delegate ⟨4242, 2⟩ "/sys/fs/bpf" .allowAll) _ _ _ _
    (delegation_exec true)).1.mpr ?_ rfl⟩
  rintro ⟨-, back, hback, hself, hrefused, -⟩
  simp only [delegation_entries, List.mem_cons, List.not_mem_nil, or_false] at hback
  rcases hback with rfl | rfl | rfl | rfl <;> cases hrefused

/-- As `threadStrategy true`, but the kernel refuses to enter `refused`. -/
def refusingStrategy (refused : NsFile) (thread : Thread) (op : Op) : Res op × Thread :=
  match op with
  | .setns file flag =>
    if file = refused then (.error "Operation not permitted", thread) else (.ok (), thread.enter file flag)
  | op => threadStrategy true thread op

theorem refusingStrategy_ok (refused : NsFile) (thread : Thread) (op : Op) :
    threadEffect thread op (refusingStrategy refused thread op).1
      (refusingStrategy refused thread op).2 := by
  cases op with
  | setns file flag =>
    by_cases hrefused : file = refused
    · simp only [refusingStrategy, if_pos hrefused]
      rfl
    · simp only [refusingStrategy, if_neg hrefused]
      rfl
  | _ => exact threadStrategy_ok true thread _

/-- The mount is made, the return to user namespace 1 is refused and the result is `Ok`. -/
theorem refused_return_reported_ok :
    ∃ tr thread', Exec threadWorld (DelegationCall.delegate ⟨4242, 2⟩ "/sys/fs/bpf" .allowAll).body.run
      (⟨1, 10⟩ : Thread) tr (.ok ()) thread' ∧ thread' ≠ (⟨1, 10⟩ : Thread) := by
  have hrun := exec_play (W := threadWorld) (refusingStrategy ⟨.self, .user, 1⟩)
    (refusingStrategy_ok ⟨.self, .user, 1⟩)
    (DelegationCall.delegate ⟨4242, 2⟩ "/sys/fs/bpf" .allowAll).body.run (⟨1, 10⟩ : Thread)
  refine ⟨_, _, hrun, ?_⟩
  show (⟨2, 10⟩ : Thread) ≠ ⟨1, 10⟩
  decide

end BpfRbacd.Namespace
