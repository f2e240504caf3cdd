import BpfRbacd.Lib.Interaction

/-!
# Namespace delegation

`src/namespace.rs`: the "nsenter dance". Opening a namespace file, `setns(2)`
and the mount calls are operations that the world answers; a failed call
answers with the text of its error. An open namespace file stands for the
namespace it was opened on and keeps it alive.

`delegate_bpf_to_namespace` and `revoke_bpf_delegation` differ in what they do
inside the target, so each is `inTargetNamespace` at its own call. Of an error
the outermost context is kept, which is what it displays.
-/

namespace BpfRbacd.Namespace

open Interaction (Prog Fallible perform attempt)

structure TargetNamespace where
  pid : UInt32
  usernsId : UInt64
  deriving DecidableEq, Repr

structure DelegationOpts where
  delegateCmds : UInt32
  delegateProgs : UInt32
  delegateMaps : UInt32
  delegateAttachs : UInt32
  deriving DecidableEq, Repr

def DelegationOpts.allowAll : DelegationOpts := ⟨0xFFFFFFFF, 0xFFFFFFFF, 0xFFFFFFFF, 0xFFFFFFFF⟩

def DelegationOpts.fromBitmaps (cmds progs maps attachs : UInt32) : DelegationOpts :=
  ⟨cmds, progs, maps, attachs⟩

/-- `{:#x}`. -/
def lowerHex (n : UInt32) : String := "0x" ++ String.ofList (Nat.toDigits 16 n.toNat)

def DelegationOpts.toMountData (opts : DelegationOpts) : String :=
  "delegate_cmds=" ++ lowerHex opts.delegateCmds ++ ",delegate_progs=" ++ lowerHex opts.delegateProgs ++
    ",delegate_maps=" ++ lowerHex opts.delegateMaps ++ ",delegate_attachs=" ++
    lowerHex opts.delegateAttachs

-- ---------------------------------------------------------------------------
-- Calls
-- ---------------------------------------------------------------------------

/-- `{pid_or_self}` of a path below `/proc`. -/
inductive Proc where
  | self
  | pid (pid : UInt32)
  deriving DecidableEq, Repr

inductive NsType where
  | user
  | mnt
  deriving DecidableEq, Repr

inductive CloneFlag where
  | newUser
  | newNs
  deriving DecidableEq, Repr

inductive MsFlag where
  | nosuid
  | nodev
  | noexec
  | relatime
  deriving DecidableEq, Repr

def nsPath (proc : Proc) (nsType : NsType) : String :=
  "/proc/" ++ (match proc with | .self => "self" | .pid pid => toString pid) ++ "/ns/" ++
    (match nsType with | .user => "user" | .mnt => "mnt")

/-- An open namespace file: the path it was opened by and the namespace. -/
structure NsFile where
  proc : Proc
  nsType : NsType
  nsId : UInt64
  deriving DecidableEq, Repr

inductive Op where
  /-- `metadata(..).ino()` of a namespace file. -/
  | ino (proc : Proc) (nsType : NsType)
  | openNs (proc : Proc) (nsType : NsType)
  | setns (file : NsFile) (flag : CloneFlag)
  | mount (source : Option String) (target : String) (fstype : Option String) (flags : List MsFlag)
      (data : Option String)
  | umount (target : String)

@[reducible] def Res : Op → Type
  | .ino .. => Except String UInt64
  | .openNs .. => Except String NsFile
  | .setns .. | .mount .. | .umount _ => Except String Unit

abbrev NamespaceM := Fallible Op Res String

def orFail (x : Prog Op Res (Except String α)) : NamespaceM α := ExceptT.mk x

def issue (op : Op) : Prog Op Res (Res op) := perform op

/-- `.context(..)`. -/
def context (text : String) (x : NamespaceM α) : NamespaceM α := ExceptT.adapt (fun _ => text) x

def setns (file : NsFile) (flag : CloneFlag) : NamespaceM Unit := orFail (issue (.setns file flag))

-- ---------------------------------------------------------------------------
-- Delegation and revocation
-- ---------------------------------------------------------------------------

def TargetNamespace.fromPid (pid : UInt32) : NamespaceM TargetNamespace := do
  let usernsId ← context ("Failed to stat " ++ nsPath (.pid pid) .user)
    (orFail (issue (.ino (.pid pid) .user)))
  return { pid, usernsId }

def openNsFd (proc : Proc) (nsType : NsType) : NamespaceM NsFile :=
  context ("Failed to open " ++ nsPath proc nsType) (orFail (issue (.openNs proc nsType)))

structure NsFiles where
  selfUserns : NsFile
  selfMntns : NsFile
  targetUserns : NsFile
  targetMntns : NsFile

def openNamespaces (target : TargetNamespace) : NamespaceM NsFiles := do
  let selfUserns ← openNsFd .self .user
  let selfMntns ← openNsFd .self .mnt
  let targetUserns ← openNsFd (.pid target.pid) .user
  let targetMntns ← openNsFd (.pid target.pid) .mnt
  return { selfUserns, selfMntns, targetUserns, targetMntns }

def visit (files : NsFiles) (act : NamespaceM Unit) : NamespaceM Unit := do
  context "Failed to enter target user namespace" (setns files.targetUserns .newUser)
  context "Failed to enter target mount namespace" (setns files.targetMntns .newNs)
  let result ← attempt act
  let _ ← attempt (setns files.selfUserns .newUser)
  let _ ← attempt (setns files.selfMntns .newNs)
  orFail (pure result)

/-- The common body of the two functions. -/
def inTargetNamespace (target : TargetNamespace) (act : NamespaceM Unit) : NamespaceM Unit := do
  let files ← openNamespaces target
  visit files act

def mountBpffs (mountPath : String) (opts : DelegationOpts) : NamespaceM Unit :=
  context "Failed to mount bpffs in target namespace"
    (orFail (issue (.mount (some "bpf") mountPath (some "bpf") [.nosuid, .nodev, .noexec, .relatime]
      (some opts.toMountData))))

def umountBpffs (mountPath : String) : NamespaceM Unit :=
  context "Failed to unmount bpffs" (orFail (issue (.umount mountPath)))

def delegateBpfToNamespace (target : TargetNamespace) (mountPath : String) (opts : DelegationOpts) :
    NamespaceM Unit :=
  inTargetNamespace target (mountBpffs mountPath opts)

def revokeBpfDelegation (target : TargetNamespace) (mountPath : String) : NamespaceM Unit :=
  inTargetNamespace target (umountBpffs mountPath)

/-- A call of one of the two, with its arguments. -/
inductive DelegationCall where
  | delegate (target : TargetNamespace) (mountPath : String) (opts : DelegationOpts)
  | revoke (target : TargetNamespace) (mountPath : String)

def DelegationCall.body : DelegationCall → NamespaceM Unit
  | .delegate target mountPath opts => delegateBpfToNamespace target mountPath opts
  | .revoke target mountPath => revokeBpfDelegation target mountPath

def DelegationCall.target : DelegationCall → TargetNamespace
  | .delegate target _ _ | .revoke target _ => target

def DelegationCall.act : DelegationCall → NamespaceM Unit
  | .delegate _ mountPath opts => mountBpffs mountPath opts
  | .revoke _ mountPath => umountBpffs mountPath

theorem DelegationCall.body_eq (call : DelegationCall) :
    call.body = inTargetNamespace call.target call.act := by
  cases call <;> rfl

-- ---------------------------------------------------------------------------
-- What a call does
-- ---------------------------------------------------------------------------

section
open Interaction
variable {W : World Op Res} {s s' : W.State} {tr : List (Event W)}

theorem exec_issue {op : Op} {a : Res op} :
    Exec W (issue op) s tr a s' ↔ W.answer s op a s' ∧ tr = [⟨s, op, a⟩] := exec_perform

/-- The ways `visit` can end: refused at the user namespace, refused at the
mount namespace, or with the result of `act` and both restores attempted. -/
inductive Visit (files : NsFiles) (act : NamespaceM Unit) :
    W.State → List (Event W) → Except String Unit → W.State → Prop
  | userRefused {s s' : W.State} {e : String} :
      W.answer s (.setns files.targetUserns .newUser) (.error e) s' →
      Visit files act s [⟨s, .setns files.targetUserns .newUser, .error e⟩]
        (.error "Failed to enter target user namespace") s'
  | mountRefused {s s₁ s' : W.State} {e : String} :
      W.answer s (.setns files.targetUserns .newUser) (.ok ()) s₁ →
      W.answer s₁ (.setns files.targetMntns .newNs) (.error e) s' →
      Visit files act s [⟨s, .setns files.targetUserns .newUser, .ok ()⟩,
        ⟨s₁, .setns files.targetMntns .newNs, .error e⟩]
        (.error "Failed to enter target mount namespace") s'
  | visited {s s₁ s₂ s₃ s₄ s' : W.State} {tr : List (Event W)} {r u m : Except String Unit} :
      W.answer s (.setns files.targetUserns .newUser) (.ok ()) s₁ →
      W.answer s₁ (.setns files.targetMntns .newNs) (.ok ()) s₂ →
      Exec W act.run s₂ tr r s₃ →
      W.answer s₃ (.setns files.selfUserns .newUser) u s₄ →
      W.answer s₄ (.setns files.selfMntns .newNs) m s' →
      Visit files act s (⟨s, .setns files.targetUserns .newUser, .ok ()⟩ ::
        ⟨s₁, .setns files.targetMntns .newNs, .ok ()⟩ :: (tr ++
        [⟨s₃, .setns files.selfUserns .newUser, u⟩, ⟨s₄, .setns files.selfMntns .newNs, m⟩])) r s'

theorem exec_attempt_bind {x : NamespaceM α} {f : Except String α → NamespaceM β}
    {q : Except String β} :
    Exec W (attempt x >>= f).run s tr q s' ↔
      ∃ r m t₁ t₂, Exec W x.run s t₁ r m ∧ Exec W (f r).run m t₂ q s' ∧ tr = t₁ ++ t₂ := by
  rw [exec_run_bind]
  constructor
  · rintro (⟨e, h, -⟩ | ⟨r, m, t₁, t₂, h₁, h₂, rfl⟩)
    · obtain ⟨_, -, hr⟩ := exec_run_attempt.mp h
      cases hr
    · obtain ⟨_, h₁, hr⟩ := exec_run_attempt.mp h₁
      cases hr
      exact ⟨r, m, t₁, t₂, h₁, h₂, rfl⟩
  · rintro ⟨r, m, t₁, t₂, h₁, h₂, rfl⟩
    exact .inr ⟨r, m, t₁, t₂, exec_run_attempt.mpr ⟨r, h₁, rfl⟩, h₂, rfl⟩

theorem exec_context {x : Prog Op Res (Except String α)} {text : String} {r : Except String α} :
    Exec W (context text (orFail x)).run s tr r s' ↔
      ∃ a, Exec W x s tr a s' ∧ r = a.mapError fun _ => text := exec_run_adapt

/-- Entering a namespace ends the run with the context, or lets it go on. -/
theorem enter_bind {f : Unit → NamespaceM α} {r : Except String α}
    (h : Exec W (context text (setns file flag) >>= f).run s tr r s') :
    (∃ e, W.answer s (.setns file flag) (.error e) s' ∧
        tr = [⟨s, .setns file flag, .error e⟩] ∧ r = .error text) ∨
      ∃ m t, W.answer s (.setns file flag) (.ok ()) m ∧ Exec W (f ()).run m t r s' ∧
        tr = ⟨s, .setns file flag, .ok ()⟩ :: t := by
  rcases exec_run_bind.mp h with ⟨e, hset, rfl⟩ | ⟨_, m, _, t, hset, hrest, rfl⟩
  · obtain ⟨a, hset, ha⟩ := exec_context.mp hset
    obtain ⟨hanswer, rfl⟩ := exec_issue.mp hset
    cases a with
    | error e => cases ha; exact .inl ⟨e, hanswer, rfl, rfl⟩
    | ok => cases ha
  · obtain ⟨a, hset, ha⟩ := exec_context.mp hset
    obtain ⟨hanswer, rfl⟩ := exec_issue.mp hset
    cases a with
    | error => cases ha
    | ok => exact .inr ⟨m, t, hanswer, hrest, rfl⟩

theorem visit_ok {files : NsFiles} {act : NamespaceM Unit} {r : Except String Unit}
    (h : Exec W (visit files act).run s tr r s') : Visit files act s tr r s' := by
  unfold visit at h
  rcases enter_bind h with ⟨e, huser, rfl, rfl⟩ | ⟨s₁, _, huser, h₁, rfl⟩
  · exact .userRefused huser
  rcases enter_bind h₁ with ⟨e, hmnt, rfl, rfl⟩ | ⟨s₂, _, hmnt, h₂, rfl⟩
  · exact .mountRefused huser hmnt
  obtain ⟨result, s₃, t₃, _, hact, h₃, rfl⟩ := exec_attempt_bind.mp h₂
  obtain ⟨u, s₄, _, _, hrun, h₄, rfl⟩ := exec_attempt_bind.mp h₃
  obtain ⟨m, s₅, _, _, hrun', h₅, rfl⟩ := exec_attempt_bind.mp h₄
  obtain ⟨hself, rfl⟩ := exec_issue.mp hrun
  obtain ⟨hselfMnt, rfl⟩ := exec_issue.mp hrun'
  obtain ⟨rfl, rfl, rfl⟩ := exec_pure.mp h₅
  exact .visited huser hmnt hact hself hselfMnt

/-- Whatever else a visit issues, it issues inside both namespaces. -/
theorem Visit.event {files : NsFiles} {act : NamespaceM Unit} {r : Except String Unit} {e : Event W}
    (h : Visit files act s tr r s') (he : e ∈ tr) (hop : ∀ file flag, e.op ≠ .setns file flag) :
    ∃ s₁ s₂ s₃ t, W.answer s (.setns files.targetUserns .newUser) (.ok ()) s₁ ∧
      W.answer s₁ (.setns files.targetMntns .newNs) (.ok ()) s₂ ∧ Exec W act.run s₂ t r s₃ ∧ e ∈ t := by
  cases h with
  | userRefused =>
    obtain rfl := List.mem_singleton.mp he
    exact absurd rfl (hop _ _)
  | mountRefused =>
    simp only [List.mem_cons, List.not_mem_nil, or_false] at he
    rcases he with rfl | rfl
    · exact absurd rfl (hop _ _)
    · exact absurd rfl (hop _ _)
  | @visited s₁ s₂ s₃ s₄ _ t _ u m huser hmnt hact _ _ =>
    simp only [List.mem_cons, List.mem_append, List.not_mem_nil, or_false] at he
    rcases he with rfl | rfl | he | rfl | rfl
    · exact absurd rfl (hop _ _)
    · exact absurd rfl (hop _ _)
    · exact ⟨s₁, s₂, s₃, t, huser, hmnt, hact, he⟩
    · exact absurd rfl (hop _ _)
    · exact absurd rfl (hop _ _)

theorem fromPid_ok (h : Exec W (TargetNamespace.fromPid pid).run s tr (.ok target) s') :
    W.answer s (.ino (.pid pid) .user) (.ok target.usernsId) s' ∧ target.pid = pid := by
  rcases exec_run_bind.mp h with ⟨_, -, he⟩ | ⟨ino, m, _, _, hstat, hret, -⟩
  · cases he
  · obtain ⟨a, hrun, ha⟩ := exec_context.mp hstat
    obtain ⟨hanswer, -⟩ := exec_issue.mp hrun
    obtain ⟨-, htarget, rfl⟩ := exec_run_pure.mp hret
    cases htarget
    cases a with
    | error => cases ha
    | ok => cases ha; exact ⟨hanswer, rfl⟩

def Op.Opening : Op → Prop
  | .openNs .. => True
  | _ => False

theorem uses_openNsFd : (openNsFd proc nsType).run.Uses Op.Opening :=
  uses_bind (uses_perform trivial) fun _ => uses_pure

theorem uses_openNamespaces : (openNamespaces target).run.Uses Op.Opening := by
  unfold openNamespaces
  refine uses_run_bind uses_openNsFd fun _ => ?_
  refine uses_run_bind uses_openNsFd fun _ => ?_
  refine uses_run_bind uses_openNsFd fun _ => ?_
  exact uses_run_bind uses_openNsFd fun _ => uses_pure

theorem open_bind {f : NsFile → NamespaceM α} {a : α}
    (h : Exec W (openNsFd proc nsType >>= f).run s tr (.ok a) s') :
    ∃ file m t, W.answer s (.openNs proc nsType) (.ok file) m ∧ Exec W (f file).run m t (.ok a) s' ∧
      tr = ⟨s, .openNs proc nsType, .ok file⟩ :: t := by
  rcases exec_run_bind.mp h with ⟨_, -, he⟩ | ⟨file, m, _, t, hopen, hrest, rfl⟩
  · cases he
  · obtain ⟨answer, hrun, ha⟩ := exec_context.mp hopen
    obtain ⟨hanswer, rfl⟩ := exec_issue.mp hrun
    cases answer with
    | error => cases ha
    | ok => cases ha; exact ⟨file, m, t, hanswer, hrest, rfl⟩

theorem openNamespaces_ok {files : NsFiles} (h : Exec W (openNamespaces target).run s tr (.ok files) s') :
    ∃ s₁ s₂ s₃, W.answer s (.openNs .self .user) (.ok files.selfUserns) s₁ ∧
      W.answer s₁ (.openNs .self .mnt) (.ok files.selfMntns) s₂ ∧
      W.answer s₂ (.openNs (.pid target.pid) .user) (.ok files.targetUserns) s₃ ∧
      W.answer s₃ (.openNs (.pid target.pid) .mnt) (.ok files.targetMntns) s' ∧
      tr = [⟨s, .openNs .self .user, .ok files.selfUserns⟩, ⟨s₁, .openNs .self .mnt, .ok files.selfMntns⟩,
        ⟨s₂, .openNs (.pid target.pid) .user, .ok files.targetUserns⟩,
        ⟨s₃, .openNs (.pid target.pid) .mnt, .ok files.targetMntns⟩] := by
  unfold openNamespaces at h
  obtain ⟨selfUserns, s₁, _, h₁, hrest₁, rfl⟩ := open_bind h
  obtain ⟨selfMntns, s₂, _, h₂, hrest₂, rfl⟩ := open_bind hrest₁
  obtain ⟨targetUserns, s₃, _, h₃, hrest₃, rfl⟩ := open_bind hrest₂
  obtain ⟨targetMntns, s₄, _, h₄, hrest₄, rfl⟩ := open_bind hrest₃
  obtain ⟨rfl, hfiles, rfl⟩ := exec_run_pure.mp hrest₄
  cases hfiles
  exact ⟨s₁, s₂, s₃, h₁, h₂, h₃, h₄, rfl⟩

/-- A call fails to open a file, or visits with the files it opened. -/
theorem inTargetNamespace_ok {act : NamespaceM Unit} {r : Except String Unit}
    (h : Exec W (inTargetNamespace target act).run s tr r s') :
    (∃ e, Exec W (openNamespaces target).run s tr (.error e) s' ∧ r = .error e) ∨
      ∃ files m t₁ t₂, Exec W (openNamespaces target).run s t₁ (.ok files) m ∧
        Visit files act m t₂ r s' ∧ tr = t₁ ++ t₂ := by
  rcases exec_run_bind.mp h with hfail | ⟨files, m, t₁, t₂, hopen, hvisit, htr⟩
  · exact .inl hfail
  · exact .inr ⟨files, m, t₁, t₂, hopen, visit_ok hvisit, htr⟩

/-- `mount(2)` and `umount(2)`. -/
def Op.Remounting : Op → Prop
  | .mount .. | .umount _ => True
  | _ => False

theorem Op.Remounting.not_setns {op : Op} (h : op.Remounting) (file : NsFile) (flag : CloneFlag) :
    op ≠ .setns file flag := by
  rintro rfl
  exact h

theorem Op.Opening.not_remounting {op : Op} (h : op.Opening) : ¬ op.Remounting := by
  cases op with
  | openNs => exact id
  | _ => exact absurd h id

/-- A mount or unmount that succeeded. -/
def remounted (e : Event W) : Bool :=
  match e with
  | ⟨_, .mount .., .ok _⟩ | ⟨_, .umount _, .ok _⟩ => true
  | _ => false

theorem remounted_remounting {e : Event W} (h : remounted e = true) : e.op.Remounting := by
  obtain ⟨_, op, _⟩ := e
  cases op with
  | mount => trivial
  | umount => trivial
  | _ => cases h

/-- What a call does to the mounts is one operation, whose outcome is its own. -/
theorem DelegationCall.act_event {call : DelegationCall} {r : Except String Unit}
    (h : Exec W call.act.run s tr r s') :
    ∃ e : Event W, tr = [e] ∧ e.before = s ∧ e.op.Remounting ∧ (r = .ok () ↔ remounted e = true) := by
  cases call with
  | delegate target mountPath opts =>
    obtain ⟨a, hmount, rfl⟩ := exec_context.mp h
    obtain ⟨-, rfl⟩ := exec_issue.mp hmount
    refine ⟨_, rfl, rfl, trivial, ?_⟩
    cases a with
    | error => exact iff_of_false nofun nofun
    | ok => exact iff_of_true rfl rfl
  | revoke target mountPath =>
    obtain ⟨a, humount, rfl⟩ := exec_context.mp h
    obtain ⟨-, rfl⟩ := exec_issue.mp humount
    refine ⟨_, rfl, rfl, trivial, ?_⟩
    cases a with
    | error => exact iff_of_false nofun nofun
    | ok => exact iff_of_true rfl rfl

end

end BpfRbacd.Namespace
