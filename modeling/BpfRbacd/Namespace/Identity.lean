import BpfRbacd.Namespace.Restore
import Mathlib.Logic.Function.Basic

/-!
# The namespace behind a PID

The PID of a target is resolved three times: by `from_pid`, for the user
namespace file and for the mount namespace file. In the world here processes
exit and a free PID is given to a new process between any two steps.

`resolved` is a history of the processes the PID was resolved to. No step of
the code reads it.
-/

namespace BpfRbacd.Namespace

open Interaction Relation

/-- A process: its namespaces and an identity that is never given twice. -/
structure Process extends Thread where
  id : Nat
  deriving DecidableEq, Repr

structure System where
  thread : Thread
  procs : UInt32 → Option Process
  born : Nat
  resolved : List Process

def System.resolve (s : System) (proc : Process) : System :=
  { s with resolved := proc :: s.resolved }

def System.exit (s : System) (pid : UInt32) : System :=
  { s with procs := Function.update s.procs pid none }

def System.spawn (s : System) (pid : UInt32) (ns : Thread) : System :=
  { s with procs := Function.update s.procs pid (some ⟨ns, s.born⟩), born := s.born + 1 }

inductive Disturbs : System → System → Prop
  | exit (s : System) (pid : UInt32) : Disturbs s (s.exit pid)
  | spawn (s : System) (pid : UInt32) (ns : Thread) (hfree : s.procs pid = none) :
      Disturbs s (s.spawn pid ns)

/-- What an operation does while nobody else moves. -/
def identityEffect (s : System) (op : Op) (r : Res op) (s' : System) : Prop :=
  match op, r with
  | .ino (.pid pid) nsType, .ok ino =>
    ∃ proc, s.procs pid = some proc ∧ ino = proc.nsId nsType ∧ s' = s.resolve proc
  | .openNs .self nsType, .ok file => file = ⟨.self, nsType, s.thread.nsId nsType⟩ ∧ s' = s
  | .openNs (.pid pid) nsType, .ok file =>
    ∃ proc, s.procs pid = some proc ∧ file = ⟨.pid pid, nsType, proc.nsId nsType⟩ ∧
      s' = s.resolve proc
  | .setns file flag, .ok _ => s' = { s with thread := s.thread.enter file flag }
  | _, _ => s' = s

def identityWorld : World Op Res := World.disturbed ⟨System, identityEffect⟩ Disturbs

def Op.Mounting : Op → Prop
  | .mount .. => True
  | _ => False

-- ---------------------------------------------------------------------------
-- Identities
-- ---------------------------------------------------------------------------

def System.Known (s : System) (proc : Process) : Prop :=
  (∃ pid, s.procs pid = some proc) ∨ proc ∈ s.resolved

/-- An identity stands for one process and was given before now. -/
structure System.Consistent (s : System) : Prop where
  unique : ∀ p q, s.Known p → s.Known q → p.id = q.id → p = q
  older : ∀ p, s.Known p → p.id < s.born

variable {s s' : System}

/-- Knowing fewer processes, and none of a later identity, keeps consistency. -/
theorem System.Consistent.mono (h : s.Consistent) (hborn : s.born ≤ s'.born)
    (hknown : ∀ p, s'.Known p → s.Known p) : s'.Consistent where
  unique p q hp hq := h.unique p q (hknown p hp) (hknown q hq)
  older p hp := Nat.lt_of_lt_of_le (h.older p (hknown p hp)) hborn

theorem known_exit {pid : UInt32} {p : Process} (h : (s.exit pid).Known p) : s.Known p := by
  rcases h with ⟨pid', hp⟩ | hp
  · by_cases heq : pid' = pid
    · simp [System.exit, heq] at hp
    · exact .inl ⟨pid', by simpa [System.exit, Function.update_of_ne heq] using hp⟩
  · exact .inr hp

theorem known_spawn {pid : UInt32} {ns : Thread} {p : Process} (h : (s.spawn pid ns).Known p) :
    s.Known p ∨ p = ⟨ns, s.born⟩ := by
  rcases h with ⟨pid', hp⟩ | hp
  · by_cases heq : pid' = pid
    · simp only [System.spawn, heq, Function.update_self, Option.some.injEq] at hp
      exact .inr hp.symm
    · exact .inl (.inl ⟨pid', by simpa [System.spawn, Function.update_of_ne heq] using hp⟩)
  · exact .inl (.inr hp)

theorem known_resolve {pid : UInt32} {proc p : Process} (hproc : s.procs pid = some proc)
    (h : (s.resolve proc).Known p) : s.Known p := by
  rcases h with hp | hp
  · exact .inl hp
  · rcases List.mem_cons.mp hp with rfl | hp
    · exact .inl ⟨pid, hproc⟩
    · exact .inr hp

theorem Disturbs.consistent (h : Disturbs s s') (hs : s.Consistent) : s'.Consistent := by
  cases h with
  | exit pid => exact hs.mono (Nat.le_refl _) fun _ => known_exit
  | spawn pid ns hfree =>
    refine ⟨fun p q hp hq hid => ?_, fun p hp => ?_⟩
    · rcases known_spawn hp with hp | rfl <;> rcases known_spawn hq with hq | rfl
      · exact hs.unique p q hp hq hid
      · exact absurd hid (Nat.ne_of_lt (hs.older p hp))
      · exact absurd hid.symm (Nat.ne_of_lt (hs.older q hq))
      · rfl
    · rcases known_spawn hp with hp | rfl
      · exact Nat.lt_succ_of_lt (hs.older p hp)
      · exact Nat.lt_succ_self _

theorem identityEffect_consistent {op : Op} {r : Res op} (h : identityEffect s op r s')
    (hs : s.Consistent) : s'.Consistent := by
  cases op with
  | ino proc nsType =>
    cases r with
    | error => cases proc <;> exact h ▸ hs
    | ok =>
      cases proc with
      | self => exact h ▸ hs
      | pid pid =>
        obtain ⟨p, hp, -, rfl⟩ := h
        exact hs.mono (Nat.le_refl _) fun _ => known_resolve hp
  | openNs proc nsType =>
    cases r with
    | error => cases proc <;> exact h ▸ hs
    | ok =>
      cases proc with
      | self => exact h.2 ▸ hs
      | pid pid =>
        obtain ⟨p, hp, -, rfl⟩ := h
        exact hs.mono (Nat.le_refl _) fun _ => known_resolve hp
  | setns file flag =>
    cases r with
    | error => exact h ▸ hs
    | ok => exact h ▸ hs.mono (Nat.le_refl _) fun _ hp => hp
  | _ => exact h ▸ hs

theorem disturbs_consistent (h : ReflTransGen Disturbs s s') (hs : s.Consistent) : s'.Consistent := by
  induction h with
  | refl => exact hs
  | tail _ hstep ih => exact hstep.consistent ih

theorem disturbs_frame (h : ReflTransGen Disturbs s s') :
    s'.thread = s.thread ∧ s'.resolved = s.resolved := by
  induction h with
  | refl => exact ⟨rfl, rfl⟩
  | tail _ hstep ih => cases hstep <;> exact ih

theorem exec_consistent {p : Prog Op Res α} {tr : List (Event identityWorld)} {a : α}
    (h : Exec identityWorld p s tr a s') (hs : s.Consistent) : s'.Consistent := by
  refine exec_invariant (W := identityWorld) (I := System.Consistent) ?_ h hs
  rintro s op r s' ⟨m, hothers, heffect⟩ hs
  exact identityEffect_consistent heffect (disturbs_consistent hothers hs)

-- ---------------------------------------------------------------------------
-- The three resolutions
-- ---------------------------------------------------------------------------

/-- A resolution adds the process that has the PID at that moment. -/
theorem answer_ino {pid : UInt32} {nsType : NsType} {ino : UInt64}
    (h : identityWorld.answer s (.ino (.pid pid) nsType) (.ok ino) s') :
    ∃ p : Process, ino = p.nsId nsType ∧ s'.resolved = p :: s.resolved ∧ s'.thread = s.thread := by
  obtain ⟨m, hothers, p, -, hino, rfl⟩ := h
  obtain ⟨hthread, hresolved⟩ := disturbs_frame hothers
  exact ⟨p, hino, by rw [← hresolved]; rfl, hthread⟩

theorem answer_openNs {pid : UInt32} {nsType : NsType} {file : NsFile}
    (h : identityWorld.answer s (.openNs (.pid pid) nsType) (.ok file) s') :
    ∃ p : Process, file.nsId = p.nsId nsType ∧ s'.resolved = p :: s.resolved ∧
      s'.thread = s.thread := by
  obtain ⟨m, hothers, p, -, rfl, rfl⟩ := h
  obtain ⟨hthread, hresolved⟩ := disturbs_frame hothers
  exact ⟨p, rfl, by rw [← hresolved]; rfl, hthread⟩

theorem answer_openSelf {nsType : NsType} {file : NsFile}
    (h : identityWorld.answer s (.openNs .self nsType) (.ok file) s') :
    s'.resolved = s.resolved ∧ s'.thread = s.thread := by
  obtain ⟨m, hothers, -, rfl⟩ := h
  exact (disturbs_frame hothers).symm

theorem answer_setns {file : NsFile} {flag : CloneFlag}
    (h : identityWorld.answer s (.setns file flag) (.ok ()) s') :
    s'.resolved = s.resolved ∧ s'.thread = s.thread.enter file flag := by
  obtain ⟨m, hothers, rfl⟩ := h
  obtain ⟨hthread, hresolved⟩ := disturbs_frame hothers
  exact ⟨hresolved, by rw [← hthread]⟩

/-- The two files belong to whoever had the PID when each was opened. -/
theorem openNamespaces_resolved {tr : List (Event identityWorld)} {files : NsFiles}
    (h : Exec identityWorld (openNamespaces target).run s tr (.ok files) s') :
    ∃ p₂ p₃ : Process, s'.resolved = p₃ :: p₂ :: s.resolved ∧ files.targetUserns.nsId = p₂.user ∧
      files.targetMntns.nsId = p₃.mnt := by
  obtain ⟨s₁, s₂, s₃, hself, hselfMnt, huser, hmnt, -⟩ := openNamespaces_ok h
  obtain ⟨h₁, -⟩ := answer_openSelf hself
  obtain ⟨h₂, -⟩ := answer_openSelf hselfMnt
  obtain ⟨p₂, hp₂, h₃, -⟩ := answer_openNs huser
  obtain ⟨p₃, hp₃, h₄, -⟩ := answer_openNs hmnt
  exact ⟨p₂, p₃, by rw [h₄, h₃, h₂, h₁], hp₂, hp₃⟩

theorem Op.Mounting.remounting {op : Op} (h : op.Mounting) : op.Remounting := by
  cases op with
  | mount => trivial
  | _ => exact absurd h id

theorem openNamespaces_not_mounting {tr : List (Event identityWorld)} {r : Except String NsFiles}
    (h : Exec identityWorld (openNamespaces target).run s tr r s') : ∀ e ∈ tr, ¬ e.op.Mounting :=
  fun e he hmounting => (exec_uses uses_openNamespaces h e he).not_remounting hmounting.remounting

/-- The thread mounts in the two namespaces that were opened. -/
theorem Visit.mount_thread {files : NsFiles} {mountPath : String} {opts : DelegationOpts}
    {tr : List (Event identityWorld)} {r : Except String Unit}
    (h : Visit (W := identityWorld) files (mountBpffs mountPath opts) s tr r s') :
    ∀ e ∈ tr, e.op.Mounting → System.resolved e.before = s.resolved ∧
      System.thread e.before = ⟨files.targetUserns.nsId, files.targetMntns.nsId⟩ := by
  intro e he hmounting
  obtain ⟨s₁, s₂, s₃, t, hentered, hentered', hrun, het⟩ := h.event he hmounting.remounting.not_setns
  obtain ⟨h₁, hthread₁⟩ := answer_setns hentered
  obtain ⟨h₂, hthread₂⟩ := answer_setns hentered'
  obtain ⟨a, hmount, -⟩ := exec_context.mp hrun
  obtain ⟨-, rfl⟩ := exec_issue.mp hmount
  obtain rfl := List.mem_singleton.mp het
  refine ⟨by rw [h₂, h₁], ?_⟩
  rw [hthread₂, hthread₁]
  rfl

-- ---------------------------------------------------------------------------
-- A reused PID
-- ---------------------------------------------------------------------------

def System.reuse (s : System) (pid : UInt32) (ns : Thread) : System := (s.exit pid).spawn pid ns

theorem disturbs_reuse (s : System) (pid : UInt32) (ns : Thread) :
    ReflTransGen Disturbs s (s.reuse pid ns) :=
  .tail (.single (.exit s pid)) (.spawn _ pid ns (by simp [System.exit]))

def System.lookup (s : System) (pid : UInt32) (value : Process → α) : Except String α × System :=
  match s.procs pid with
  | none => (.error "No such file or directory", s)
  | some proc => (.ok (value proc), s.resolve proc)

/-- Everything succeeds. The PID is reused just before its `reused` namespace is opened. -/
def identityStrategy (reused : Option NsType) (s : System) : (op : Op) → Res op × System
  | .ino .self nsType => (.ok (s.thread.nsId nsType), s)
  | .ino (.pid pid) nsType => s.lookup pid fun proc => proc.nsId nsType
  | .openNs .self nsType => (.ok ⟨.self, nsType, s.thread.nsId nsType⟩, s)
  | .openNs (.pid pid) nsType =>
    (if reused = some nsType then s.reuse pid ⟨3, 30⟩ else s).lookup pid fun proc =>
      ⟨.pid pid, nsType, proc.nsId nsType⟩
  | .setns file flag => (.ok (), { s with thread := s.thread.enter file flag })
  | .mount .. | .umount _ => (.ok (), s)

theorem identityStrategy_ok (reused : Option NsType) (s : System) (op : Op) :
    identityWorld.answer s op (identityStrategy reused s op).1 (identityStrategy reused s op).2 := by
  cases op with
  | ino proc nsType =>
    refine ⟨s, .refl, ?_⟩
    cases proc with
    | self => exact rfl
    | pid pid =>
      simp only [identityStrategy, System.lookup]
      split
      · exact rfl
      · next proc hproc => exact ⟨proc, hproc, rfl, rfl⟩
  | openNs proc nsType =>
    cases proc with
    | self => exact ⟨s, .refl, rfl, rfl⟩
    | pid pid =>
      refine ⟨if reused = some nsType then s.reuse pid ⟨3, 30⟩ else s, ?_, ?_⟩
      · split
        · exact disturbs_reuse s pid _
        · exact .refl
      · simp only [identityStrategy]
        generalize (if reused = some nsType then s.reuse pid ⟨3, 30⟩ else s) = m
        simp only [System.lookup]
        split
        · exact rfl
        · next proc hproc => exact ⟨proc, hproc, rfl, rfl⟩
  | _ => exact ⟨s, .refl, rfl⟩

/-- Process 4242 in user namespace 2 and mount namespace 20, seen from outside. -/
def initial : System where
  thread := ⟨1, 10⟩
  procs := Function.update (fun _ => none) 4242 (some ⟨⟨2, 20⟩, 0⟩)
  born := 1
  resolved := []

theorem initial_known {p : Process} (h : initial.Known p) : p = ⟨⟨2, 20⟩, 0⟩ := by
  rcases h with ⟨pid, hp⟩ | hp
  · by_cases heq : pid = 4242
    · simp only [initial, heq, Function.update_self, Option.some.injEq] at hp
      exact hp.symm
    · simp [initial, Function.update_of_ne heq] at hp
  · exact absurd hp List.not_mem_nil

theorem initial_consistent : initial.Consistent where
  unique p q hp hq _ := (initial_known hp).trans (initial_known hq).symm
  older p hp := by
    rw [initial_known hp]
    exact Nat.zero_lt_one

def identification : List (Event identityWorld) × Except String TargetNamespace × System :=
  (TargetNamespace.fromPid 4242).run.play (W := identityWorld) (identityStrategy none) initial

theorem identification_exec :
    Exec identityWorld (TargetNamespace.fromPid 4242).run initial identification.1
      (.ok ⟨4242, 2⟩) identification.2.2 :=
  exec_play (W := identityWorld) (identityStrategy none) (identityStrategy_ok none) _ initial

def reuseRun (reused : Option NsType) : List (Event identityWorld) × Except String Unit × System :=
  (delegateBpfToNamespace ⟨4242, 2⟩ "/sys/fs/bpf" .allowAll).run.play (W := identityWorld)
    (identityStrategy reused) identification.2.2

theorem reuseRun_exec (reused : Option NsType) :
    Exec identityWorld (delegateBpfToNamespace ⟨4242, 2⟩ "/sys/fs/bpf" .allowAll).run
      identification.2.2 (reuseRun reused).1 (reuseRun reused).2.1 (reuseRun reused).2.2 :=
  exec_play (W := identityWorld) (identityStrategy reused) (identityStrategy_ok reused) _ _

/-- At the mount the thread is in the user namespace of the process that had
the PID when that file was opened, and in the mount namespace of the one that
had it when that file was opened. The first has the identified namespace if it
is the process `from_pid` saw, and the second shares it if it is the first. -/
theorem mount_reaches_resolved (pid : UInt32) (target : TargetNamespace) (mountPath : String)
    (opts : DelegationOpts) (s m s' : System) (t₁ t₂ : List (Event identityWorld))
    (r : Except String Unit) (hs : s.Consistent) (hnone : s.resolved = [])
    (hidentify : Exec identityWorld (TargetNamespace.fromPid pid).run s t₁ (.ok target) m)
    (hdelegate : Exec identityWorld (delegateBpfToNamespace target mountPath opts).run m t₂ r s') :
    ∀ e ∈ t₂, e.op.Mounting → ∃ p₁ p₂ p₃ : Process,
      System.resolved e.before = [p₃, p₂, p₁] ∧ target.usernsId = p₁.user ∧
      System.thread e.before = ⟨p₂.user, p₃.mnt⟩ ∧
      (p₂.id = p₁.id → p₂.user = target.usernsId) ∧
      (p₃.id = p₂.id → p₃.mnt = p₂.mnt) := by
  intro e he hmounting
  obtain ⟨hino, -⟩ := fromPid_ok hidentify
  obtain ⟨p₁, hp₁, hfirst, -⟩ := answer_ino hino
  rcases inTargetNamespace_ok hdelegate with ⟨_, hopen, -⟩ | ⟨files, n, t₃, t₄, hopen, hvisit, rfl⟩
  · exact absurd hmounting (openNamespaces_not_mounting hopen e he)
  rcases List.mem_append.mp he with he | he
  · exact absurd hmounting (openNamespaces_not_mounting hopen e he)
  obtain ⟨p₂, p₃, hresolved, hp₂, hp₃⟩ := openNamespaces_resolved hopen
  obtain ⟨hkept, hthread⟩ := hvisit.mount_thread e he hmounting
  rw [hfirst, hnone] at hresolved
  have hn : System.Consistent n := exec_consistent hopen (exec_consistent hidentify hs)
  have hknown : ∀ p ∈ [p₃, p₂, p₁], System.Known n p := fun p hp => .inr (by rw [hresolved]; exact hp)
  refine ⟨p₁, p₂, p₃, hkept.trans hresolved, hp₁, by rw [hthread, hp₂, hp₃], fun hid => ?_,
    fun hid => ?_⟩
  · obtain rfl := hn.unique _ _ (hknown p₂ (by simp)) (hknown p₁ (by simp)) hid
    exact hp₁.symm
  · obtain rfl := hn.unique _ _ (hknown p₃ (by simp)) (hknown p₂ (by simp)) hid
    rfl

/-- Without reuse the mount is in the identified namespace, of one process. -/
theorem mount_reaches_process : ∃ e ∈ (reuseRun none).1, e.op.Mounting ∧
    (System.thread e.before).user = 2 ∧
    ∃ p ∈ System.resolved e.before, System.thread e.before = p.toThread := by
  have he : (reuseRun none).1.get ⟨6, by decide⟩ ∈ (reuseRun none).1 := List.get_mem _ _
  obtain ⟨p₁, p₂, p₃, hresolved, -, hthread, huser, hmnt⟩ := mount_reaches_resolved 4242 ⟨4242, 2⟩
    "/sys/fs/bpf" .allowAll initial _ _ _ _ _ initial_consistent rfl identification_exec
    (reuseRun_exec none) _ he trivial
  have hids : p₁.id = 0 ∧ p₂.id = 0 ∧ p₃.id = 0 := by cases hresolved; exact ⟨rfl, rfl, rfl⟩
  obtain ⟨h₁, h₂, h₃⟩ := hids
  refine ⟨_, he, trivial, ?_, p₂, by rw [hresolved]; simp, ?_⟩
  · rw [hthread]
    exact huser (h₂.trans h₁.symm)
  · rw [hthread, hmnt (h₃.trans h₂.symm)]

/-- `Q` holds at every mount of a delegation to an identified target. -/
def AtEveryMount (Q : TargetNamespace → System → Prop) : Prop :=
  ∀ (pid : UInt32) (target : TargetNamespace) (mountPath : String) (opts : DelegationOpts)
    (s m s' : System) (t₁ t₂ : List (Event identityWorld)) (r : Except String Unit),
    s.Consistent → s.resolved = [] →
    Exec identityWorld (TargetNamespace.fromPid pid).run s t₁ (.ok target) m →
    Exec identityWorld (delegateBpfToNamespace target mountPath opts).run m t₂ r s' →
    ∀ e ∈ t₂, e.op.Mounting → Q target e.before

theorem AtEveryMount.reuse {Q : TargetNamespace → System → Prop} (h : AtEveryMount Q)
    (reused : Option NsType) (hlen : 6 < (reuseRun reused).1.length)
    (hmount : ((reuseRun reused).1.get ⟨6, hlen⟩).op.Mounting) :
    Q ⟨4242, 2⟩ ((reuseRun reused).1.get ⟨6, hlen⟩).before :=
  h 4242 ⟨4242, 2⟩ "/sys/fs/bpf" .allowAll initial _ _ _ _ _ initial_consistent rfl identification_exec
    (reuseRun_exec reused) _ (List.get_mem _ _) hmount

/-- A PID reused before its user namespace is opened leads the mount into
another user namespace, one reused between the two files into namespaces of
two processes. -/
theorem reused_pid_misleads :
    ¬ AtEveryMount (fun target s => s.thread.user = target.usernsId) ∧
    ¬ AtEveryMount (fun _ s => ∃ p ∈ s.resolved, s.thread = p.toThread) := by
  constructor
  · intro h
    have huser := h.reuse (some .user) (by decide) trivial
    exact absurd huser (by decide)
  · intro h
    have hprocess := h.reuse (some .mnt) (by decide) trivial
    exact absurd hprocess (by decide)

end BpfRbacd.Namespace
