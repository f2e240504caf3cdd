import BpfRbacd.Namespace.Restore

/-!
# Where the mounts happen

A thread makes delegations and revocations one after another, each from the
namespaces the last one left it in, which need not be its own. Every mount and
unmount still happens inside the two namespaces that the same call opened for
its target: both entries stand before it and end the call when refused.
-/

namespace BpfRbacd.Namespace

open Interaction

def opened {W : World Op Res} (target : TargetNamespace) (e : Event W) : Option NsFile :=
  match e with
  | ⟨_, .openNs (.pid pid) _, .ok file⟩ => if pid = target.pid then some file else none
  | _ => none

/-- The namespace files a call opened for its target. -/
def openedFor {W : World Op Res} (target : TargetNamespace) (tr : List (Event W)) : List NsFile :=
  tr.filterMap (opened target)

section
variable {W : World Op Res} {s s' : W.State} {tr : List (Event W)} {target : TargetNamespace}

@[simp] theorem opened_setns {r : Except String Unit} :
    opened target (⟨s, .setns file flag, r⟩ : Event W) = none := rfl

theorem opened_self {r : Except String NsFile} :
    opened target (⟨s, .openNs .self nsType, r⟩ : Event W) = none := rfl

theorem opened_target {file : NsFile} :
    opened target (⟨s, .openNs (.pid target.pid) nsType, .ok file⟩ : Event W) = some file := if_pos rfl

theorem opened_of_remounting {e : Event W} (h : e.op.Remounting) : opened target e = none := by
  obtain ⟨_, op, _⟩ := e
  cases op with
  | mount => rfl
  | umount => rfl
  | _ => exact absurd h id

theorem DelegationCall.visit_opens_nothing {call : DelegationCall} {files : NsFiles}
    {r : Except String Unit} (h : Visit files call.act s tr r s') : openedFor target tr = [] := by
  cases h with
  | userRefused => rfl
  | mountRefused => rfl
  | visited _ _ hact _ _ =>
    obtain ⟨e, rfl, -, he, -⟩ := DelegationCall.act_event hact
    have hskip : opened target e = none := opened_of_remounting he
    simp [openedFor, hskip]

theorem openNamespaces_opened {files : NsFiles}
    (h : Exec W (openNamespaces target).run s tr (.ok files) s') :
    openedFor target tr = [files.targetUserns, files.targetMntns] := by
  obtain ⟨s₁, s₂, s₃, -, -, -, -, rfl⟩ := openNamespaces_ok h
  rw [openedFor, List.filterMap_cons_none opened_self, List.filterMap_cons_none opened_self,
    List.filterMap_cons_some opened_target, List.filterMap_cons_some opened_target, List.filterMap_nil]

end

variable {thread thread' : Thread} {tr : List (Event threadWorld)}

theorem openNamespaces_types {target : TargetNamespace} {files : NsFiles}
    (h : Exec threadWorld (openNamespaces target).run thread tr (.ok files) thread') :
    files.targetUserns.nsType = .user ∧ files.targetMntns.nsType = .mnt := by
  obtain ⟨s₁, s₂, s₃, -, -, ⟨-, huser, -⟩, ⟨-, hmnt, -⟩, -⟩ := openNamespaces_ok h
  exact ⟨huser, hmnt⟩

/-- A call mounts or unmounts only inside the namespaces it opened. -/
theorem DelegationCall.confined {call : DelegationCall} {r : Except String Unit}
    (h : Exec threadWorld call.body.run thread tr r thread') :
    ∀ e ∈ tr, e.op.Remounting → ∃ user mnt : NsFile, openedFor call.target tr = [user, mnt] ∧
      user.nsType = .user ∧ mnt.nsType = .mnt ∧ e.before = (⟨user.nsId, mnt.nsId⟩ : Thread) := by
  intro e he hop
  rw [call.body_eq] at h
  rcases inTargetNamespace_ok h with ⟨_, hopen, -⟩ | ⟨files, m, t₁, t₂, hopen, hvisit, rfl⟩
  · exact absurd hop (exec_uses uses_openNamespaces hopen e he).not_remounting
  rcases List.mem_append.mp he with he | he
  · exact absurd hop (exec_uses uses_openNamespaces hopen e he).not_remounting
  obtain ⟨s₁, s₂, s₃, t, huser, hmnt, hact, het⟩ := hvisit.event he hop.not_setns
  obtain ⟨_, rfl, hbefore, -, -⟩ := DelegationCall.act_event hact
  obtain rfl := List.mem_singleton.mp het
  obtain ⟨htype, htype'⟩ := openNamespaces_types hopen
  refine ⟨files.targetUserns, files.targetMntns, ?_, htype, htype', ?_⟩
  · rw [openedFor, List.filterMap_append]
    show openedFor _ t₁ ++ openedFor _ t₂ = _
    rw [openNamespaces_opened hopen, DelegationCall.visit_opens_nothing hvisit, List.append_nil]
  · obtain rfl : s₁ = Thread.enter m files.targetUserns .newUser := huser
    rw [hbefore]
    exact hmnt

/-- Whatever the earlier calls of the thread were, and however they ended. -/
theorem mounts_confined {turns : List (Turn threadWorld DelegationCall (Except String Unit))}
    (h : Turns threadWorld (fun call : DelegationCall => call.body.run) thread turns thread') :
    ∀ t ∈ turns, ∀ e ∈ t.trace, e.op.Remounting → ∃ user mnt : NsFile,
      openedFor t.item.target t.trace = [user, mnt] ∧ user.nsType = .user ∧ mnt.nsType = .mnt ∧
        e.before = (⟨user.nsId, mnt.nsId⟩ : Thread) := by
  intro t ht
  exact DelegationCall.confined (h.exec t ht)

/-- Left in user namespace 2 by a refused delegation, the thread delegates again. -/
def secondDelegation : List (Event threadWorld) × Except String Unit × Thread :=
  (delegateBpfToNamespace ⟨4242, 2⟩ "/sys/fs/bpf" .allowAll).run.play (W := threadWorld)
    (threadStrategy true) (⟨2, 10⟩ : Thread)

theorem second_delegation_confined :
    ∃ e ∈ secondDelegation.1, e.op.Remounting ∧ e.before = (⟨2, 20⟩ : Thread) := by
  have hsecond : Exec threadWorld (delegateBpfToNamespace ⟨4242, 2⟩ "/sys/fs/bpf" .allowAll).run
      (⟨2, 10⟩ : Thread) secondDelegation.1 secondDelegation.2.1 secondDelegation.2.2 :=
    exec_play (W := threadWorld) (threadStrategy true) (threadStrategy_ok true) _ _
  have hturns : Turns threadWorld (fun call : DelegationCall => call.body.run) (⟨1, 10⟩ : Thread)
      [⟨.delegate ⟨4242, 2⟩ "/sys/fs/bpf" .allowAll, (⟨1, 10⟩ : Thread), (delegation false).1,
          (delegation false).2.1, (delegation false).2.2⟩,
        ⟨.delegate ⟨4242, 2⟩ "/sys/fs/bpf" .allowAll, (⟨2, 10⟩ : Thread), secondDelegation.1,
          secondDelegation.2.1, secondDelegation.2.2⟩] secondDelegation.2.2 :=
    .cons (delegation_exec false) (.cons hsecond .nil)
  have he : secondDelegation.1.get ⟨6, by decide⟩ ∈ secondDelegation.1 := List.get_mem _ _
  obtain ⟨user, mnt, hopened, -, -, hbefore⟩ := mounts_confined hturns _
    (List.mem_cons_of_mem _ List.mem_cons_self) _ he trivial
  obtain ⟨rfl, hrest⟩ := List.cons.inj hopened
  obtain ⟨rfl, -⟩ := List.cons.inj hrest
  exact ⟨_, he, trivial, hbefore⟩

end BpfRbacd.Namespace
