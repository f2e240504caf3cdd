import Mathlib.Data.List.Forall2
import Mathlib.Logic.Function.Basic
import BpfRbacd.Lib.Callers
import BpfRbacd.Lib.Outcome
import BpfRbacd.Namespace.Lifecycle
import BpfRbacd.Namespace.Reports

/-!
# Delegations at the same time

`setns` acts on the calling thread, so calls on different threads do not get in
each other's way, but they share the mounts. Any number of delegations and
revocations run here at once, each on a thread of its own that may be in any
namespaces when it begins, for any targets and paths, and every operation may
fail. `/proc/self` is the process, so what it leads to may be another thread's
namespace.

A call takes effect at its one mount or unmount: the mounts are at any time
those that the calls leave which have got there, made one after the other in
that order (`concurrent_calls_linearize`).
-/

namespace BpfRbacd.Namespace

open Interaction
open Relation (ReflTransGen)

-- ---------------------------------------------------------------------------
-- The kernel
-- ---------------------------------------------------------------------------

/-- The same mounts, on another thread. -/
def MountSystem.on (s : MountSystem) (thread : Thread) : MountSystem := { s with thread }

structure Kernel where
  threads : Nat → Thread
  table : MountSystem
  /-- Who has mounted or unmounted, in this order. -/
  log : List Nat

section
variable (procs : UInt32 → Thread)

/-- As `faultEffect`, with any file for `/proc/self`. -/
def siblingEffect (s : MountSystem) (op : Op) (r : Res op) (s' : MountSystem) : Prop :=
  match op, r with
  | .openNs .self _, .ok _ => s' = s
  | op, r => faultEffect procs s op r s'

/-- The operation of a caller, on its thread. -/
def kernelEffect (s : Kernel) (i : Nat) (op : Op) (r : Res op) (s' : Kernel) : Prop :=
  ∃ table, siblingEffect procs (s.table.on (s.threads i)) op r table ∧
    s' = ⟨Function.update s.threads i table.thread, table,
      if remounted (reply op r) then s.log ++ [i] else s.log⟩

def kernelWorld : Shared Op Res where
  State := Kernel
  answer := kernelEffect procs

/-- What happens to the thread, whatever the mounts are. -/
def callerWorld : World Op Res where
  State := Thread
  answer thread op r thread' :=
    ∃ s s' : MountSystem, s.thread = thread ∧ s'.thread = thread' ∧ siblingEffect procs s op r s'

def kernelView : View (kernelWorld procs) (callerWorld procs) where
  see := Kernel.threads
  own := by
    rintro s i op r _ ⟨table, heffect, rfl⟩
    exact ⟨_, table, rfl, (Function.update_self i table.thread s.threads).symm, heffect⟩
  others := by
    rintro s i op r _ ⟨table, -, rfl⟩ j hj
    exact Function.update_of_ne hj ..

/-- Anything may fail. -/
theorem callerWorld_total (thread : Thread) (op : Op) :
    ∃ r thread', (callerWorld procs).answer thread op r thread' := by
  let s : MountSystem := ⟨thread, fun _ _ => [], 0, by simp⟩
  cases op with
  | openNs proc nsType =>
    refine ⟨.error "", thread, s, s, rfl, rfl, ?_⟩
    cases proc <;> rfl
  | _ => exact ⟨.error "", thread, s, s, rfl, rfl, rfl⟩

end

-- ---------------------------------------------------------------------------
-- A call on its thread
-- ---------------------------------------------------------------------------

section
variable {procs : UInt32 → Thread} {call : DelegationCall} {r : Except String Unit}

theorem not_remounted {W : World Op Res} {e : Event W} (h : ¬ e.op.Remounting) : remounted e = false :=
  Bool.eq_false_iff.mpr fun hacted => h (remounted_remounting hacted)

variable (call) in
/-- In the target's mount namespace. -/
def OnTarget (e : Event (callerWorld procs)) : Prop :=
  e.op = call.remount.1 ∧ Thread.mnt e.before = (procs call.target.pid).mnt

/-- A call mounts or unmounts once at most, and its result says whether it did. -/
theorem call_acts {thread thread' : Thread} {tr : List (Event (callerWorld procs))}
    (h : Exec (callerWorld procs) call.body.run thread tr r thread') :
    (r ≠ .ok () ∧ ∀ e ∈ tr, remounted e = false) ∨
      ∃ before e after, tr = before ++ e :: after ∧ (∀ x ∈ before ++ after, remounted x = false) ∧
        (r = .ok () ↔ remounted e = true) ∧ OnTarget call e := by
  have hopening : ∀ {t : List (Event (callerWorld procs))} {s s' : Thread} {q : Except String NsFiles},
      Exec (callerWorld procs) (openNamespaces call.target).run s t q s' → ∀ e ∈ t, remounted e = false := by
    intro t s s' q hopen e he
    exact not_remounted (exec_uses uses_openNamespaces hopen e he).not_remounting
  rw [call.body_eq] at h
  rcases inTargetNamespace_ok h with ⟨e, hopen, rfl⟩ | ⟨files, m, t₁, t₂, hopen, hvisit, rfl⟩
  · exact .inl ⟨by simp, hopening hopen⟩
  have hopened := hopening hopen
  cases hvisit with
  | userRefused =>
    refine .inl ⟨by simp, List.forall_mem_append.mpr ⟨hopened, ?_⟩⟩
    simp [remounted]
  | mountRefused =>
    refine .inl ⟨by simp, List.forall_mem_append.mpr ⟨hopened, ?_⟩⟩
    simp [remounted]
  | visited huser hmnt hact =>
    obtain ⟨e, rfl, hbefore, -, hresult⟩ := DelegationCall.act_event hact
    obtain ⟨e', he', hop, -⟩ := act_goes hact
    obtain rfl := List.singleton_inj.mp he'
    obtain ⟨_, _, _, -, -, -, ⟨_, _, -, -, hfile, -⟩, -⟩ := openNamespaces_ok hopen
    obtain ⟨s, s', -, rfl, hentered⟩ := hmnt
    refine .inr ⟨t₁ ++ [_, _], e, [_, _], (List.append_assoc t₁ [_, _] _).symm, ?_, hresult, hop, ?_⟩
    · intro x hx
      simp only [List.append_assoc, List.mem_append, List.mem_cons, List.not_mem_nil, or_false] at hx
      rcases hx with hx | (rfl | rfl) | (rfl | rfl)
      · exact hopened x hx
      all_goals rfl
    · obtain rfl : s' = { s with thread := s.thread.enter files.targetMntns .newNs } := hentered
      rw [hbefore, hfile]
      rfl

/-- Up to some point, a call has mounted or unmounted if it may return `Ok`. -/
theorem runs_acts {thread thread' : Thread} {tr : List (Event (callerWorld procs))}
    (h : Runs (callerWorld procs) call.body.run thread tr (.ret r) thread') :
    r = .ok () ↔ ∃ e ∈ tr, remounted e = true := by
  rcases call_acts h.returned with ⟨hfailed, hnone⟩ | ⟨before, e, after, rfl, hnone, hresult, -⟩
  · refine iff_of_false hfailed ?_
    rintro ⟨e, he, hacted⟩
    exact absurd (hnone e he) (by simp [hacted])
  · rw [hresult]
    constructor
    · exact fun hacted => ⟨e, by simp, hacted⟩
    · rintro ⟨x, hx, hacted⟩
      simp only [List.mem_append, List.mem_cons] at hx hnone
      rcases hx with hx | rfl | hx
      · exact absurd (hnone x (.inl hx)) (by simp [hacted])
      · exact hacted
      · exact absurd (hnone x (.inr hx)) (by simp [hacted])

/-- Whoever mounts or unmounts has not done so before. -/
theorem runs_remounts {thread m m' : Thread} {tr : List (Event (callerWorld procs))} {op : Op} {r : Res op}
    {next : Res op → Prog Op Res (Except String Unit)}
    (h : Runs (callerWorld procs) call.body.run thread tr (.call op next) m)
    (hanswer : (callerWorld procs).answer m op r m') (hacted : remounted (reply op r) = true) :
    (∀ e ∈ tr, remounted e = false) ∧ op = call.remount.1 ∧ m.mnt = (procs call.target.pid).mnt := by
  obtain ⟨rest, a, s', hexec⟩ := (h.snoc hanswer).completes (callerWorld_total procs)
  let last : Event (callerWorld procs) := ⟨m, op, r⟩
  have hlast : remounted last = true := by
    cases op <;> cases r <;> first | rfl | cases hacted
  rw [List.append_assoc, List.singleton_append] at hexec
  rcases call_acts hexec with ⟨-, hnone⟩ | ⟨before, e, after, hsplit, hnone, -, hop, hmnt⟩
  · exact absurd (hnone last (by simp [last])) (by simp [hlast])
  · have hnot : last ∉ before ∧ last ∉ after := by
      constructor <;> intro hmem
      · exact absurd (hnone last (List.mem_append_left _ hmem)) (by simp [hlast])
      · exact absurd (hnone last (List.mem_append_right _ hmem)) (by simp [hlast])
    obtain ⟨rfl, rfl, rfl⟩ := (List.append_cons_inj_of_notMem hnot.1 hnot.2).mp hsplit.symm
    exact ⟨fun x hx => hnone x (List.mem_append_left _ hx), hop, hmnt⟩

end

-- ---------------------------------------------------------------------------
-- One call after the other
-- ---------------------------------------------------------------------------

variable (procs : UInt32 → Thread) in
/-- What the call leaves of the mounts if it succeeds. -/
def DelegationCall.apply (call : DelegationCall) (s : MountSystem) : MountSystem :=
  match call with
  | .delegate target mountPath opts =>
    s.push (procs target.pid).mnt mountPath (some "bpf") (some opts.toMountData)
  | .revoke target mountPath => s.pop (procs target.pid).mnt mountPath

variable (procs : UInt32 → Thread) in
def DelegationCall.Possible (call : DelegationCall) (s : MountSystem) : Prop :=
  match call with
  | .delegate .. => True
  | .revoke target mountPath => s.mounts (procs target.pid).mnt mountPath ≠ []

section
variable {procs : UInt32 → Thread} {call : DelegationCall} {s s' : MountSystem} {thread : Thread}

theorem apply_on {inside : Thread} :
    (call.apply procs (s.on inside)).on thread = (call.apply procs s).on thread := by
  cases call <;> rfl

theorem siblingEffect_same {op : Op} {r : Res op} (h : siblingEffect procs s op r s')
    (hacted : remounted (reply op r) = false) : s'.on thread = s.on thread := by
  cases op with
  | ino => cases h; rfl
  | openNs proc nsType =>
    cases r with
    | error => cases proc <;> cases h <;> rfl
    | ok => cases proc with
      | self => cases h; rfl
      | pid => cases h.2; rfl
  | setns => cases r <;> cases h <;> rfl
  | mount | umount =>
    cases r with
    | error => cases h; rfl
    | ok => cases hacted

theorem siblingEffect_apply {r : Res call.remount.1} (h : siblingEffect procs s call.remount.1 r s')
    (hacted : remounted (reply call.remount.1 r) = true) (hmnt : s.thread.mnt = (procs call.target.pid).mnt) :
    call.Possible procs s ∧ s' = call.apply procs s := by
  cases call with
  | delegate target mountPath opts =>
    cases r with
    | error => cases hacted
    | ok =>
      obtain rfl : s' = s.push s.thread.mnt mountPath (some "bpf") (some opts.toMountData) := h
      rw [hmnt]
      exact ⟨trivial, rfl⟩
  | revoke target mountPath =>
    cases r with
    | error => cases hacted
    | ok =>
      obtain ⟨hmounted, rfl⟩ : s.mounts s.thread.mnt mountPath ≠ [] ∧ s' = s.pop s.thread.mnt mountPath := h
      rw [hmnt] at hmounted ⊢
      exact ⟨hmounted, rfl⟩

/-- As `mountStrategy`, but what cannot be unmounted is an error. -/
def unmountingStrategy (procs : UInt32 → Thread) (s : MountSystem) : (op : Op) → Res op × MountSystem
  | .umount path =>
    if s.mounts s.thread.mnt path = [] then (.error "Invalid argument", s) else (.ok (), s.pop s.thread.mnt path)
  | op => mountStrategy procs s op

theorem unmountingStrategy_ok (procs : UInt32 → Thread) (s : MountSystem) (op : Op) :
    faultEffect procs s op (unmountingStrategy procs s op).1 (unmountingStrategy procs s op).2 := by
  cases op with
  | ino proc nsType => cases proc <;> rfl
  | openNs proc nsType => cases proc <;> exact ⟨rfl, rfl⟩
  | setns | mount => rfl
  | umount path =>
    simp only [unmountingStrategy]
    split
    · rfl
    · next hmounted => exact ⟨hmounted, rfl⟩

/-- Alone and where it is possible, the call can succeed and come back. -/
theorem call_ends (h : call.Possible procs s) :
    Ends (faultWorld procs) call.body.run s (.ok ()) ((call.apply procs s).on s.thread) := by
  have hplay := exec_play (W := faultWorld procs) (unmountingStrategy procs) (unmountingStrategy_ok procs)
    call.body.run s
  cases call with
  | delegate => exact ⟨_, hplay⟩
  | revoke target mountPath =>
    let inside : MountSystem := s.on (procs target.pid)
    have hend : Ends (faultWorld procs) (revokeBpfDelegation target mountPath).run s
        ((unmountingStrategy procs inside (.umount mountPath)).1.mapError fun _ => "Failed to unmount bpffs")
        ((unmountingStrategy procs inside (.umount mountPath)).2.on s.thread) := ⟨_, hplay⟩
    have hunmounts : unmountingStrategy procs inside (.umount mountPath) =
        (.ok (), inside.pop (procs target.pid).mnt mountPath) := if_neg h
    rw [hunmounts] at hend
    exact hend

/-- The mounts after a mount or unmount are those after the whole call. -/
theorem remount_turn {turns : List (Turn (faultWorld procs) DelegationCall (Except String Unit))}
    {start : MountSystem} {home : Thread} {r : Res call.remount.1}
    (hturns : Turns (faultWorld procs) (fun call : DelegationCall => call.body.run) start turns (s.on home))
    (heffect : siblingEffect procs (s.on thread) call.remount.1 r s')
    (hacted : remounted (reply call.remount.1 r) = true) (hmnt : thread.mnt = (procs call.target.pid).mnt) :
    ∃ t : Turn (faultWorld procs) DelegationCall (Except String Unit), t.item = call ∧ t.result = .ok () ∧
      Turns (faultWorld procs) (fun call : DelegationCall => call.body.run) start (turns ++ [t]) (s'.on home) := by
  obtain ⟨hpossible, rfl⟩ := siblingEffect_apply heffect hacted hmnt
  have hend : Ends (faultWorld procs) call.body.run (s.on home) (.ok ()) ((call.apply procs (s.on home)).on home) :=
    call_ends hpossible
  rw [apply_on] at hend ⊢
  exact hturns.snoc hend

end

-- ---------------------------------------------------------------------------
-- Many calls
-- ---------------------------------------------------------------------------

abbrev Calls (procs : UInt32 → Thread) := Callers (kernelWorld procs) DelegationCall (Except String Unit)

section
variable {procs : UInt32 → Thread} {start s : Kernel} {c c' : Calls procs}
  {callers : List (Caller Op Res DelegationCall (Except String Unit))} {i : Nat} {call : DelegationCall}
  {history : List (Reply Op Res)} {rest : Prog Op Res (Except String Unit)} {op : Op}
  {next : Res op → Prog Op Res (Except String Unit)}

variable (procs) in
def CallStep : Calls procs → Calls procs → Prop :=
  Callers.Step (kernelWorld procs) fun call : DelegationCall => call.body.run

/-- The run is a successful one of the caller's call. -/
def SucceedsAs (c : Calls procs) (t : Turn (faultWorld procs) DelegationCall (Except String Unit)) (i : Nat) :
    Prop :=
  t.result = .ok () ∧ ∃ caller, c.callers[i]? = some caller ∧ caller.item = t.item

variable (start c) in
/-- The mounts are those of the logged calls, made one after the other. -/
def Sequential : Prop :=
  ∃ turns, Turns (faultWorld procs) (fun call : DelegationCall => call.body.run) start.table turns
      (c.world.table.on start.table.thread) ∧ List.Forall₂ (SucceedsAs c) turns c.world.log

variable (start c) in
structure Ordered : Prop where
  sequential : Sequential start c
  logged : ∀ i caller, c.callers[i]? = some caller →
    (i ∈ c.world.log ↔ ∃ e ∈ caller.history, remounted e = true)
  begun : ∀ i ∈ c.world.log, i < c.callers.length
  nodup : c.world.log.Nodup

theorem remounted_reply {W : World Op Res} (e : Event W) : remounted e.reply = remounted e := by
  obtain ⟨m, op, r⟩ := e
  cases op <;> cases r <;> rfl

theorem SucceedsAs.later (hstep : CallStep procs c c')
    {t : Turn (faultWorld procs) DelegationCall (Except String Unit)} {i : Nat} (h : SucceedsAs c t i) :
    SucceedsAs c' t i := by
  obtain ⟨hok, caller, hcaller, hitem⟩ := h
  refine ⟨hok, ?_⟩
  cases hstep with
  | begin => exact ⟨caller, getElem?_concat.mpr (.inl hcaller), hitem⟩
  | @call _ _ _ j _ _ _ _ _ hturn =>
    by_cases hj : j = i
    · subst hj
      have hlt := (List.getElem?_eq_some_iff.mp hcaller).1
      cases hturn.symm.trans hcaller
      exact ⟨_, List.getElem?_set_self hlt, hitem⟩
    · exact ⟨caller, (List.getElem?_set_ne hj).trans hcaller, hitem⟩

theorem mem_log {log : List Nat} {i j : Nat} {acted : Bool} :
    j ∈ (if acted then log ++ [i] else log) ↔ j ∈ log ∨ j = i ∧ acted = true := by
  cases acted <;> simp

/-- A caller's history is the beginning of its call on its thread. -/
theorem seen_runs (hseen : (kernelView procs).AllSeen (fun call : DelegationCall => call.body.run) start c)
    (hcaller : c.callers[i]? = some ⟨call, history, rest⟩) :
    ∃ tr : List (Event (callerWorld procs)), tr.map Event.reply = history ∧
      Runs (callerWorld procs) call.body.run (start.threads i) tr rest (c.world.threads i) :=
  hseen.begun i _ hcaller

/-- Who begins has done nothing yet. -/
theorem Ordered.joined (h : Ordered start (⟨s, callers⟩ : Calls procs)) :
    Ordered start (⟨s, callers ++ [⟨call, [], call.body.run⟩]⟩ : Calls procs) := by
  obtain ⟨⟨turns, hturns, hsucceed⟩, hlogged, hbegun, hnodup⟩ := h
  refine ⟨⟨turns, hturns, hsucceed.imp fun _ _ => SucceedsAs.later (.begin call)⟩, ?_, ?_, hnodup⟩
  · intro i caller hcaller
    rcases getElem?_concat.mp hcaller with hbefore | ⟨rfl, rfl⟩
    · exact hlogged i caller hbefore
    · refine iff_of_false (fun hmem => absurd (hbegun _ hmem) (Nat.lt_irrefl _)) ?_
      simp
  · intro i hmem
    exact Nat.lt_of_lt_of_le (hbegun i hmem) (by simp)

/-- An operation leaves the mounts as they are, or the call is the next in order. -/
theorem Ordered.turned {s' : Kernel} {r : Res op}
    (hseen : (kernelView procs).AllSeen (fun call : DelegationCall => call.body.run) start ⟨s, callers⟩)
    (hcaller : callers[i]? = some ⟨call, history, .call op next⟩) (hanswer : kernelEffect procs s i op r s')
    (h : Ordered start (⟨s, callers⟩ : Calls procs)) :
    Ordered start (⟨s', callers.set i ⟨call, history ++ [reply op r], next r⟩⟩ : Calls procs) := by
  have hlater : ∀ t j, SucceedsAs (⟨s, callers⟩ : Calls procs) t j →
      SucceedsAs (⟨s', callers.set i ⟨call, history ++ [reply op r], next r⟩⟩ : Calls procs) t j :=
    fun _ _ => SucceedsAs.later (.call hcaller hanswer)
  obtain ⟨⟨turns, hturns, hsucceed⟩, hlogged, hbegun, hnodup⟩ := h
  obtain ⟨tr, rfl, hruns⟩ := seen_runs hseen hcaller
  have hown := (kernelView procs).own hanswer
  obtain ⟨table, heffect, rfl⟩ := hanswer
  have hlt : i < callers.length := (List.getElem?_eq_some_iff.mp hcaller).1
  -- a call mounts or unmounts once at most, so it is not in the log before
  have hfirst : remounted (reply op r) = true → i ∉ s.log := by
    intro hacted hmem
    obtain ⟨e, he, hearlier⟩ := (hlogged i _ hcaller).mp hmem
    obtain ⟨x, hx, rfl⟩ := List.mem_map.mp he
    rw [remounted_reply, (runs_remounts hruns hown hacted).1 x hx] at hearlier
    cases hearlier
  refine ⟨?_, ?_, ?_, ?_⟩
  · cases hacted : remounted (reply op r) with
    | false =>
      refine ⟨turns, ?_, hsucceed.imp hlater⟩
      have hsame : table.on start.table.thread = (s.table.on (s.threads i)).on start.table.thread :=
        siblingEffect_same heffect hacted
      rw [hsame]
      exact hturns
    | true =>
      obtain ⟨-, rfl, hmnt⟩ := runs_remounts hruns hown hacted
      obtain ⟨t, hitem, hresult, hturns'⟩ := remount_turn hturns heffect hacted hmnt
      refine ⟨turns ++ [t], hturns', List.rel_append (hsucceed.imp hlater) (.cons ?_ .nil)⟩
      exact ⟨hresult, _, List.getElem?_set_self hlt, hitem.symm⟩
  · intro j caller hj
    rw [mem_log]
    by_cases hji : j = i
    · subst hji
      rw [List.getElem?_set_self hlt] at hj
      cases hj
      simp [hlogged j _ hcaller, or_and_right, exists_or]
    · rw [List.getElem?_set_ne (Ne.symm hji)] at hj
      simp [hlogged j caller hj, hji]
  · intro j hj
    rw [List.length_set]
    rcases mem_log.mp hj with hbefore | ⟨rfl, -⟩
    · exact hbegun j hbefore
    · exact hlt
  · split
    · next hacted =>
      refine List.nodup_append.mpr ⟨hnodup, by simp, ?_⟩
      rintro j hj _ hlast rfl
      obtain rfl := List.mem_singleton.mp hlast
      exact hfirst hacted hj
    · exact hnodup

theorem Ordered.step (hseen : (kernelView procs).AllSeen (fun call : DelegationCall => call.body.run) start c)
    (hstep : CallStep procs c c') (h : Ordered start c) : Ordered start c' := by
  cases hstep with
  | begin => exact h.joined
  | call hcaller hanswer => exact h.turned hseen hcaller hanswer

theorem CallStep.log_prefix (hstep : CallStep procs c c') : c.world.log <+: c'.world.log := by
  cases hstep with
  | begin => exact List.prefix_refl _
  | call _ hanswer =>
    obtain ⟨table, -, rfl⟩ := hanswer
    simp only
    split
    · exact List.prefix_append _ _
    · exact List.prefix_refl _

theorem steps_log_prefix (h : ReflTransGen (CallStep procs) c c') : c.world.log <+: c'.world.log := by
  induction h with
  | refl => exact List.prefix_refl _
  | tail _ hlast ih => exact ih.trans hlast.log_prefix

theorem reach_ordered (hlog : start.log = [])
    (h : Callers.Reaches (kernelWorld procs) (fun call : DelegationCall => call.body.run) start c) :
    Ordered start c := by
  induction h with
  | refl => exact ⟨⟨[], .nil, hlog ▸ .nil⟩, by simp, by simp [hlog], by simp [hlog]⟩
  | tail hreach hlast ih => exact ih.step (Callers.reach_seen (kernelView procs) hreach) hlast

/-- Who has returned is logged exactly if the result is `Ok`. -/
theorem returned_logged
    (h : Callers.Reaches (kernelWorld procs) (fun call : DelegationCall => call.body.run) start c)
    (hordered : Ordered start c) {i : Nat} {caller : Caller Op Res DelegationCall (Except String Unit)}
    {r : Except String Unit} (hcaller : c.callers[i]? = some caller) (hret : caller.rest = .ret r) :
    r = .ok () ↔ i ∈ c.world.log := by
  obtain ⟨call, history, rest⟩ := caller
  obtain rfl : rest = .ret r := hret
  obtain ⟨tr, rfl, hruns⟩ := seen_runs (Callers.reach_seen (kernelView procs) h) hcaller
  rw [runs_acts hruns, hordered.logged i _ hcaller]
  simp [remounted_reply]

end

/-- At any time the mounts are those of the logged calls made one after the
other. Each is logged once, while it runs, and it is one that returns `Ok`. -/
theorem concurrent_calls_linearize (procs : UInt32 → Thread) (start : Kernel) (hlog : start.log = [])
    (c c' : Calls procs)
    (h : Callers.Reaches (kernelWorld procs) (fun call : DelegationCall => call.body.run) start c)
    (hlater : ReflTransGen (CallStep procs) c c') :
    Sequential start c ∧ c.world.log.Nodup ∧ (∀ i ∈ c.world.log, i < c.callers.length) ∧
    (∀ i caller r, c.callers[i]? = some caller → caller.rest = .ret r → (r = .ok () ↔ i ∈ c.world.log)) ∧
    ∃ later, c'.world.log = c.world.log ++ later ∧
      ∀ i ∈ later, ∀ caller r, c.callers[i]? = some caller → caller.rest ≠ .ret r := by
  have hordered := reach_ordered hlog h
  refine ⟨hordered.sequential, hordered.nodup, hordered.begun, ?_, ?_⟩
  · exact fun i caller r => returned_logged h hordered
  · obtain ⟨later, hsplit⟩ := steps_log_prefix hlater
    refine ⟨later, hsplit.symm, ?_⟩
    intro i hi caller r hcaller hret
    have hordered' : Ordered start c' := reach_ordered hlog (h.trans hlater)
    have hstays : c'.callers[i]? = some caller := by
      obtain ⟨call, history, rest⟩ := caller
      obtain rfl : rest = .ret r := hret
      exact Callers.returned_stays hlater hcaller
    have hsame := (returned_logged h hordered hcaller hret).symm.trans
      (returned_logged (h.trans hlater) hordered' hstays hret)
    have hboth := hsame.mpr (hsplit ▸ List.mem_append_right _ hi)
    exact (List.nodup_append.mp (hsplit ▸ hordered'.nodup)).2.2 i hboth i hi rfl

def kernelStrategy (procs : UInt32 → Thread) (s : Kernel) (i : Nat) (op : Op) : Res op × Kernel :=
  let answer := unmountingStrategy procs (s.table.on (s.threads i)) op
  (answer.1, ⟨Function.update s.threads i answer.2.thread, answer.2,
    if remounted (reply op answer.1) then s.log ++ [i] else s.log⟩)

theorem kernelStrategy_ok (procs : UInt32 → Thread) (s : Kernel) (i : Nat) (op : Op) :
    kernelEffect procs s i op (kernelStrategy procs s i op).1 (kernelStrategy procs s i op).2 := by
  refine ⟨_, ?_, rfl⟩
  have hanswer := unmountingStrategy_ok procs (s.table.on (s.threads i)) op
  cases op with
  | openNs proc nsType =>
    cases proc with
    | self => exact hanswer.2
    | pid => exact hanswer
  | _ => exact hanswer

def allHome : Kernel := ⟨fun _ => ⟨1, 10⟩, nothingMounted, []⟩

/-- A revocation begins before a delegation has mounted, gets in between its
mount and its way back, and returns before it. -/
def overtaking : List (Move DelegationCall) :=
  [.begin (delegate .allowAll), .begin revoke] ++ .replicate 6 (.turn 0) ++ .replicate 6 (.turn 1) ++
    [.turn 0, .turn 1, .turn 1, .turn 1, .turn 0, .turn 0]

def overtaken : Calls contained :=
  overtaking.foldl (Callers.move (fun call : DelegationCall => call.body.run) (kernelStrategy contained))
    ⟨allHome, []⟩

theorem overtaken_linearizes : Sequential allHome overtaken ∧ overtaken.world.log = [0, 1] :=
  ⟨(concurrent_calls_linearize contained allHome rfl overtaken overtaken
    (Callers.moves_reach (kernelStrategy_ok contained) _ overtaking) .refl).1, by decide⟩

end BpfRbacd.Namespace
