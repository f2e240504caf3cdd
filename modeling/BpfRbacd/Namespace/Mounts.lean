import BpfRbacd.Namespace.Restore

/-!
# Delegations that stand

The world here keeps a stack of mounts for each mount namespace and path. Every
call succeeds, except an unmount where nothing is mounted. `mount` pushes and
`umount` pops, and neither function looks at what is there: a revocation takes
the last delegation away, and the ones before it come back into view.
-/

namespace BpfRbacd.Namespace

open Interaction

/-- A mounted file system and when it was mounted. -/
structure Mount where
  id : Nat
  fstype : Option String
  data : Option String
  deriving DecidableEq, Repr

/-- The top of a stack is its head. -/
structure MountSystem where
  thread : Thread
  mounts : UInt64 → String → List Mount
  born : Nat
  older : ∀ ns path, ∀ m ∈ mounts ns path, m.id < born

def MountSystem.push (s : MountSystem) (ns : UInt64) (path : String) (fstype data : Option String) :
    MountSystem where
  thread := s.thread
  mounts ns' path' :=
    if ns' = ns ∧ path' = path then ⟨s.born, fstype, data⟩ :: s.mounts ns' path' else s.mounts ns' path'
  born := s.born + 1
  older ns' path' m hm := by
    split at hm
    · rcases List.mem_cons.mp hm with rfl | hm
      · exact Nat.lt_succ_self _
      · exact Nat.lt_succ_of_lt (s.older ns' path' m hm)
    · exact Nat.lt_succ_of_lt (s.older ns' path' m hm)

def MountSystem.pop (s : MountSystem) (ns : UInt64) (path : String) : MountSystem where
  thread := s.thread
  mounts ns' path' := if ns' = ns ∧ path' = path then (s.mounts ns' path').tail else s.mounts ns' path'
  born := s.born
  older ns' path' m hm := by
    split at hm
    · exact s.older ns' path' m (List.mem_of_mem_tail hm)
    · exact s.older ns' path' m hm

/-- The file system from which a token would be created. -/
def MountSystem.visible (s : MountSystem) (ns : UInt64) (path : String) : Option Mount :=
  (s.mounts ns path).head?

/-- `procs` are the namespaces of the processes. Popping an empty stack changes nothing. -/
def mountStrategy (procs : UInt32 → Thread) (s : MountSystem) : (op : Op) → Res op × MountSystem
  | .ino .self nsType => (.ok (s.thread.nsId nsType), s)
  | .ino (.pid pid) nsType => (.ok ((procs pid).nsId nsType), s)
  | .openNs .self nsType => (.ok ⟨.self, nsType, s.thread.nsId nsType⟩, s)
  | .openNs (.pid pid) nsType => (.ok ⟨.pid pid, nsType, (procs pid).nsId nsType⟩, s)
  | .setns file flag => (.ok (), { s with thread := s.thread.enter file flag })
  | .mount _ path fstype _ data => (.ok (), s.push s.thread.mnt path fstype data)
  | .umount path =>
    (if s.mounts s.thread.mnt path = [] then .error "Invalid argument" else .ok (),
      s.pop s.thread.mnt path)

def mountWorld (procs : UInt32 → Thread) : World Op Res := World.settled (mountStrategy procs)

/-- A delegation with any options or a revocation, for one target at one path. -/
inductive DelegationCall.On (target : TargetNamespace) (mountPath : String) : DelegationCall → Prop
  | delegate (opts : DelegationOpts) : On target mountPath (.delegate target mountPath opts)
  | revoke : On target mountPath (.revoke target mountPath)

/-- Before each revocation at most one delegation stands, `n` at the start. -/
def AtMostOneStanding : Nat → List DelegationCall → Prop
  | _, [] => True
  | n, .delegate .. :: calls => AtMostOneStanding (n + 1) calls
  | n, .revoke .. :: calls => n ≤ 1 ∧ AtMostOneStanding (n - 1) calls

/-- Nothing mounted since `s` is left at the path, so no token comes from it. -/
def Undone (s s' : MountSystem) (ns : UInt64) (path : String) : Prop :=
  (∀ m ∈ s'.mounts ns path, m.id < s.born) ∧ ∀ m, s'.visible ns path = some m → m.id < s.born

-- ---------------------------------------------------------------------------
-- Standing delegations
-- ---------------------------------------------------------------------------

/-- Of a stack the upper `n` mounts are not older than `start`, the others are. -/
def Standing (start n : Nat) (stack : List Mount) : Prop :=
  ∃ above below, stack = above ++ below ∧ above.length = n ∧ (∀ m ∈ above, start ≤ m.id) ∧
    ∀ m ∈ below, m.id < start

section
variable {start n : Nat} {stack : List Mount}

theorem Standing.cons {m : Mount} (h : Standing start n stack) (hm : start ≤ m.id) :
    Standing start (n + 1) (m :: stack) := by
  obtain ⟨above, below, rfl, rfl, habove, hbelow⟩ := h
  exact ⟨m :: above, below, rfl, rfl, List.forall_mem_cons.mpr ⟨hm, habove⟩, hbelow⟩

theorem Standing.tail (h : Standing start n stack) : Standing start (n - 1) stack.tail := by
  obtain ⟨above, below, rfl, rfl, habove, hbelow⟩ := h
  cases above with
  | nil =>
    refine ⟨[], below.tail, rfl, rfl, by simp, ?_⟩
    intro m hm
    exact hbelow m (List.mem_of_mem_tail hm)
  | cons m above => exact ⟨above, below, rfl, rfl, (List.forall_mem_cons.mp habove).2, hbelow⟩

theorem Standing.none_left_iff (h : Standing start n stack) :
    (∀ m ∈ stack, m.id < start) ↔ n = 0 := by
  obtain ⟨above, below, rfl, rfl, habove, hbelow⟩ := h
  rw [List.forall_mem_append, and_iff_left hbelow, List.length_eq_zero_iff]
  constructor
  · intro hold
    cases above with
    | nil => rfl
    | cons m above => exact absurd (hold m List.mem_cons_self) (Nat.not_lt.mpr (habove m List.mem_cons_self))
  · rintro rfl
    simp

theorem Standing.ne_nil (h : Standing start n stack) (hn : n ≠ 0) : stack ≠ [] := by
  rintro rfl
  exact hn (h.none_left_iff.mp (by simp))

end

-- ---------------------------------------------------------------------------
-- Calls
-- ---------------------------------------------------------------------------

section
variable {procs : UInt32 → Thread} {s s' : MountSystem} {target : TargetNamespace} {mountPath : String}
  {tr : List (Event (mountWorld procs))} {r : Except String Unit}

theorem exec_delegate {opts : DelegationOpts}
    (h : Exec (mountWorld procs) (delegateBpfToNamespace target mountPath opts).run s tr r s') :
    s' = s.push (procs target.pid).mnt mountPath (some "bpf") (some opts.toMountData) := by
  cases exec_settled.mp h
  rfl

theorem exec_revoke
    (h : Exec (mountWorld procs) (revokeBpfDelegation target mountPath).run s tr r s') :
    s' = s.pop (procs target.pid).mnt mountPath ∧
      (s.mounts (procs target.pid).mnt mountPath ≠ [] → r = .ok ()) := by
  cases exec_settled.mp h
  refine ⟨rfl, fun hmounted => ?_⟩
  show (if s.mounts (procs target.pid).mnt mountPath = [] then _ else _ : Except String Unit).mapError _ = _
  rw [if_neg hmounted]
  rfl

@[simp] theorem MountSystem.mounts_push {ns : UInt64} {fstype data : Option String} :
    (s.push ns mountPath fstype data).mounts ns mountPath =
      ⟨s.born, fstype, data⟩ :: s.mounts ns mountPath := by
  simp [MountSystem.push]

@[simp] theorem MountSystem.mounts_pop {ns : UInt64} :
    (s.pop ns mountPath).mounts ns mountPath = (s.mounts ns mountPath).tail := by
  simp [MountSystem.pop]

theorem undone_iff {ns : UInt64} {start : MountSystem} :
    Undone start s ns mountPath ↔ ∀ m ∈ s.mounts ns mountPath, m.id < start.born := by
  refine and_iff_left_of_imp fun hold m hm => ?_
  exact hold m (List.mem_of_mem_head? hm)

variable {turns : List (Turn (mountWorld procs) DelegationCall (Except String Unit))}

/-- From a stack on which `n` mounts of the run stand. -/
theorem undone_iff_from (start : MountSystem) {n : Nat}
    (h : Turns (mountWorld procs) (fun call : DelegationCall => call.body.run) s turns s')
    (hon : ∀ t ∈ turns, t.item.On target mountPath) (hborn : start.born ≤ s.born)
    (hstanding : Standing start.born n (s.mounts (procs target.pid).mnt mountPath)) :
    (∀ t ∈ turns, t.item = .revoke target mountPath → t.result = .ok () →
        Undone start t.after (procs target.pid).mnt mountPath) ↔
      AtMostOneStanding n (turns.map (·.item)) := by
  induction turns generalizing s n with
  | nil => simp [AtMostOneStanding]
  | cons t rest ih =>
    obtain ⟨call, _, tr, r, m⟩ := t
    obtain ⟨-, hcall, hrest⟩ := turns_cons.mp h
    obtain ⟨hcallOn, hrestOn⟩ := List.forall_mem_cons.mp hon
    cases hcallOn with
    | delegate opts =>
      obtain rfl := exec_delegate hcall
      have hlater := ih hrest hrestOn (Nat.le_succ_of_le hborn) (by simpa using hstanding.cons hborn)
      rw [List.forall_mem_cons, hlater]
      simp [AtMostOneStanding]
    | revoke =>
      obtain ⟨rfl, hok⟩ := exec_revoke hcall
      have htail : Standing start.born (n - 1)
          (MountSystem.mounts (s.pop (procs target.pid).mnt mountPath) (procs target.pid).mnt mountPath) := by
        simpa using hstanding.tail
      have hlater := ih hrest hrestOn hborn htail
      have hfirst : (r = .ok () → Undone start (s.pop (procs target.pid).mnt mountPath)
          (procs target.pid).mnt mountPath) ↔ n ≤ 1 := by
        rw [undone_iff, htail.none_left_iff]
        constructor
        · intro hundone
          rcases Nat.eq_zero_or_pos n with hn | hn
          · omega
          · have hnone : n - 1 = 0 := hundone (hok (hstanding.ne_nil (by omega)))
            omega
        · intro hn _
          omega
      rw [List.forall_mem_cons, hlater]
      exact and_congr_left' ((forall_prop_of_true rfl).trans hfirst)

end

/-- A revocation undoes the delegations before it exactly if there is at most
one that no revocation has taken away. -/
theorem revocation_undoes_iff (procs : UInt32 → Thread) (target : TargetNamespace) (mountPath : String)
    (s s' : MountSystem) (turns : List (Turn (mountWorld procs) DelegationCall (Except String Unit)))
    (h : Turns (mountWorld procs) (fun call : DelegationCall => call.body.run) s turns s')
    (hon : ∀ t ∈ turns, t.item.On target mountPath) :
    (∀ t ∈ turns, t.item = .revoke target mountPath → t.result = .ok () →
        Undone s t.after (procs target.pid).mnt mountPath) ↔
      AtMostOneStanding 0 (turns.map (·.item)) := by
  refine undone_iff_from s h hon (Nat.le_refl _) ?_
  exact ⟨[], _, rfl, rfl, by simp, s.older _ _⟩

def nothingMounted : MountSystem := ⟨⟨1, 10⟩, fun _ _ => [], 0, by simp⟩

/-- Every process is in user namespace 2 and mount namespace 20. -/
def contained (_ : UInt32) : Thread := ⟨2, 20⟩

def turn (call : DelegationCall) (s : MountSystem) :
    Turn (mountWorld contained) DelegationCall (Except String Unit) :=
  let run := call.body.run.play (W := mountWorld contained) (mountStrategy contained) s
  ⟨call, s, run.1, run.2.1, run.2.2⟩

theorem turn_exec (call : DelegationCall) (s : MountSystem) :
    Exec (mountWorld contained) call.body.run s (turn call s).trace (turn call s).result
      (turn call s).after :=
  exec_play (W := mountWorld contained) (mountStrategy contained) (fun _ _ => rfl) _ _

def delegate (opts : DelegationOpts) : DelegationCall := .delegate ⟨4242, 2⟩ "/sys/fs/bpf" opts

def revoke : DelegationCall := .revoke ⟨4242, 2⟩ "/sys/fs/bpf"

def wide : Turn (mountWorld contained) DelegationCall (Except String Unit) :=
  turn (delegate .allowAll) nothingMounted

theorem delegate_revoke_undone :
    (turn revoke wide.after).result = .ok () ∧
      Undone nothingMounted (turn revoke wide.after).after 20 "/sys/fs/bpf" := by
  have hturns : Turns (mountWorld contained) (fun call : DelegationCall => call.body.run) nothingMounted
      [wide, turn revoke wide.after] (turn revoke wide.after).after :=
    .cons (turn_exec _ _) (.cons (turn_exec _ _) .nil)
  refine ⟨rfl, (revocation_undoes_iff contained ⟨4242, 2⟩ "/sys/fs/bpf" _ _ _ hturns ?_).mpr ?_ _
    (List.mem_cons_of_mem _ List.mem_cons_self) rfl rfl⟩
  · exact List.forall_mem_cons.mpr ⟨.delegate _, List.forall_mem_singleton.mpr .revoke⟩
  · exact ⟨Nat.le_refl _, trivial⟩

def narrow : Turn (mountWorld contained) DelegationCall (Except String Unit) :=
  turn (delegate ⟨0, 0, 0, 0⟩) wide.after

def revocation : Turn (mountWorld contained) DelegationCall (Except String Unit) :=
  turn revoke narrow.after

/-- After the narrower delegation is revoked the wider one is in view again. -/
theorem wider_delegation_back :
    Turns (mountWorld contained) (fun call : DelegationCall => call.body.run) nothingMounted
      [wide, narrow, revocation] revocation.after ∧
    (∀ t ∈ [wide, narrow, revocation], t.item.On ⟨4242, 2⟩ "/sys/fs/bpf" ∧ t.result = .ok ()) ∧
    revocation.item = .revoke ⟨4242, 2⟩ "/sys/fs/bpf" ∧
    revocation.after.visible 20 "/sys/fs/bpf" =
      some ⟨0, some "bpf", some DelegationOpts.allowAll.toMountData⟩ ∧
    ¬ Undone nothingMounted revocation.after 20 "/sys/fs/bpf" := by
  have hvisible : revocation.after.visible 20 "/sys/fs/bpf" =
      some ⟨0, some "bpf", some DelegationOpts.allowAll.toMountData⟩ := rfl
  refine ⟨.cons (turn_exec _ _) (.cons (turn_exec _ _) (.cons (turn_exec _ _) .nil)), ?_, rfl, hvisible, ?_⟩
  · simp only [List.forall_mem_cons]
    exact ⟨⟨.delegate _, rfl⟩, ⟨.delegate _, rfl⟩, ⟨.revoke, rfl⟩, by simp⟩
  · rintro ⟨-, hundone⟩
    exact absurd (hundone _ hvisible) (Nat.lt_irrefl 0)

end BpfRbacd.Namespace
