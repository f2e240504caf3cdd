import BpfRbacd.Daemon.Mediation
import Mathlib.Data.Finset.Basic
import Mathlib.Data.Finset.Lattice.Lemmas
import Mathlib.Data.Finset.SDiff

/-!
# The daemon's open descriptors

The world here keeps the set of open descriptors: accepting a connection and
creating a map open a fresh one, dropping the stream closes it, and sending one
over the socket leaves the daemon's own open. Every other outcome is left open.

Nothing closes the descriptor of a map. A connection gives back what it took
exactly if it created no map (`served_descriptors`, `descriptors_steady_iff`).
-/

namespace BpfRbacd.Daemon

open Interaction

def descriptorEffect (fds : Finset RawFd) (op : Op) (r : Res op) (fds' : Finset RawFd) : Prop :=
  match op, r with
  | .accept, .ok stream => stream ∉ fds ∧ fds' = insert stream fds
  | .bpf .., result =>
    (result < 0 ∧ fds' = fds) ∨
      ∃ fd : RawFd, 0 ≤ fd ∧ result = fd.toInt64 ∧ fd ∉ fds ∧ fds' = insert fd fds
  | .close stream, _ => fds' = fds \ {stream}
  | _, _ => fds' = fds

def descriptorWorld : World Op Res where
  State := Finset RawFd
  answer := descriptorEffect

variable {fds fds' : Finset RawFd} {tr : List (Event descriptorWorld)}

/-- The descriptors the `bpf(2)` calls of a run returned. -/
def created (tr : List (Event descriptorWorld)) : Finset RawFd :=
  ((bpfCalls tr).filterMap fun call =>
    if 0 ≤ call.result then some call.result.toInt32 else none).toFinset

theorem mem_created {fd : RawFd} :
    fd ∈ created tr ↔ ∃ call ∈ bpfCalls tr, 0 ≤ call.result ∧ call.result.toInt32 = fd := by
  simp [created]

theorem created_append (t₁ t₂ : List (Event descriptorWorld)) :
    created (t₁ ++ t₂) = created t₁ ∪ created t₂ := by
  ext fd
  rw [Finset.mem_union, mem_created, mem_created, mem_created, bpfCalls_append]
  simp only [List.mem_append, or_and_right, exists_or]

theorem created_silent (h : observed tr = []) : created tr = ∅ := by
  simp [created, bpfCalls, h]

-- ---------------------------------------------------------------------------
-- One operation
-- ---------------------------------------------------------------------------

/-- Operations other than accepting a connection and dropping it. -/
def Op.Within : Op → Prop
  | .accept | .close _ => False
  | _ => True

structure Grows (fds new fds' : Finset RawFd) : Prop where
  eq : fds' = fds ∪ new
  fresh : Disjoint new fds

theorem Grows.of_eq {new : Finset RawFd} (h : fds' = fds) (hnew : new = ∅) : Grows fds new fds' := by
  subst hnew
  exact ⟨by simp [h], by simp⟩

theorem Grows.trans {m new new' : Finset RawFd} (h : Grows fds new m) (h' : Grows m new' fds') :
    Grows fds (new ∪ new') fds' := by
  obtain ⟨rfl, hnew⟩ := h
  obtain ⟨rfl, hnew'⟩ := h'
  refine ⟨Finset.union_assoc .., Finset.disjoint_union_left.mpr ⟨hnew, ?_⟩⟩
  exact hnew'.mono_right Finset.subset_union_left

theorem toInt64_nonneg {fd : RawFd} (h : 0 ≤ fd) : 0 ≤ fd.toInt64 := by
  rw [Int64.le_iff_toInt_le, Int32.toInt_toInt64]
  exact Int32.le_iff_toInt_le.mp h

theorem created_bpf (result : Int64) :
    created [(⟨fds, .bpf cmd attr size, result⟩ : Event descriptorWorld)] =
      if 0 ≤ result then {result.toInt32} else ∅ := by
  ext fd
  rw [mem_created]
  split <;> simp_all [bpfCalls, observed, observe, eq_comm]

theorem descriptorEffect_grows {op : Op} {r : Res op} (hop : op.Within)
    (h : descriptorEffect fds op r fds') :
    Grows fds (created [(⟨fds, op, r⟩ : Event descriptorWorld)]) fds' := by
  cases op with
  | accept => exact absurd hop id
  | close => exact absurd hop id
  | bpf cmd attr size =>
    rw [created_bpf]
    rcases h with ⟨hneg, heq⟩ | ⟨fd, hfd, hr, hfresh, heq⟩
    · exact .of_eq heq (if_neg (Int64.not_le.mpr hneg))
    · rw [hr, if_pos (toInt64_nonneg hfd), Int32.toInt32_toInt64]
      exact ⟨by rw [heq, Finset.insert_eq, Finset.union_comm], Finset.disjoint_singleton_left.mpr hfresh⟩
  | deserialize bytes => cases r <;> exact .of_eq h rfl
  | log line => cases line <;> exact .of_eq h rfl
  | _ => exact .of_eq h rfl

theorem exec_within {p : Prog Op Res α} {a : α} (hp : p.Uses Op.Within)
    (h : Exec descriptorWorld p fds tr a fds') : Grows fds (created tr) fds' := by
  refine exec_induct (W := descriptorWorld) (Q := fun fds tr fds' => Grows fds (created tr) fds')
    ?_ ?_ hp h
  · exact fun fds => .of_eq rfl rfl
  · intro fds op r m tr fds' hop hr ih
    have hstep := (descriptorEffect_grows hop hr).trans ih
    rwa [← created_append] at hstep

-- ---------------------------------------------------------------------------
-- One connection
-- ---------------------------------------------------------------------------

section
variable {printable : Char → Bool} {policy : Policy}

theorem Op.within_of {P : Op → Prop} (haccept : ¬ P .accept) (hclose : ∀ stream, ¬ P (.close stream))
    {op : Op} (h : P op) : op.Within := by
  cases op with
  | accept => exact absurd h haccept
  | close stream => exact absurd h (hclose stream)
  | _ => trivial

theorem Op.Identifying.within {op : Op} (h : op.Identifying) : op.Within :=
  Op.within_of id (fun _ => id) h

theorem Op.Executing.within {op : Op} (h : op.Executing) : op.Within :=
  Op.within_of id (fun _ => id) h

theorem Op.Sending.within {op : Op} (h : op.Sending) : op.Within :=
  Op.within_of id (fun _ => id) h

theorem Op.Reading.within {op : Op} (h : op.Reading) : op.Within :=
  Op.within_of id (fun _ => id) h

theorem uses_converse : (converse printable policy stream).run.Uses Op.Within := by
  unfold converse
  refine uses_run_bind (uses_mono (fun _ => Op.Identifying.within) uses_clientGroups) fun groups => ?_
  refine uses_run_bind (uses_ask trivial) fun _ => ?_
  refine uses_run_bind (uses_mono (fun _ => Op.Reading.within) uses_readRequest) fun request => ?_
  cases request with
  | none => exact uses_pure
  | some request =>
    refine uses_run_bind ?_ fun response =>
      uses_mono (fun _ => Op.Sending.within) (uses_sendResponse response)
    exact uses_bind (uses_mono (fun _ => Op.Executing.within) (uses_respond _)) fun _ => uses_pure

theorem handleClient_descriptors {r : Except String Unit}
    (h : Exec descriptorWorld (handleClient printable policy stream) fds tr r fds') :
    fds' = (fds ∪ created tr) \ {stream} ∧ Disjoint (created tr) fds := by
  obtain ⟨m, t, hconverse, hclose, rfl⟩ := handleClient_closes h
  have hcreated : created (t ++ [⟨m, .close stream, ()⟩]) = created t := by
    simp only [created, bpfCalls, observed_close]
  obtain ⟨rfl, hfresh⟩ := exec_within uses_converse hconverse
  rw [hcreated]
  exact ⟨hclose, hfresh⟩

/-- A round of the accept loop is a connection, or nothing happens in it. -/
theorem serveConnection_ok {a : Unit}
    (h : Exec descriptorWorld (serveConnection printable policy) fds tr a fds') :
    (fds' = fds ∧ observed tr = []) ∨
      ∃ stream t r, stream ∉ fds ∧ observed tr = observed t ∧
        Exec descriptorWorld (handleClient printable policy stream) (insert stream fds : Finset RawFd) t
          r fds' := by
  obtain ⟨accepted, m, t₁, t₂, haccept, h₁, rfl⟩ := exec_bind.mp h
  obtain ⟨heffect, rfl⟩ := exec_issue.mp haccept
  cases accepted with
  | error e =>
    obtain ⟨hlog, rfl⟩ := exec_issue.mp h₁
    exact .inl ⟨hlog.trans heffect, rfl⟩
  | ok stream =>
    obtain ⟨hnew, rfl⟩ := heffect
    obtain ⟨r, m', t₃, t₄, hclient, h₂, rfl⟩ := exec_bind.mp h₁
    refine .inr ⟨stream, t₃, r, hnew, ?_⟩
    cases r with
    | ok =>
      obtain ⟨rfl, -, rfl⟩ := exec_pure.mp h₂
      exact ⟨by rw [List.append_nil]; rfl, hclient⟩
    | error e =>
      obtain ⟨hlog, rfl⟩ := exec_issue.mp h₂
      obtain rfl : fds' = m' := hlog
      refine ⟨?_, hclient⟩
      rw [observed_append, observed_append]
      exact List.append_nil _

theorem serveConnection_grows {a : Unit}
    (h : Exec descriptorWorld (serveConnection printable policy) fds tr a fds') :
    Grows fds (created tr) fds' := by
  rcases serveConnection_ok h with ⟨heq, hobs⟩ | ⟨stream, t, r, hnew, hobs, hclient⟩
  · exact .of_eq heq (created_silent hobs)
  · have hcreated : created tr = created t := by simp only [created, bpfCalls, hobs]
    obtain ⟨rfl, hfresh⟩ := handleClient_descriptors hclient
    obtain ⟨hstream, hfresh⟩ := Finset.disjoint_insert_right.mp hfresh
    rw [hcreated]
    refine ⟨?_, hfresh⟩
    -- the stream's descriptor was in neither set
    have hout : stream ∉ fds ∪ created t := by
      simp only [Finset.mem_union, not_or]
      exact ⟨hnew, hstream⟩
    rw [Finset.insert_union, Finset.sdiff_singleton_eq_erase, Finset.erase_insert hout]

/-- The connection was allowed to create a map and `bpf(2)` returned one. -/
def MapCreated (policy : Policy) (tr : List (Event descriptorWorld)) : Prop :=
  ∃ groups request, .groups groups ∈ observed tr ∧ .decoded request ∈ observed tr ∧
    policy.Authorizes groups request ∧ Supported request ∧ ∃ call ∈ bpfCalls tr, 0 ≤ call.result

theorem created_nonempty_iff {a : Unit}
    (h : Exec descriptorWorld (serveConnection printable policy) fds tr a fds') :
    (created tr).Nonempty ↔ MapCreated policy tr := by
  constructor
  · rintro ⟨fd, hfd⟩
    obtain ⟨call, hcall, hres, -⟩ := mem_created.mp hfd
    rcases serveConnection_ok h with ⟨-, hobs⟩ | ⟨stream, t, r, -, hobs, hclient⟩
    · rw [bpfCalls, hobs] at hcall
      exact absurd hcall List.not_mem_nil
    · have hcall' : call ∈ bpfCalls t := by rwa [bpfCalls, hobs] at hcall
      obtain ⟨groups, request, hgroups, hrequest, hauth, hsup⟩ := handleClient_call hclient hcall'
      exact ⟨groups, request, hobs ▸ hgroups, hobs ▸ hrequest, hauth, hsup, call, hcall, hres⟩
  · rintro ⟨_, _, -, -, -, -, call, hcall, hres⟩
    exact ⟨_, mem_created.mpr ⟨call, hcall, hres, rfl⟩⟩

-- ---------------------------------------------------------------------------
-- Runs of connections
-- ---------------------------------------------------------------------------

structure Connection where
  before : Finset RawFd
  trace : List (Event descriptorWorld)
  after : Finset RawFd

variable (printable policy) in
inductive Served : Finset RawFd → List Connection → Finset RawFd → Prop
  | none {fds : Finset RawFd} : Served fds [] fds
  | next {fds m fds' : Finset RawFd} {tr : List (Event descriptorWorld)} {rest : List Connection} :
      Exec descriptorWorld (serveConnection printable policy) fds tr () m → Served m rest fds' →
      Served fds (⟨fds, tr, m⟩ :: rest) fds'

theorem Served.connection {connections : List Connection}
    (h : Served printable policy fds connections fds') :
    ∀ c ∈ connections, Exec descriptorWorld (serveConnection printable policy) c.before c.trace ()
      c.after := by
  induction h with
  | none => simp
  | next hconn _ ih =>
    intro c hc
    rcases List.mem_cons.mp hc with rfl | hc
    · exact hconn
    · exact ih c hc

theorem connection_steady_iff {c : Connection}
    (h : Exec descriptorWorld (serveConnection printable policy) c.before c.trace () c.after) :
    c.after = c.before ↔ ¬ MapCreated policy c.trace := by
  rw [← created_nonempty_iff h, Finset.not_nonempty_iff_eq_empty]
  obtain ⟨heq, hfresh⟩ := serveConnection_grows h
  constructor
  · intro hsame
    have hsub : created c.trace ⊆ c.before := by
      rw [hsame] at heq
      exact heq ▸ Finset.subset_union_right
    exact disjoint_self.mp (hfresh.mono_right hsub)
  · intro hnone
    rw [heq, hnone, Finset.union_empty]

/-- Every connection of a run leaves the set as it was exactly if none of them
was given a map; then the set is the first one throughout. -/
theorem descriptors_steady_iff {connections : List Connection}
    (h : Served printable policy fds connections fds') :
    ((∀ c ∈ connections, c.after = c.before) ↔ ∀ c ∈ connections, ¬ MapCreated policy c.trace) ∧
    ((∀ c ∈ connections, ¬ MapCreated policy c.trace) →
      fds' = fds ∧ ∀ c ∈ connections, c.before = fds ∧ c.after = fds) := by
  refine ⟨?_, ?_⟩
  · exact forall₂_congr fun c hc => connection_steady_iff (h.connection c hc)
  · intro hnone
    induction h with
    | none => simp
    | @next fds m fds' tr rest hconn _ ih =>
      obtain ⟨hfirst, hrest⟩ := List.forall_mem_cons.mp hnone
      obtain rfl : m = fds := (connection_steady_iff (c := ⟨fds, tr, m⟩) hconn).mpr hfirst
      obtain ⟨rfl, hall⟩ := ih hrest
      exact ⟨rfl, List.forall_mem_cons.mpr ⟨⟨rfl, rfl⟩, hall⟩⟩

end

/-- Accepted connections get descriptor 5 and maps descriptor 7, where free. -/
def descriptorStrategy (answer : (op : Op) → Res op) (fds : Finset RawFd) :
    (op : Op) → Res op × Finset RawFd
  | .accept => if 5 ∈ fds then (.error "Too many open files", fds) else (.ok 5, insert 5 fds)
  | .bpf .. => if 7 ∈ fds then (-1, fds) else (7, insert 7 fds)
  | .close stream => ((), fds \ {stream})
  | op => (answer op, fds)

theorem descriptorStrategy_ok (answer : (op : Op) → Res op) (fds : Finset RawFd) (op : Op) :
    descriptorEffect fds op (descriptorStrategy answer fds op).1 (descriptorStrategy answer fds op).2 := by
  cases op with
  | accept =>
    by_cases hfree : 5 ∈ fds
    · simp [descriptorStrategy, descriptorEffect, hfree]
    · simp [descriptorStrategy, descriptorEffect, hfree]
  | bpf =>
    by_cases hfree : 7 ∈ fds
    · exact .inl (by simp [descriptorStrategy, hfree])
    · exact .inr ⟨7, by decide, by simp [descriptorStrategy, hfree], hfree, by
        simp [descriptorStrategy, hfree]⟩
  | _ => rfl

/-- The connection of a client that gets these answers, from no descriptor. -/
def connectionOf (answer : (op : Op) → Res op) : Connection :=
  let run := (serveConnection (fun _ => true) Policy.default).play (W := descriptorWorld)
    (descriptorStrategy answer) (∅ : Finset RawFd)
  ⟨∅, run.1, run.2.2⟩

theorem connectionOf_served (answer : (op : Op) → Res op) :
    Served (fun _ => true) Policy.default ∅ [connectionOf answer] (connectionOf answer).after :=
  .next (exec_play (W := descriptorWorld) (descriptorStrategy answer) (descriptorStrategy_ok answer)
    (serveConnection (fun _ => true) Policy.default) (∅ : Finset RawFd)) .none

/-- The client of `hashMapClient`, without the group that may. -/
def strangerClient : (op : Op) → Res op
  | .groupFromGid _ => .ok (some "users")
  | op => hashMapClient op

theorem stranger_steady : (connectionOf strangerClient).after = (connectionOf strangerClient).before := by
  refine (descriptors_steady_iff (connectionOf_served strangerClient)).1.mpr ?_ _ List.mem_cons_self
  rintro c hc ⟨_, _, -, -, -, -, call, hcall, -⟩
  obtain rfl : c = connectionOf strangerClient := List.mem_singleton.mp hc
  have hnone : bpfCalls (connectionOf strangerClient).trace = [] := by rfl
  exact absurd (hnone ▸ hcall) List.not_mem_nil

/-- The daemon keeps descriptor 7 after it has sent it to the client. -/
theorem map_descriptor_kept :
    ¬ ∀ (printable : Char → Bool) (policy : Policy) (fds fds' : Finset RawFd)
        (connections : List Connection), Served printable policy fds connections fds' →
      ∀ c ∈ connections, c.after = c.before := by
  intro h
  have hsame := h _ _ _ _ _ (connectionOf_served hashMapClient) _ List.mem_cons_self
  have hopen : (7 : RawFd) ∈ (connectionOf hashMapClient).after := by decide
  rw [hsame] at hopen
  exact absurd hopen (Finset.notMem_empty 7)

end BpfRbacd.Daemon
