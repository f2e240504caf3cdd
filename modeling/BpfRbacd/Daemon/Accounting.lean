import BpfRbacd.Daemon.Serving
import Mathlib.Data.Finset.Insert
import Mathlib.Algebra.BigOperators.Group.Multiset.Basic

/-!
# Who holds which descriptor

The open descriptors of the daemon in any reachable state, with any number of
connections under way: those it was started with, the stream the loop has
accepted and not yet handed over, the stream of every task that has not dropped
it, and one descriptor for each map any task has created
(`descriptors_accounted`). The last never go.
-/

namespace BpfRbacd.Daemon

open Interaction

variable {W : World Op Res} {tr : List (Event W)} {fds fds' : Finset RawFd}

-- ---------------------------------------------------------------------------
-- The ledger
-- ---------------------------------------------------------------------------

def acceptedStream (e : Event W) : Option RawFd :=
  match e with
  | ⟨_, .accept, .ok stream⟩ => some stream
  | _ => none

/-- The streams of a round. -/
def accepted (tr : List (Event W)) : List RawFd := tr.filterMap acceptedStream

/-- The descriptors of the maps that were created. -/
def mapsMade (tr : List (Event W)) : List RawFd :=
  (bpfCalls tr).filterMap fun call => if 0 ≤ call.result then some call.result.toInt32 else none

def Op.isClose : Op → Bool
  | .close _ => true
  | _ => false

def dropped (tr : List (Event W)) : Bool := tr.any fun e => e.op.isClose

@[simp] theorem accepted_append (t₁ t₂ : List (Event W)) : accepted (t₁ ++ t₂) = accepted t₁ ++ accepted t₂ :=
  List.filterMap_append

@[simp] theorem mapsMade_append (t₁ t₂ : List (Event W)) :
    mapsMade (t₁ ++ t₂) = mapsMade t₁ ++ mapsMade t₂ := by
  simp [mapsMade, bpfCalls_append]

@[simp] theorem dropped_append (t₁ t₂ : List (Event W)) : dropped (t₁ ++ t₂) = (dropped t₁ || dropped t₂) :=
  List.any_append

theorem dropped_within (h : ∀ e ∈ tr, e.op.Within) : dropped tr = false := by
  simp only [dropped, List.any_eq_false]
  intro e he hclose
  have hop := h e he
  revert hop hclose
  cases e.op <;> simp [Op.Within, Op.isClose]

/-- What a task holds: its stream until it drops it, and its maps. -/
def held (t : Task Op Res RawFd Unit) : Multiset RawFd :=
  (if dropped t.history then 0 else {t.item}) + ↑(mapsMade t.history)

section
variable {t : Task Op Res RawFd Unit}

theorem held_open (h : dropped t.history = false) : held t = {t.item} + ↑(mapsMade t.history) := by
  simp [held, h]

theorem held_dropped (h : dropped t.history = true) : held t = ↑(mapsMade t.history) := by
  simp [held, h]

end

@[simp] theorem mapsMade_close (r : Res (.close stream)) : mapsMade [reply (.close stream) r] = [] := rfl

@[simp] theorem mapsMade_log (line : Log) (r : Res (.log line)) : mapsMade [reply (.log line) r] = [] := by
  cases line <;> rfl

@[simp] theorem dropped_close (r : Res (.close stream)) : dropped [reply (.close stream) r] = true := rfl

@[simp] theorem dropped_log (line : Log) (r : Res (.log line)) : dropped [reply (.log line) r] = false := rfl

def Accounted (base : Finset RawFd) (c : Threads descriptorWorld RawFd Unit) : Prop :=
  Finset.val c.world = base.val + ↑(accepted c.heard) + (c.tasks.map held).sum

-- ---------------------------------------------------------------------------
-- One operation
-- ---------------------------------------------------------------------------

theorem descriptorEffect_within {op : Op} {r : Res op} (hop : op.Within)
    (h : descriptorEffect fds op r fds') : fds'.val = fds.val + ↑(mapsMade [reply op r]) := by
  cases op with
  | accept => exact absurd hop id
  | close => exact absurd hop id
  | bpf cmd attr size =>
    rcases h with ⟨hneg, rfl⟩ | ⟨fd, hfd, rfl, hfresh, rfl⟩
    · have hnone : mapsMade [reply (.bpf cmd attr size) r] = [] := by
        simp [mapsMade, bpfCalls, observed, observe, reply, Int64.not_le.mpr hneg]
      simp [hnone]
    · have hmade : mapsMade [reply (.bpf cmd attr size) fd.toInt64] = [fd] := by
        simp [mapsMade, bpfCalls, observed, observe, reply, toInt64_nonneg hfd]
      rw [hmade, Finset.insert_val_of_notMem hfresh, Multiset.coe_singleton, Multiset.add_comm,
        Multiset.singleton_add]
  | deserialize bytes => cases r <;> (cases h; simp [mapsMade, bpfCalls, observed, observe, reply])
  | log line => cases h; simp
  | _ => cases h; simp [mapsMade, bpfCalls, observed, observe, reply]

theorem descriptorEffect_close {rest : Multiset RawFd} {r : Res (.close stream)}
    (h : descriptorEffect fds (.close stream) r fds') (hfds : fds.val = {stream} + rest) :
    fds'.val = rest := by
  obtain rfl : fds' = fds \ {stream} := h
  rw [Finset.sdiff_singleton_eq_erase, Finset.erase_val, hfds, Multiset.singleton_add,
    Multiset.erase_cons_head]

theorem descriptorEffect_log {line : Log} {r : Res (.log line)} (h : descriptorEffect fds (.log line) r fds') :
    fds' = fds := h

-- ---------------------------------------------------------------------------
-- The two programs
-- ---------------------------------------------------------------------------

def Op.Logs : Op → Prop
  | .log _ => True
  | _ => False

section
variable {printable : Char → Bool} {policy : Policy}

/-- A round accepts, and then there is at most a line for the log. -/
theorem acceptConnection_once :
    acceptConnection.Once (fun _ => False) .accept Op.Logs := by
  refine once_perform fun r => ?_
  cases r with
  | ok => exact uses_pure
  | error => exact uses_bind (uses_perform trivial) fun _ => uses_pure

theorem acceptConnection_returned {tr : List (Reply Op Res)} {o : Option RawFd}
    (h : Path acceptConnection tr (.ret o)) : accepted tr = o.toList := by
  obtain ⟨r, m, t₁, t₂, haccept, hrest, rfl⟩ := exec_bind.mp h.returned
  obtain ⟨-, rfl⟩ := exec_issue.mp haccept
  cases r with
  | ok stream =>
    obtain ⟨rfl, rfl, -⟩ := exec_pure.mp hrest
    rfl
  | error e =>
    obtain ⟨rfl, rfl⟩ := exec_log_pure hrest
    rfl

/-- A task drops its stream once, and logs at most after that. -/
theorem serveClient_once : (serveClient printable policy stream).Once Op.Within (.close stream) Op.Logs := by
  refine Prog.Once.bind (once_bind uses_converse fun result => once_perform fun _ => uses_pure) fun r => ?_
  cases r with
  | ok => exact uses_pure
  | error => exact uses_perform trivial

theorem dropped_over {c : Threads W RawFd Unit} (htraced : (daemon printable policy).Traced W c)
    {t : Task Op Res RawFd Unit} {a : Unit} (ht : t ∈ c.tasks) (hover : t.rest = .ret a) :
    dropped t.history = true := by
  have hpath := htraced.history t ht
  rw [hover] at hpath
  rcases hpath.once serveClient_once with ⟨hmore, -⟩ | ⟨-, before, r, after, heq, -, -⟩
  · exact hmore.elim
  · simp [heq, dropped, reply, Op.isClose]

-- ---------------------------------------------------------------------------
-- Every reachable state
-- ---------------------------------------------------------------------------

variable {base : Finset RawFd} {c c' : Threads descriptorWorld RawFd Unit}

theorem accepted_step {heard : List (Reply Op Res)} {op : Op} {r : Res op}
    {next : Res op → Prog Op Res (Option RawFd)} (hpath : Path acceptConnection heard (.call op next))
    (h : descriptorEffect fds op r fds') : fds'.val = fds.val + ↑(accepted [reply op r]) := by
  rcases hpath.once acceptConnection_once with ⟨hop | ⟨rfl, -⟩, -⟩ | ⟨⟨hop, -⟩, -⟩
  · exact hop.1.elim
  · cases r with
    | error e =>
      cases h
      simp [accepted, acceptedStream, reply]
    | ok stream =>
      obtain ⟨hfresh, rfl⟩ := h
      rw [Finset.insert_val_of_notMem hfresh, ← Multiset.singleton_add, Multiset.add_comm]
      rfl
  · cases op with
    | log line =>
      cases descriptorEffect_log h
      simp [accepted, acceptedStream, reply]
    | _ => exact absurd hop id

theorem held_step (origin : List (Reply Op Res)) (others : Multiset RawFd) {stream : RawFd}
    {history : List (Reply Op Res)} {op : Op} {r : Res op} {next : Res op → Prog Op Res Unit}
    (hpath : Path (serveClient printable policy stream) history (.call op next))
    (h : descriptorEffect fds op r fds')
    (hfds : fds.val = held ⟨stream, origin, history, .call op next⟩ + others) :
    fds'.val = held ⟨stream, origin, history ++ [reply op r], next r⟩ + others := by
  rcases hpath.once serveClient_once with ⟨⟨hop, -⟩ | ⟨rfl, -⟩, hwithin⟩ | ⟨⟨hop, -⟩, -⟩
  · have hopen : dropped [reply op r] = false := dropped_within (by simpa [reply] using hop)
    rw [descriptorEffect_within hop h, hfds]
    simp only [held, dropped_append, hopen, Bool.or_false, mapsMade_append, ← Multiset.coe_add]
    ac_rfl
  · have hopen : dropped history = false := dropped_within hwithin
    rw [held_open hopen, add_assoc] at hfds
    rw [descriptorEffect_close h hfds, held_dropped (by simp)]
    simp
  · cases op with
    | log line =>
      cases descriptorEffect_log h
      rw [hfds]
      simp [held]
    | _ => exact absurd hop id

theorem accounted_step (hstep : (daemon printable policy).Step descriptorWorld c c')
    (htraced : (daemon printable policy).Traced descriptorWorld c) (h : Accounted base c) :
    Accounted base c' := by
  cases hstep with
  | loop hanswer =>
    have hworld := accepted_step htraced.loop hanswer
    simp only [Accounted] at h ⊢
    rw [hworld, h, accepted_append, ← Multiset.coe_add]
    ac_rfl
  | again =>
    have hnone := acceptConnection_returned htraced.loop
    simp only [Accounted, hnone] at h
    exact h
  | start =>
    have hsome := acceptConnection_returned htraced.loop
    simp only [Accounted, hsome] at h ⊢
    rw [h]
    simp [held, accepted, dropped, mapsMade, bpfCalls, add_comm, add_assoc]
  | @task _ _ heard _ before item origin history op next r after hanswer =>
    have hpath := htraced.history ⟨item, origin, history, .call op next⟩ (by simp)
    have hfds := held_step origin
      (base.val + ↑(accepted heard) + ((before.map held).sum + (after.map held).sum)) hpath hanswer
    simp only [Accounted, List.map_append, List.map_cons, List.sum_append, List.sum_cons] at h ⊢
    rw [hfds]
    · ac_rfl
    · rw [h]
      ac_rfl

theorem reach_accounted (hreach : (daemon printable policy).Reaches descriptorWorld base c) :
    Accounted base c := by
  refine (Service.reach_invariant (I := fun c => (daemon printable policy).Traced descriptorWorld c ∧
    Accounted base c) ?_ ?_ hreach).2
  · exact ⟨Service.reach_traced .refl, by simp [Accounted, Service.init, accepted]⟩
  · rintro c c' hstep ⟨htraced, h⟩
    exact ⟨htraced.step hstep, accounted_step hstep htraced h⟩

/-- The open descriptors, in every reachable state: those at the start, the
stream on its way to a task, and what each task holds. A task that is over
holds its maps. -/
theorem descriptors_accounted (hreach : (daemon printable policy).Reaches descriptorWorld base c) :
    Finset.val c.world = base.val + ↑(accepted c.heard) + (c.tasks.map held).sum ∧
      ∀ t ∈ c.tasks, ∀ a, t.rest = .ret a → held t = ↑(mapsMade t.history) := by
  refine ⟨reach_accounted hreach, fun t ht a hover => ?_⟩
  exact held_dropped (dropped_over (Service.reach_traced hreach) ht hover)

/-- Connections served one after the other are one of the interleavings. -/
theorem Served.reaches {connections : List Connection} (h : Served printable policy fds connections fds')
    {tasks : List (Task Op Res RawFd Unit)} :
    ∃ tasks', Relation.ReflTransGen ((daemon printable policy).Step descriptorWorld)
      ⟨fds, [], acceptConnection, tasks⟩ ⟨fds', [], acceptConnection, tasks'⟩ := by
  induction h generalizing tasks with
  | none => exact ⟨tasks, .refl⟩
  | next hconnection _ ih =>
    rw [serveConnection_eq] at hconnection
    obtain ⟨_, hfirst⟩ := Service.sequential_steps tasks hconnection
    obtain ⟨tasks', hrest⟩ := ih
    exact ⟨tasks', hfirst.trans hrest⟩

end

/-- The client of `hashMapClient` has been served where it gets descriptor 7. -/
def tracerKept : Threads descriptorWorld RawFd Unit :=
  let round := acceptConnection.play (W := descriptorWorld) (descriptorStrategy hashMapClient)
    (∅ : Finset RawFd)
  let task := (serveClient (fun _ => true) Policy.default 5).play (W := descriptorWorld)
    (descriptorStrategy hashMapClient) ({5} : Finset RawFd)
  ⟨task.2.2, [], acceptConnection, [⟨5, round.1.map Event.reply, task.1.map Event.reply, .ret ()⟩]⟩

theorem tracerKept_reached :
    (daemon (fun _ => true) Policy.default).Reaches descriptorWorld (∅ : Finset RawFd) tracerKept := by
  have hround := exec_play (W := descriptorWorld) (descriptorStrategy hashMapClient)
    (descriptorStrategy_ok hashMapClient) acceptConnection (∅ : Finset RawFd)
  have htask := exec_play (W := descriptorWorld) (descriptorStrategy hashMapClient)
    (descriptorStrategy_ok hashMapClient) (serveClient (fun _ => true) Policy.default 5) ({5} : Finset RawFd)
  exact Service.serve (S := daemon (fun _ => true) Policy.default) [] hround htask

theorem tracer_accounted :
    (tracerKept.tasks.map held).sum = {7} ∧ ∀ t ∈ tracerKept.tasks, held t = ↑(mapsMade t.history) := by
  have haccounted := descriptors_accounted tracerKept_reached
  have hworld : Finset.val tracerKept.world = {7} := by decide
  refine ⟨?_, fun t ht => haccounted.2 t ht () ?_⟩
  · rw [← hworld, haccounted.1]
    simp [tracerKept, accepted]
  · cases List.mem_singleton.mp ht
    rfl

end BpfRbacd.Daemon
