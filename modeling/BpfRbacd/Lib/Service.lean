import BpfRbacd.Lib.Interaction

/-!
# A loop that hands its work to tasks

A `Service` repeats a round for ever, and a round may end with an item for
which a task is started. Loop and tasks take turns in any order, one operation
at a time, in one world (`Service.Step`).

`heard` and `Task.history` keep what was answered to the current round and to a
task. No step reads them. In every reachable state a history is a path through
the task's own program (`Service.reach_traced`), so what is proved of a program
alone holds of each task, whatever the others do.
-/

namespace BpfRbacd.Interaction

open Relation

variable {Op : Type} {Res : Op → Type} {κ α : Type}

-- ---------------------------------------------------------------------------
-- Paths through a program
-- ---------------------------------------------------------------------------

/-- The world in which anything may be answered. -/
def World.free (Op : Type) (Res : Op → Type) : World Op Res where
  State := Unit
  answer _ _ _ _ := True

/-- An operation and its answer. -/
abbrev Reply (Op : Type) (Res : Op → Type) := Event (World.free Op Res)

def reply (op : Op) (r : Res op) : Reply Op Res := ⟨(), op, r⟩

def Event.reply {W : World Op Res} (e : Event W) : Reply Op Res := ⟨(), e.op, e.res⟩

inductive Path : Prog Op Res α → List (Reply Op Res) → Prog Op Res α → Prop
  | here {p} : Path p [] p
  | call {op next r tr q} : Path (next r) tr q → Path (.call op next) (reply op r :: tr) q

section
variable {p q : Prog Op Res α} {tr : List (Reply Op Res)}

theorem Path.snoc {op : Op} {next : Res op → Prog Op Res α} (h : Path p tr (.call op next)) (r : Res op) :
    Path p (tr ++ [reply op r]) (next r) := by
  generalize hq : Prog.call op next = q at h
  induction h with
  | here => subst hq; exact .call .here
  | call _ ih => exact .call (ih hq)

/-- A path and a run from where it leads make a run. -/
theorem Path.exec {a : α} {rest : List (Reply Op Res)} (h : Path p tr q)
    (hrest : Exec (World.free Op Res) q () rest a ()) : Exec (World.free Op Res) p () (tr ++ rest) a () := by
  induction h with
  | here => exact hrest
  | call _ ih => exact .call trivial (ih hrest)

theorem Path.returned {a : α} (h : Path p tr (.ret a)) : Exec (World.free Op Res) p () tr a () := by
  simpa using h.exec .ret

theorem exists_exec [∀ op, Nonempty (Res op)] (q : Prog Op Res α) :
    ∃ rest a, Exec (World.free Op Res) q () rest a () := by
  induction q with
  | ret a => exact ⟨[], a, .ret⟩
  | call op next ih =>
    obtain ⟨rest, a, hrest⟩ := ih (Classical.choice inferInstance)
    exact ⟨_, a, .call trivial hrest⟩

/-- Every path is the beginning of a run. -/
theorem Path.completes [∀ op, Nonempty (Res op)] (h : Path p tr q) :
    ∃ rest a, Exec (World.free Op Res) p () (tr ++ rest) a () := by
  obtain ⟨rest, a, hrest⟩ := exists_exec q
  exact ⟨rest, a, h.exec hrest⟩

theorem Path.uses {P : Op → Prop} (h : Path p tr q) (hp : p.Uses P) : q.Uses P ∧ ∀ e ∈ tr, P e.op := by
  induction h with
  | here => exact ⟨hp, by simp⟩
  | call _ ih =>
    obtain ⟨hop, hnext⟩ := hp
    obtain ⟨hq, htr⟩ := ih (hnext _)
    exact ⟨hq, List.forall_mem_cons.mpr ⟨hop, htr⟩⟩

end

-- ---------------------------------------------------------------------------
-- Programs with one operation to come
-- ---------------------------------------------------------------------------

/-- On every way to its end the program issues `c` once: operations of `P`
before it and of `Q` after it. -/
def Prog.Once (P : Op → Prop) (c : Op) (Q : Op → Prop) : Prog Op Res α → Prop
  | .ret _ => False
  | .call op next => (P op ∧ ∀ r, (next r).Once P c Q) ∨ (op = c ∧ ∀ r, (next r).Uses Q)

section
variable {P Q : Op → Prop} {c : Op} {β : Type}

theorem once_bind {p : Prog Op Res α} {f : α → Prog Op Res β} (hp : p.Uses P)
    (hf : ∀ a, (f a).Once P c Q) : (p >>= f).Once P c Q := by
  show (p.bind f).Once P c Q
  induction p with
  | ret a => exact hf a
  | call op next ih =>
    obtain ⟨hop, hnext⟩ := hp
    exact .inl ⟨hop, fun r => ih r (hnext r)⟩

theorem once_perform {f : Res c → Prog Op Res α} (hf : ∀ r, (f r).Uses Q) :
    (perform c >>= f).Once P c Q := .inr ⟨rfl, hf⟩

theorem Prog.Once.bind {p : Prog Op Res α} {f : α → Prog Op Res β} (hp : p.Once P c Q)
    (hf : ∀ a, (f a).Uses Q) : (p >>= f).Once P c Q := by
  show (p.bind f).Once P c Q
  induction p with
  | ret a => exact hp.elim
  | call op next ih =>
    rcases hp with ⟨hop, hnext⟩ | ⟨hc, hnext⟩
    · exact .inl ⟨hop, fun r => ih r (hnext r)⟩
    · exact .inr ⟨hc, fun r => uses_bind (hnext r) hf⟩

/-- Along a path `c` is still to come, or it came once and is over. -/
theorem Path.once {p q : Prog Op Res α} {tr : List (Reply Op Res)} (h : Path p tr q) (hp : p.Once P c Q) :
    (q.Once P c Q ∧ ∀ e ∈ tr, P e.op) ∨
      (q.Uses Q ∧ ∃ before r after, tr = before ++ reply c r :: after ∧ (∀ e ∈ before, P e.op) ∧
        ∀ e ∈ after, Q e.op) := by
  induction h with
  | here => exact .inl ⟨hp, by simp⟩
  | @call op next r tr q hnext ih =>
    rcases hp with ⟨hop, hp⟩ | ⟨rfl, hp⟩
    · rcases ih (hp r) with ⟨hq, htr⟩ | ⟨hq, before, r', after, rfl, hbefore, hafter⟩
      · exact .inl ⟨hq, List.forall_mem_cons.mpr ⟨hop, htr⟩⟩
      · exact .inr ⟨hq, reply op r :: before, r', after, rfl, List.forall_mem_cons.mpr ⟨hop, hbefore⟩, hafter⟩
    · obtain ⟨hq, hafter⟩ := hnext.uses (hp r)
      exact .inr ⟨hq, [], r, tr, rfl, by simp, hafter⟩

end

-- ---------------------------------------------------------------------------
-- Services
-- ---------------------------------------------------------------------------

structure Service (Op : Type) (Res : Op → Type) (κ α : Type) where
  round : Prog Op Res (Option κ)
  task : κ → Prog Op Res α

/-- A round with its task run to the end at once, and `none` answered by `idle`. -/
def Service.sequential (S : Service Op Res κ α) (idle : α) : Prog Op Res α :=
  S.round >>= fun item => item.elim (pure idle) S.task

/-- `origin` are the answers to the round that started the task. -/
structure Task (Op : Type) (Res : Op → Type) (κ α : Type) where
  item : κ
  origin : List (Reply Op Res)
  history : List (Reply Op Res)
  rest : Prog Op Res α

/-- Tasks are listed in the order they were started. -/
structure Threads (W : World Op Res) (κ α : Type) where
  world : W.State
  heard : List (Reply Op Res)
  loop : Prog Op Res (Option κ)
  tasks : List (Task Op Res κ α)

section
variable (S : Service Op Res κ α) (W : World Op Res)

inductive Service.Step : Threads W κ α → Threads W κ α → Prop
  | loop {s s' : W.State} {heard op next r tasks} : W.answer s op r s' →
      Step ⟨s, heard, .call op next, tasks⟩ ⟨s', heard ++ [reply op r], next r, tasks⟩
  | again {s : W.State} {heard tasks} : Step ⟨s, heard, .ret none, tasks⟩ ⟨s, [], S.round, tasks⟩
  | start {s : W.State} {heard item tasks} :
      Step ⟨s, heard, .ret (some item), tasks⟩ ⟨s, [], S.round, tasks ++ [⟨item, heard, [], S.task item⟩]⟩
  | task {s s' : W.State} {heard loop before item origin history op next r after} : W.answer s op r s' →
      Step ⟨s, heard, loop, before ++ ⟨item, origin, history, .call op next⟩ :: after⟩
        ⟨s', heard, loop, before ++ ⟨item, origin, history ++ [reply op r], next r⟩ :: after⟩

def Service.init (s : W.State) : Threads W κ α := ⟨s, [], S.round, []⟩

def Service.Reaches (s : W.State) (c : Threads W κ α) : Prop := ReflTransGen (S.Step W) (S.init W s) c

/-- Histories are paths. -/
structure Service.Traced (c : Threads W κ α) : Prop where
  loop : Path S.round c.heard c.loop
  origin : ∀ t ∈ c.tasks, Path S.round t.origin (.ret (some t.item))
  history : ∀ t ∈ c.tasks, Path (S.task t.item) t.history t.rest

end

section
variable {S : Service Op Res κ α} {W : World Op Res} {s : W.State} {c c' : Threads W κ α}

theorem Service.Traced.step (hstep : S.Step W c c') (h : S.Traced W c) : S.Traced W c' := by
  obtain ⟨hloop, horigin, hhistory⟩ := h
  cases hstep with
  | loop => exact ⟨hloop.snoc _, horigin, hhistory⟩
  | again => exact ⟨.here, horigin, hhistory⟩
  | start =>
    refine ⟨.here, ?_, ?_⟩
    · exact List.forall_mem_append.mpr ⟨horigin, List.forall_mem_singleton.mpr hloop⟩
    · exact List.forall_mem_append.mpr ⟨hhistory, List.forall_mem_singleton.mpr .here⟩
  | task =>
    simp only [List.forall_mem_append, List.forall_mem_cons] at horigin hhistory
    refine ⟨hloop, ?_, ?_⟩
    · exact List.forall_mem_append.mpr ⟨horigin.1, List.forall_mem_cons.mpr horigin.2⟩
    · exact List.forall_mem_append.mpr
        ⟨hhistory.1, List.forall_mem_cons.mpr ⟨hhistory.2.1.snoc _, hhistory.2.2⟩⟩

/-- What holds at the start and is kept by every step holds in every reachable state. -/
theorem Service.reach_invariant {I : Threads W κ α → Prop} (hinit : I (S.init W s))
    (hstep : ∀ c c', S.Step W c c' → I c → I c') (h : S.Reaches W s c) : I c := by
  induction h with
  | refl => exact hinit
  | tail _ hlast ih => exact hstep _ _ hlast ih

theorem Service.reach_traced (h : S.Reaches W s c) : S.Traced W c := by
  apply reach_invariant _ (fun _ _ => Traced.step) h
  exact ⟨.here, by simp [init], by simp [init]⟩

/-- A task's history begins a run of its program on its own. -/
theorem Service.Reaches.task [∀ op, Nonempty (Res op)] (h : S.Reaches W s c) {t : Task Op Res κ α}
    (ht : t ∈ c.tasks) :
    ∃ rest a, Exec (World.free Op Res) (S.task t.item) () (t.history ++ rest) a () :=
  ((reach_traced h).history t ht).completes

-- ---------------------------------------------------------------------------
-- Whole runs
-- ---------------------------------------------------------------------------

/-- Runs of the loop and of a task are sequences of steps. -/
theorem Exec.loop (tasks : List (Task Op Res κ α)) {heard : List (Reply Op Res)}
    {p : Prog Op Res (Option κ)} {s s' : W.State} {tr : List (Event W)} {a : Option κ} (h : Exec W p s tr a s') :
    ReflTransGen (S.Step W) ⟨s, heard, p, tasks⟩ ⟨s', heard ++ tr.map Event.reply, .ret a, tasks⟩ := by
  induction h generalizing heard with
  | ret => simpa using ReflTransGen.refl
  | call hanswer _ ih => simpa [Event.reply, reply] using ReflTransGen.head (.loop hanswer) ih

theorem Exec.task (before after : List (Task Op Res κ α)) {heard : List (Reply Op Res)}
    {loop : Prog Op Res (Option κ)} {item : κ} {origin history : List (Reply Op Res)} {p : Prog Op Res α}
    {s s' : W.State} {tr : List (Event W)} {a : α} (h : Exec W p s tr a s') :
    ReflTransGen (S.Step W) ⟨s, heard, loop, before ++ ⟨item, origin, history, p⟩ :: after⟩
      ⟨s', heard, loop, before ++ ⟨item, origin, history ++ tr.map Event.reply, .ret a⟩ :: after⟩ := by
  induction h generalizing history with
  | ret => simpa using ReflTransGen.refl
  | call hanswer _ ih => simpa [Event.reply, reply] using ReflTransGen.head (.task hanswer) ih

/-- A task that runs to its end before the next round begins is one of the
interleavings. -/
theorem Service.serve (tasks : List (Task Op Res κ α)) {s m s' : W.State} {first second : List (Event W)}
    {item : κ} {a : α} (hround : Exec W S.round s first (some item) m)
    (htask : Exec W (S.task item) m second a s') :
    ReflTransGen (S.Step W) ⟨s, [], S.round, tasks⟩
      ⟨s', [], S.round, tasks ++ [⟨item, first.map Event.reply, second.map Event.reply, .ret a⟩]⟩ := by
  have hloop : ReflTransGen (S.Step W) ⟨s, [], S.round, tasks⟩
      ⟨m, first.map Event.reply, .ret (some item), tasks⟩ := hround.loop tasks
  exact (hloop.tail .start).trans (htask.task tasks [])

theorem Service.sequential_steps (tasks : List (Task Op Res κ α)) {idle a : α} {s s' : W.State}
    {tr : List (Event W)} (h : Exec W (S.sequential idle) s tr a s') :
    ∃ tasks', ReflTransGen (S.Step W) ⟨s, [], S.round, tasks⟩ ⟨s', [], S.round, tasks'⟩ := by
  obtain ⟨item, m, first, second, hround, hrest, rfl⟩ := exec_bind.mp h
  cases item with
  | none =>
    obtain ⟨-, -, rfl⟩ := exec_pure.mp hrest
    exact ⟨tasks, (hround.loop tasks).tail .again⟩
  | some item => exact ⟨_, serve tasks hround hrest⟩

end

-- ---------------------------------------------------------------------------
-- Another world
-- ---------------------------------------------------------------------------

section
variable {S : Service Op Res κ α} {W W' : World Op Res} {f : W.State → W'.State} {s : W.State}
  {c c' : Threads W κ α}

def Threads.into (f : W.State → W'.State) (c : Threads W κ α) : Threads W' κ α :=
  ⟨f c.world, c.heard, c.loop, c.tasks⟩

/-- Steps in one world are steps in any world that allows as much. -/
theorem Service.Step.into (hf : ∀ s op r s', W.answer s op r s' → W'.answer (f s) op r (f s'))
    (h : S.Step W c c') : S.Step W' (c.into f) (c'.into f) := by
  cases h with
  | loop hanswer => exact .loop (hf _ _ _ _ hanswer)
  | again => exact .again
  | start => exact .start
  | task hanswer => exact .task (hf _ _ _ _ hanswer)

theorem Service.Reaches.into (hf : ∀ s op r s', W.answer s op r s' → W'.answer (f s) op r (f s'))
    (h : S.Reaches W s c) : S.Reaches W' (f s) (c.into f) := by
  induction h with
  | refl => exact .refl
  | tail _ hlast ih => exact ih.tail (hlast.into hf)

end

end BpfRbacd.Interaction
