import Mathlib.Logic.Relation

/-!
# Programs that call into a world

A `Prog` is a straight description of what code does: it returns, or it calls
an operation and continues with the answer. A `World` says which answers an
operation may get in a state and which state follows. `Exec` is one run of a
program in a world, with the events in the order they happened; each event
remembers the state it was issued in.

Nothing here fixes the operations. Failing code is a program in the `ExceptT`
transformer, and the `exec_` lemmas invert a run along the program's structure.
-/

namespace BpfRbacd.Interaction

inductive Prog (Op : Type) (Res : Op → Type) (α : Type) : Type
  | ret (a : α)
  | call (op : Op) (next : Res op → Prog Op Res α)

variable {Op : Type} {Res : Op → Type} {α β ε : Type}

def Prog.bind : Prog Op Res α → (α → Prog Op Res β) → Prog Op Res β
  | .ret a, f => f a
  | .call op next, f => .call op fun r => (next r).bind f

instance : Monad (Prog Op Res) where
  pure := .ret
  bind := Prog.bind

def perform (op : Op) : Prog Op Res (Res op) := .call op .ret

structure World (Op : Type) (Res : Op → Type) where
  State : Type
  answer : State → (op : Op) → Res op → State → Prop

structure Event (W : World Op Res) where
  before : W.State
  op : Op
  res : Res op

inductive Exec (W : World Op Res) : Prog Op Res α → W.State → List (Event W) → α → W.State → Prop
  | ret {a s} : Exec W (.ret a) s [] a s
  | call {op next s r m tr a s'} :
      W.answer s op r m → Exec W (next r) m tr a s' → Exec W (.call op next) s (⟨s, op, r⟩ :: tr) a s'

variable {W : World Op Res} {s s' : W.State} {tr : List (Event W)}

-- ---------------------------------------------------------------------------
-- Inversion along the program
-- ---------------------------------------------------------------------------

theorem exec_ret {a b : α} : Exec W (.ret a) s tr b s' ↔ tr = [] ∧ b = a ∧ s' = s := by
  constructor
  · intro h; cases h; exact ⟨rfl, rfl, rfl⟩
  · rintro ⟨rfl, rfl, rfl⟩; exact .ret

theorem exec_pure {a b : α} :
    Exec W (pure a : Prog Op Res α) s tr b s' ↔ tr = [] ∧ b = a ∧ s' = s := exec_ret

theorem exec_call {op : Op} {next : Res op → Prog Op Res α} {a : α} :
    Exec W (.call op next) s tr a s' ↔
      ∃ r m rest, W.answer s op r m ∧ Exec W (next r) m rest a s' ∧ tr = ⟨s, op, r⟩ :: rest := by
  constructor
  · intro h
    cases h with
    | call hr hrest => exact ⟨_, _, _, hr, hrest, rfl⟩
  · rintro ⟨r, m, rest, hr, hrest, rfl⟩
    exact .call hr hrest

theorem exec_perform {op : Op} {r : Res op} :
    Exec W (perform op) s tr r s' ↔ W.answer s op r s' ∧ tr = [⟨s, op, r⟩] := by
  simp only [perform, exec_call, exec_ret]
  constructor
  · rintro ⟨q, m, rest, hq, ⟨rfl, rfl, rfl⟩, rfl⟩; exact ⟨hq, rfl⟩
  · rintro ⟨hr, rfl⟩; exact ⟨r, s', [], hr, ⟨rfl, rfl, rfl⟩, rfl⟩

/-- A run of a sequence is a run of the first part followed by one of the second. -/
theorem exec_bind {p : Prog Op Res α} {f : α → Prog Op Res β} {b : β} :
    Exec W (p >>= f) s tr b s' ↔
      ∃ a m t₁ t₂, Exec W p s t₁ a m ∧ Exec W (f a) m t₂ b s' ∧ tr = t₁ ++ t₂ := by
  show Exec W (p.bind f) s tr b s' ↔ _
  induction p generalizing s tr with
  | ret a =>
    constructor
    · intro h; exact ⟨a, s, [], tr, .ret, h, rfl⟩
    · rintro ⟨_, _, _, _, h₁, h₂, rfl⟩
      cases h₁; exact h₂
  | call op next ih =>
    simp only [Prog.bind, exec_call, ih]
    constructor
    · rintro ⟨r, m, rest, hr, ⟨a, m', t₁, t₂, h₁, h₂, rfl⟩, rfl⟩
      exact ⟨a, m', _, t₂, ⟨r, m, t₁, hr, h₁, rfl⟩, h₂, rfl⟩
    · rintro ⟨a, m', _, t₂, ⟨r, m, t₁, hr, h₁, rfl⟩, h₂, rfl⟩
      exact ⟨r, m, t₁ ++ t₂, hr, ⟨a, m', t₁, t₂, h₁, h₂, rfl⟩, rfl⟩

-- ---------------------------------------------------------------------------
-- Failing programs
-- ---------------------------------------------------------------------------

/-- Code with the `?` operator: the first error ends it. -/
abbrev Fallible (Op : Type) (Res : Op → Type) (ε : Type) := ExceptT ε (Prog Op Res)

/-- Keep an outcome instead of returning early on an error. -/
def attempt (x : Fallible Op Res ε α) : Fallible Op Res ε (Except ε α) := ExceptT.lift x.run

section
variable {x : Fallible Op Res ε α} {f : α → Fallible Op Res ε β} {r : Except ε α} {q : Except ε β}

theorem exec_run_pure {a : α} :
    Exec W (pure a : Fallible Op Res ε α).run s tr r s' ↔ tr = [] ∧ r = .ok a ∧ s' = s := exec_pure

theorem exec_run_throw {e : ε} :
    Exec W (throw e : Fallible Op Res ε α).run s tr r s' ↔ tr = [] ∧ r = .error e ∧ s' = s := exec_pure

theorem exec_run_lift {p : Prog Op Res α} :
    Exec W (ExceptT.lift p : Fallible Op Res ε α).run s tr r s' ↔
      ∃ a, Exec W p s tr a s' ∧ r = .ok a := by
  show Exec W (p >>= fun a => pure (.ok a)) s tr r s' ↔ _
  rw [exec_bind]
  constructor
  · rintro ⟨a, m, t₁, t₂, h₁, h₂, rfl⟩
    obtain ⟨rfl, rfl, rfl⟩ := exec_pure.mp h₂
    exact ⟨a, by simpa using h₁, rfl⟩
  · rintro ⟨a, h, rfl⟩
    exact ⟨a, s', tr, [], h, exec_pure.mpr ⟨rfl, rfl, rfl⟩, by simp⟩

theorem exec_run_bind :
    Exec W (x >>= f).run s tr q s' ↔
      (∃ e, Exec W x.run s tr (.error e) s' ∧ q = .error e) ∨
      ∃ a m t₁ t₂, Exec W x.run s t₁ (.ok a) m ∧ Exec W (f a).run m t₂ q s' ∧ tr = t₁ ++ t₂ := by
  show Exec W (x.run >>= ExceptT.bindCont f) s tr q s' ↔ _
  rw [exec_bind]
  constructor
  · rintro ⟨a, m, t₁, t₂, h₁, h₂, rfl⟩
    cases a with
    | error e =>
      obtain ⟨rfl, rfl, rfl⟩ := exec_pure.mp h₂
      exact .inl ⟨e, by simpa using h₁, rfl⟩
    | ok a => exact .inr ⟨a, m, t₁, t₂, h₁, h₂, rfl⟩
  · rintro (⟨e, h₁, rfl⟩ | ⟨a, m, t₁, t₂, h₁, h₂, rfl⟩)
    · exact ⟨.error e, s', tr, [], h₁, exec_pure.mpr ⟨rfl, rfl, rfl⟩, by simp⟩
    · exact ⟨.ok a, m, t₁, t₂, h₁, h₂, rfl⟩

theorem exec_run_attempt {o : Except ε (Except ε α)} :
    Exec W (attempt x).run s tr o s' ↔ ∃ r, Exec W x.run s tr r s' ∧ o = .ok r := exec_run_lift

theorem exec_run_adapt {g : ε → ε} :
    Exec W (ExceptT.adapt g x).run s tr r s' ↔ ∃ o, Exec W x.run s tr o s' ∧ r = o.mapError g := by
  show Exec W (x.run >>= fun o => pure (o.mapError g)) s tr r s' ↔ _
  rw [exec_bind]
  constructor
  · rintro ⟨a, m, t₁, t₂, h₁, h₂, rfl⟩
    obtain ⟨rfl, rfl, rfl⟩ := exec_pure.mp h₂
    exact ⟨a, by simpa using h₁, rfl⟩
  · rintro ⟨o, h, rfl⟩
    exact ⟨o, s', tr, [], h, exec_pure.mpr ⟨rfl, rfl, rfl⟩, by simp⟩
end

-- ---------------------------------------------------------------------------
-- What a run can contain
-- ---------------------------------------------------------------------------

def Prog.Uses (P : Op → Prop) : Prog Op Res α → Prop
  | .ret _ => True
  | .call op next => P op ∧ ∀ r, (next r).Uses P

section
variable {P : Op → Prop}

theorem uses_pure {a : α} : Prog.Uses P (pure a : Prog Op Res α) := trivial

theorem uses_perform {op : Op} (h : P op) : Prog.Uses P (perform op : Prog Op Res (Res op)) :=
  ⟨h, fun _ => trivial⟩

theorem uses_bind {p : Prog Op Res α} {f : α → Prog Op Res β} (hp : p.Uses P)
    (hf : ∀ a, (f a).Uses P) : (p >>= f).Uses P := by
  show (p.bind f).Uses P
  induction p with
  | ret a => exact hf a
  | call op next ih =>
    obtain ⟨hop, hnext⟩ := hp
    exact ⟨hop, fun r => ih r (hnext r)⟩

theorem uses_run_bind {x : Fallible Op Res ε α} {f : α → Fallible Op Res ε β} (hx : x.run.Uses P)
    (hf : ∀ a, (f a).run.Uses P) : (x >>= f).run.Uses P := by
  refine uses_bind hx fun r => ?_
  cases r with
  | error e => exact uses_pure
  | ok a => exact hf a

theorem uses_mono {Q : Op → Prop} {p : Prog Op Res α} (hPQ : ∀ op, P op → Q op) (hp : p.Uses P) :
    p.Uses Q := by
  induction p with
  | ret a => trivial
  | call op next ih =>
    obtain ⟨hop, hnext⟩ := hp
    exact ⟨hPQ op hop, fun r => ih r (hnext r)⟩

/-- A relation between the ends of a run and its events holds of every run of
the program if each event a permitted operation can have carries it on. -/
theorem exec_induct {Q : W.State → List (Event W) → W.State → Prop} {p : Prog Op Res α} {a : α}
    (hnil : ∀ s, Q s [] s)
    (hstep : ∀ s op r m tr s', P op → W.answer s op r m → Q m tr s' → Q s (⟨s, op, r⟩ :: tr) s')
    (hp : p.Uses P) (h : Exec W p s tr a s') : Q s tr s' := by
  induction h with
  | ret => exact hnil _
  | call hr _ ih =>
    obtain ⟨hop, hnext⟩ := hp
    exact hstep _ _ _ _ _ _ hop hr (ih (hnext _))

/-- Operations that leave the state as it is leave it so over a run. -/
theorem exec_keeps {p : Prog Op Res α} {a : α}
    (hstep : ∀ s op r m, P op → W.answer s op r m → m = s)
    (hp : p.Uses P) (h : Exec W p s tr a s') : s' = s := by
  refine exec_induct (Q := fun s _ s' => s' = s) ?_ ?_ hp h
  · intro s
    rfl
  · intro s op r m _ s' hop hanswer ih
    exact ih.trans (hstep s op r m hop hanswer)

theorem exec_uses {p : Prog Op Res α} {a : α} (hp : p.Uses P) (h : Exec W p s tr a s') :
    ∀ e ∈ tr, P e.op := by
  refine exec_induct (Q := fun _ tr _ => ∀ e ∈ tr, P e.op) ?_ ?_ hp h
  · intro _ e he
    exact absurd he (by simp)
  · intro _ op r _ tr _ hop _ ih e he
    rcases List.mem_cons.mp he with rfl | he
    · exact hop
    · exact ih e he

end

theorem exec_invariant {I : W.State → Prop} {p : Prog Op Res α} {a : α}
    (hstep : ∀ s op r s', W.answer s op r s' → I s → I s') (h : Exec W p s tr a s') (hs : I s) :
    I s' := by
  induction h with
  | ret => exact hs
  | call hr _ ih => exact ih (hstep _ _ _ _ hr hs)

/-- The world in which others take any number of steps before each operation. -/
def World.disturbed (W : World Op Res) (others : W.State → W.State → Prop) : World Op Res where
  State := W.State
  answer s op r s' := ∃ m, Relation.ReflTransGen others s m ∧ W.answer m op r s'

-- ---------------------------------------------------------------------------
-- One run after another
-- ---------------------------------------------------------------------------

/-- A run that was one of a sequence. -/
structure Turn (W : World Op Res) (κ α : Type) where
  item : κ
  before : W.State
  trace : List (Event W)
  result : α
  after : W.State

section
variable {κ : Type} {prog : κ → Prog Op Res α} {turns : List (Turn W κ α)}

variable (W prog) in
/-- The programs of a list of items, each started where the last one ended. -/
inductive Turns : W.State → List (Turn W κ α) → W.State → Prop
  | nil {s : W.State} : Turns s [] s
  | cons {k : κ} {s m s' : W.State} {tr : List (Event W)} {a : α} {rest : List (Turn W κ α)} :
      Exec W (prog k) s tr a m → Turns m rest s' → Turns s (⟨k, s, tr, a, m⟩ :: rest) s'

theorem turns_nil : Turns W prog s [] s' ↔ s' = s := by
  constructor
  · intro h
    cases h
    rfl
  · rintro rfl
    exact .nil

theorem turns_cons {t : Turn W κ α} :
    Turns W prog s (t :: turns) s' ↔
      t.before = s ∧ Exec W (prog t.item) s t.trace t.result t.after ∧ Turns W prog t.after turns s' := by
  constructor
  · intro h
    cases h with
    | cons hrun hrest => exact ⟨rfl, hrun, hrest⟩
  · rintro ⟨rfl, hrun, hrest⟩
    exact .cons hrun hrest

theorem Turns.exec (h : Turns W prog s turns s') :
    ∀ t ∈ turns, Exec W (prog t.item) t.before t.trace t.result t.after := by
  induction h with
  | nil => simp
  | cons hrun _ ih =>
    intro t ht
    rcases List.mem_cons.mp ht with rfl | ht
    · exact hrun
    · exact ih t ht

end

-- ---------------------------------------------------------------------------
-- Playing a run
-- ---------------------------------------------------------------------------

def Prog.play (strategy : W.State → (op : Op) → Res op × W.State) :
    Prog Op Res α → W.State → List (Event W) × α × W.State
  | .ret a, s => ([], a, s)
  | .call op next, s =>
    let rest := (next (strategy s op).1).play strategy (strategy s op).2
    (⟨s, op, (strategy s op).1⟩ :: rest.1, rest.2)

theorem exec_play (strategy : W.State → (op : Op) → Res op × W.State)
    (h : ∀ s op, W.answer s op (strategy s op).1 (strategy s op).2) (p : Prog Op Res α) (s : W.State) :
    Exec W p s (p.play strategy s).1 (p.play strategy s).2.1 (p.play strategy s).2.2 := by
  induction p generalizing s with
  | ret a => exact .ret
  | call op next ih => exact .call (h s op) (ih _ _)

/-- The world in which every answer is settled. -/
def World.settled {σ : Type} (strategy : σ → (op : Op) → Res op × σ) : World Op Res where
  State := σ
  answer s op r s' := strategy s op = (r, s')

theorem exec_settled {σ : Type} {strategy : σ → (op : Op) → Res op × σ} {p : Prog Op Res α} {s s' : σ}
    {tr : List (Event (World.settled strategy))} {a : α} :
    Exec (World.settled strategy) p s tr a s' ↔ p.play (W := World.settled strategy) strategy s = (tr, a, s') := by
  constructor
  · intro h
    induction p generalizing s tr with
    | ret b =>
      obtain ⟨rfl, rfl, rfl⟩ := exec_ret.mp h
      rfl
    | call op next ih =>
      obtain ⟨r, m, rest, hanswer, hrest, rfl⟩ := exec_call.mp h
      have hsettled : strategy s op = (r, m) := hanswer
      simp only [Prog.play, hsettled, ih _ hrest]
      rfl
  · intro h
    have hplay := exec_play (W := World.settled strategy) strategy (fun _ _ => rfl) p s
    rw [h] at hplay
    exact hplay

end BpfRbacd.Interaction
