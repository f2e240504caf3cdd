import BpfRbacd.Lib.RelyGuarantee
import BpfRbacd.Lib.Service

/-!
# Two programs that keep logs

Where the effects of two programs write every answer into logs that are part of
the shared state, each log is a path through its program in every interleaving
(`Logs.reach`). So a log begins a run of the program on its own, and what is
proved of those holds of the log.
-/

namespace BpfRbacd.Interaction

open Relation

-- ---------------------------------------------------------------------------
-- Programs with at most one operation of a kind
-- ---------------------------------------------------------------------------

section
variable {Op : Type} {Res : Op → Type} {α β ε : Type} {P : Op → Prop}

/-- On no way to its end does the program issue two operations of `P`. -/
def Prog.AtMostOne (P : Op → Prop) : Prog Op Res α → Prop
  | .ret _ => True
  | .call op next => ∀ r, (next r).AtMostOne P ∧ (P op → (next r).Uses fun op => ¬ P op)

theorem Prog.Uses.atMostOne {p : Prog Op Res α} (hp : p.Uses fun op => ¬ P op) : p.AtMostOne P := by
  induction p with
  | ret => trivial
  | call op next ih =>
    obtain ⟨hop, hnext⟩ := hp
    exact fun r => ⟨ih r (hnext r), fun h => absurd h hop⟩

theorem atMostOne_perform {op : Op} : (perform op : Prog Op Res (Res op)).AtMostOne P :=
  fun _ => ⟨trivial, fun _ => trivial⟩

/-- The one operation comes in the first part. -/
theorem Prog.AtMostOne.bind {p : Prog Op Res α} {f : α → Prog Op Res β} (hp : p.AtMostOne P)
    (hf : ∀ a, (f a).Uses fun op => ¬ P op) : (p >>= f).AtMostOne P := by
  show (p.bind f).AtMostOne P
  induction p with
  | ret a => exact (hf a).atMostOne
  | call op next ih =>
    intro r
    obtain ⟨hnext, hnone⟩ := hp r
    exact ⟨ih r hnext, fun h => uses_bind (hnone h) hf⟩

/-- The one operation comes in the second part. -/
theorem atMostOne_bind {p : Prog Op Res α} {f : α → Prog Op Res β} (hp : p.Uses fun op => ¬ P op)
    (hf : ∀ a, (f a).AtMostOne P) : (p >>= f).AtMostOne P := by
  show (p.bind f).AtMostOne P
  induction p with
  | ret a => exact hf a
  | call op next ih =>
    obtain ⟨hop, hnext⟩ := hp
    exact fun r => ⟨ih r (hnext r), fun h => absurd h hop⟩

theorem Prog.AtMostOne.run_bind {x : Fallible Op Res ε α} {f : α → Fallible Op Res ε β}
    (hx : x.run.AtMostOne P) (hf : ∀ a, (f a).run.Uses fun op => ¬ P op) : (x >>= f).run.AtMostOne P := by
  refine hx.bind fun r => ?_
  cases r with
  | error => exact uses_pure
  | ok a => exact hf a

theorem atMostOne_run_bind {x : Fallible Op Res ε α} {f : α → Fallible Op Res ε β}
    (hx : x.run.Uses fun op => ¬ P op) (hf : ∀ a, (f a).run.AtMostOne P) : (x >>= f).run.AtMostOne P := by
  refine atMostOne_bind hx fun r => ?_
  cases r with
  | error => trivial
  | ok a => exact hf a

/-- None comes before the one there is. -/
theorem Prog.AtMostOne.first {W : World Op Res} {s s' : W.State} {before after : List (Event W)} {x : Event W}
    {p : Prog Op Res α} {a : α} (hp : p.AtMostOne P) (h : Exec W p s (before ++ x :: after) a s')
    (hx : P x.op) : ∀ e ∈ before, ¬ P e.op := by
  generalize htr : before ++ x :: after = tr at h
  induction h generalizing before with
  | ret => simp at htr
  | @call op next s r m tr a s' _ hrest ih =>
    obtain ⟨hnext, hnone⟩ := hp r
    cases before with
    | nil => simp
    | cons e before =>
      obtain ⟨rfl, rfl⟩ := List.cons.inj htr
      refine List.forall_mem_cons.mpr ⟨fun hop => ?_, ih hnext rfl⟩
      exact exec_uses (hnone hop) hrest x (by simp) hx

end

-- ---------------------------------------------------------------------------
-- Logs
-- ---------------------------------------------------------------------------

section
variable {OpL OpR σ α β : Type} {ResL : OpL → Type} {ResR : OpR → Type} (effectL : Effect σ OpL ResL)
  (effectR : Effect σ OpR ResR) (logL : σ → List (Reply OpL ResL)) (logR : σ → List (Reply OpR ResR))

/-- Each program writes its own log, and only that. -/
structure Logs : Prop where
  left : ∀ {s op r s'}, effectL s op r s' → logL s' = logL s ++ [reply op r] ∧ logR s' = logR s
  right : ∀ {s op r s'}, effectR s op r s' → logR s' = logR s ++ [reply op r] ∧ logL s' = logL s

variable {effectL effectR logL logR} {p : Prog OpL ResL α} {q : Prog OpR ResR β} {s : σ}
  {c c' : Config OpL ResL OpR ResR σ α β}

theorem Logs.step (hlogs : Logs effectL effectR logL logR) (hstep : Steps effectL effectR c c')
    (h : Path p (logL c.shared) c.left ∧ Path q (logR c.shared) c.right) :
    Path p (logL c'.shared) c'.left ∧ Path q (logR c'.shared) c'.right := by
  obtain ⟨hleft, hright⟩ := h
  cases hstep with
  | left hr =>
    obtain ⟨hl, hr⟩ := hlogs.left hr
    rw [hl, hr]
    exact ⟨hleft.snoc _, hright⟩
  | right hr =>
    obtain ⟨hr, hl⟩ := hlogs.right hr
    rw [hl, hr]
    exact ⟨hleft, hright.snoc _⟩

/-- In every interleaving that starts with empty logs. -/
theorem Logs.reach (hlogs : Logs effectL effectR logL logR) (hL : logL s = []) (hR : logR s = [])
    (hreach : ReflTransGen (Steps effectL effectR) ⟨p, q, s⟩ c) :
    Path p (logL c.shared) c.left ∧ Path q (logR c.shared) c.right := by
  induction hreach with
  | refl =>
    rw [hL, hR]
    exact ⟨.here, .here⟩
  | tail _ hstep ih => exact hlogs.step hstep ih

theorem steps_invariant {I : σ → Prop} (hleft : ∀ s op r s', effectL s op r s' → I s → I s')
    (hright : ∀ s op r s', effectR s op r s' → I s → I s')
    (hreach : ReflTransGen (Steps effectL effectR) ⟨p, q, s⟩ c) (hs : I s) : I c.shared := by
  induction hreach with
  | refl => exact hs
  | tail _ hstep ih =>
    cases hstep with
    | left hr => exact hleft _ _ _ _ hr ih
    | right hr => exact hright _ _ _ _ hr ih

end

-- ---------------------------------------------------------------------------
-- Schedules
-- ---------------------------------------------------------------------------

def Prog.result? {Op : Type} {Res : Op → Type} {α : Type} : Prog Op Res α → Option α
  | .ret a => some a
  | .call .. => none

theorem Prog.result?_eq_some {Op : Type} {Res : Op → Type} {α : Type} {p : Prog Op Res α} {a : α} :
    p.result? = some a ↔ p = .ret a := by
  cases p with
  | ret b =>
    constructor
    · rintro ⟨⟩
      rfl
    · rintro ⟨⟩
      rfl
  | call op next => exact ⟨nofun, nofun⟩

section
variable {OpL OpR σ α β : Type} {ResL : OpL → Type} {ResR : OpR → Type}
  (strategyL : σ → (op : OpL) → ResL op × σ) (strategyR : σ → (op : OpR) → ResR op × σ)

def Config.turn (c : Config OpL ResL OpR ResR σ α β) : Bool → Config OpL ResL OpR ResR σ α β
  | true =>
    match c.left with
    | .ret _ => c
    | .call op next => ⟨next (strategyL c.shared op).1, c.right, (strategyL c.shared op).2⟩
  | false =>
    match c.right with
    | .ret _ => c
    | .call op next => ⟨c.left, next (strategyR c.shared op).1, (strategyR c.shared op).2⟩

/-- The first program moves at `true`. -/
def Config.play (c : Config OpL ResL OpR ResR σ α β) (schedule : List Bool) :
    Config OpL ResL OpR ResR σ α β := schedule.foldl (Config.turn strategyL strategyR) c

variable {strategyL strategyR} {effectL : Effect σ OpL ResL} {effectR : Effect σ OpR ResR}

theorem play_reaches (hL : ∀ s op, effectL s op (strategyL s op).1 (strategyL s op).2)
    (hR : ∀ s op, effectR s op (strategyR s op).1 (strategyR s op).2) (c : Config OpL ResL OpR ResR σ α β)
    (schedule : List Bool) :
    ReflTransGen (Steps effectL effectR) c (c.play strategyL strategyR schedule) := by
  induction schedule generalizing c with
  | nil => exact .refl
  | cons b schedule ih =>
    have hturn : ReflTransGen (Steps effectL effectR) c (c.turn strategyL strategyR b) := by
      obtain ⟨p, q, s⟩ := c
      cases b with
      | true =>
        cases p with
        | ret => exact .refl
        | call op next => exact .single (.left (hL s op))
      | false =>
        cases q with
        | ret => exact .refl
        | call op next => exact .single (.right (hR s op))
    exact hturn.trans (ih _)

end

end BpfRbacd.Interaction
