import BpfRbacd.Lib.Interaction

/-!
# Two programs on one state

Two programs take turns in any order, one operation at a time, on a state they
share. An operation without an answer waits until the other program has given
it one.

`Prog.Meets` is what a program does among the moves of the other: its steps
stay within its guarantee, it waits only where its contract says so, and its
result satisfies a post-condition. Programs whose contracts fit together keep
them in every interleaving (`Sound.reach`), and together they come to a stop
only where both waiting is what the contracts allow (`Sound.progress`).
-/

namespace BpfRbacd.Interaction

open Relation

/-- What an operation can do to a shared state. -/
abbrev Effect (σ Op : Type) (Res : Op → Type) := σ → (op : Op) → Res op → σ → Prop

structure Contract (σ : Type) where
  rely : σ → σ → Prop
  guarantee : σ → σ → Prop
  waits : σ → Prop
  rely_refl : ∀ s, rely s s
  rely_trans : ∀ {s₁ s₂ s₃}, rely s₁ s₂ → rely s₂ s₃ → rely s₁ s₃

section
variable {Op : Type} {Res : Op → Type} {α β σ : Type} (effect : Effect σ Op Res) (C : Contract σ)

/-- From the state on, and whatever the other program does in between. -/
def Prog.Meets (post : α → σ → Prop) : Prog Op Res α → σ → Prop
  | .ret a, s => ∀ m, C.rely s m → post a m
  | .call op next, s => ∀ m, C.rely s m →
    ((∃ r s', effect m op r s') ∨ C.waits m) ∧
      ∀ r s', effect m op r s' → C.guarantee m s' ∧ (next r).Meets post s'

variable {effect C} {s m : σ} {post : α → σ → Prop}

theorem Prog.Meets.rely {p : Prog Op Res α} (h : p.Meets effect C post s) (hm : C.rely s m) :
    p.Meets effect C post m := by
  cases p with
  | ret a => exact fun n hn => h n (C.rely_trans hm hn)
  | call op next => exact fun n hn => h n (C.rely_trans hm hn)

theorem Prog.Meets.mono {p : Prog Op Res α} {post' : α → σ → Prop} (h : p.Meets effect C post s)
    (hpost : ∀ a m, post a m → post' a m) : p.Meets effect C post' s := by
  induction p generalizing s with
  | ret a => exact fun m hm => hpost a m (h m hm)
  | call op next ih =>
    intro m hm
    obtain ⟨hwaits, hstep⟩ := h m hm
    exact ⟨hwaits, fun r s' hr => ⟨(hstep r s' hr).1, ih r (hstep r s' hr).2⟩⟩

theorem meets_pure {a : α} (h : ∀ m, C.rely s m → post a m) :
    (pure a : Prog Op Res α).Meets effect C post s := h

theorem meets_perform {op : Op} {post : Res op → σ → Prop}
    (h : ∀ m, C.rely s m → ((∃ r s', effect m op r s') ∨ C.waits m) ∧
      ∀ r s', effect m op r s' → C.guarantee m s' ∧ ∀ n, C.rely s' n → post r n) :
    (perform op : Prog Op Res (Res op)).Meets effect C post s := h

theorem meets_bind {p : Prog Op Res β} {f : β → Prog Op Res α}
    (h : p.Meets effect C (fun b m => (f b).Meets effect C post m) s) :
    (p >>= f).Meets effect C post s := by
  show (p.bind f).Meets effect C post s
  induction p generalizing s with
  | ret b => exact h s (C.rely_refl s)
  | call op next ih =>
    intro m hm
    obtain ⟨hwaits, hstep⟩ := h m hm
    refine ⟨hwaits, fun r s' hr => ?_⟩
    obtain ⟨hguarantee, hnext⟩ := hstep r s' hr
    exact ⟨hguarantee, ih r hnext⟩

/-- The first part of code with the `?` operator may end it. -/
theorem meets_run_bind {ε : Type} {x : Fallible Op Res ε β} {f : β → Fallible Op Res ε α}
    {post : Except ε α → σ → Prop}
    (h : x.run.Meets effect C (fun r m =>
      match r with
      | .ok b => (f b).run.Meets effect C post m
      | .error e => ∀ n, C.rely m n → post (.error e) n) s) :
    (x >>= f).run.Meets effect C post s := by
  refine meets_bind (h.mono fun r m hr => ?_)
  cases r with
  | ok b => exact hr
  | error e => exact hr

/-- An operation with one answer and no effect. -/
theorem meets_settled {op : Op} {r : Res op} {f : Res op → Prog Op Res α}
    (heffect : ∀ s q s', effect s op q s' ↔ q = r ∧ s' = s) (hstay : ∀ s, C.guarantee s s)
    (hnext : ∀ m, C.rely s m → (f r).Meets effect C post m) :
    (perform op >>= f).Meets effect C post s := by
  intro m hm
  refine ⟨.inl ⟨r, m, (heffect m r m).mpr ⟨rfl, rfl⟩⟩, fun q s' hq => ?_⟩
  obtain ⟨rfl, rfl⟩ := (heffect m q s').mp hq
  exact ⟨hstay s', hnext s' hm⟩

/-- What a program returns when the host answers. -/
def Prog.eval (host : (op : Op) → Res op) : Prog Op Res α → α
  | .ret a => a
  | .call op next => (next (host op)).eval host

theorem meets_host {P : Op → Prop} {host : (op : Op) → Res op} {p : Prog Op Res α} (hp : p.Uses P)
    (heffect : ∀ op, P op → ∀ s r s', effect s op r s' ↔ r = host op ∧ s' = s)
    (hstay : ∀ s, C.guarantee s s) (hpost : ∀ m, C.rely s m → post (p.eval host) m) :
    p.Meets effect C post s := by
  induction p generalizing s with
  | ret a => exact hpost
  | call op next ih =>
    obtain ⟨hop, hnext⟩ := hp
    refine meets_settled (f := next) (heffect op hop) hstay fun m hm => ?_
    exact ih _ (hnext _) fun n hn => hpost n (C.rely_trans hm hn)

end

-- ---------------------------------------------------------------------------
-- Interleavings
-- ---------------------------------------------------------------------------

structure Config (OpL : Type) (ResL : OpL → Type) (OpR : Type) (ResR : OpR → Type) (σ α β : Type) where
  left : Prog OpL ResL α
  right : Prog OpR ResR β
  shared : σ

section
variable {OpL OpR σ α β : Type} {ResL : OpL → Type} {ResR : OpR → Type} (effectL : Effect σ OpL ResL)
  (effectR : Effect σ OpR ResR)

inductive Steps : Config OpL ResL OpR ResR σ α β → Config OpL ResL OpR ResR σ α β → Prop
  | left {op next q s r s'} : effectL s op r s' → Steps ⟨.call op next, q, s⟩ ⟨next r, q, s'⟩
  | right {op next p s r s'} : effectR s op r s' → Steps ⟨p, .call op next, s⟩ ⟨p, next r, s'⟩

/-- No interleaving goes on for ever: each step leaves a smaller program. -/
theorem steps_acc (c : Config OpL ResL OpR ResR σ α β) :
    Acc (fun c' c => Steps effectL effectR c c') c := by
  obtain ⟨p, q, s⟩ := c
  induction p generalizing q s with
  | ret a =>
    induction q generalizing s with
    | ret b => exact ⟨_, fun c' h => nomatch h⟩
    | call op next ih =>
      refine ⟨_, fun c' h => ?_⟩
      cases h with
      | right => exact ih _ _
  | call opL nextL ihL =>
    induction q generalizing s with
    | ret b =>
      refine ⟨_, fun c' h => ?_⟩
      cases h with
      | left => exact ihL _ _ _
    | call op next ih =>
      refine ⟨_, fun c' h => ?_⟩
      cases h with
      | left => exact ihL _ _ _
      | right => exact ih _ _

variable {effectL effectR} {C D : Contract σ} {postL : α → σ → Prop} {postR : β → σ → Prop}
  {c c' : Config OpL ResL OpR ResR σ α β}

variable (effectL effectR C D postL postR) in
structure Sound (c : Config OpL ResL OpR ResR σ α β) : Prop where
  left : c.left.Meets effectL C postL c.shared
  right : c.right.Meets effectR D postR c.shared

theorem Sound.step (hCD : ∀ s s', C.guarantee s s' → D.rely s s')
    (hDC : ∀ s s', D.guarantee s s' → C.rely s s') (hstep : Steps effectL effectR c c')
    (hc : Sound effectL effectR C D postL postR c) : Sound effectL effectR C D postL postR c' := by
  obtain ⟨hleft, hright⟩ := hc
  cases hstep with
  | left hr =>
    obtain ⟨hguarantee, hnext⟩ := (hleft _ (C.rely_refl _)).2 _ _ hr
    exact ⟨hnext, hright.rely (hCD _ _ hguarantee)⟩
  | right hr =>
    obtain ⟨hguarantee, hnext⟩ := (hright _ (D.rely_refl _)).2 _ _ hr
    exact ⟨hleft.rely (hDC _ _ hguarantee), hnext⟩

/-- Contracts that fit together are kept in every interleaving. -/
theorem Sound.reach (hCD : ∀ s s', C.guarantee s s' → D.rely s s')
    (hDC : ∀ s s', D.guarantee s s' → C.rely s s')
    (hreach : ReflTransGen (Steps effectL effectR) c c')
    (hc : Sound effectL effectR C D postL postR c) : Sound effectL effectR C D postL postR c' := by
  induction hreach with
  | refl => exact hc
  | tail _ hstep ih => exact ih.step hCD hDC hstep

theorem Sound.returned {a : α} (hc : Sound effectL effectR C D postL postR c) (ha : c.left = .ret a) :
    postL a c.shared := by
  have hleft := hc.left
  rw [ha] at hleft
  exact hleft _ (C.rely_refl _)

/-- Where no step is possible each program has returned or waits. -/
theorem Sound.progress (hc : Sound effectL effectR C D postL postR c) :
    (∃ c', Steps effectL effectR c c') ∨
      ((∃ a, c.left = .ret a) ∨ C.waits c.shared) ∧
        ((∃ b, postR b c.shared) ∨ D.waits c.shared) := by
  obtain ⟨hleft, hright⟩ := hc
  obtain ⟨p, q, s⟩ := c
  have hl : (∃ c', Steps effectL effectR ⟨p, q, s⟩ c') ∨ (∃ a, p = .ret a) ∨ C.waits s := by
    cases p with
    | ret a => exact .inr (.inl ⟨a, rfl⟩)
    | call op next =>
      rcases (hleft s (C.rely_refl s)).1 with ⟨r, s', hr⟩ | hwaits
      · exact .inl ⟨_, .left hr⟩
      · exact .inr (.inr hwaits)
  have hr : (∃ c', Steps effectL effectR ⟨p, q, s⟩ c') ∨ (∃ b, postR b s) ∨ D.waits s := by
    cases q with
    | ret b => exact .inr (.inl ⟨b, hright s (D.rely_refl s)⟩)
    | call op next =>
      rcases (hright s (D.rely_refl s)).1 with ⟨r, s', hr⟩ | hwaits
      · exact .inl ⟨_, .right hr⟩
      · exact .inr (.inr hwaits)
  rcases hl with hstep | hl
  · exact .inl hstep
  rcases hr with hstep | hr
  · exact .inl hstep
  exact .inr ⟨hl, hr⟩

/-- If it is never stuck before, the first program can return. -/
theorem exists_returned
    (h : ∀ c', ReflTransGen (Steps effectL effectR) c c' →
      (∃ c'', Steps effectL effectR c' c'') ∨ ∃ a, c'.left = .ret a) :
    ∃ c', ReflTransGen (Steps effectL effectR) c c' ∧ ∃ a, c'.left = .ret a := by
  induction steps_acc effectL effectR c with
  | intro c _ ih =>
    rcases h c .refl with ⟨m, hstep⟩ | hret
    · obtain ⟨c', hreach, hret⟩ := ih m hstep fun c' hreach => h c' (.head hstep hreach)
      exact ⟨c', .head hstep hreach, hret⟩
    · exact ⟨c, .refl, hret⟩

end

end BpfRbacd.Interaction
