import BpfRbacd.Lib.RelyGuarantee

/-!
# What a program can come to

That a program can end in a result is shown along its structure, without the
events of the run. Where the answers are fixed and change nothing, it can end
in its value (`ends_eval`).
-/

namespace BpfRbacd.Interaction

variable {Op : Type} {Res : Op → Type} {α β ε : Type} {W : World Op Res} {s m s' : W.State} {a : α} {b : β}

/-- There is a run with this result. -/
def Ends (W : World Op Res) (p : Prog Op Res α) (s : W.State) (a : α) (s' : W.State) : Prop :=
  ∃ tr, Exec W p s tr a s'

theorem Ends.pure : Ends W (Pure.pure a) s a s := ⟨[], .ret⟩

theorem Ends.perform {op : Op} (r : Res op) (h : W.answer s op r s') : Ends W (perform op) s r s' :=
  ⟨_, exec_perform.mpr ⟨h, rfl⟩⟩

theorem Ends.bind {p : Prog Op Res α} {f : α → Prog Op Res β} (hp : Ends W p s a m) (hf : Ends W (f a) m b s') :
    Ends W (p >>= f) s b s' := by
  obtain ⟨t₁, h₁⟩ := hp
  obtain ⟨t₂, h₂⟩ := hf
  exact ⟨_, exec_bind.mpr ⟨a, m, t₁, t₂, h₁, h₂, rfl⟩⟩

theorem Ends.run_bind {x : Fallible Op Res ε α} {f : α → Fallible Op Res ε β} {r : Except ε β}
    (hx : Ends W x.run s (.ok a) m) (hf : Ends W (f a).run m r s') : Ends W (x >>= f).run s r s' := by
  obtain ⟨t₁, h₁⟩ := hx
  obtain ⟨t₂, h₂⟩ := hf
  exact ⟨_, exec_run_bind.mpr (.inr ⟨a, m, t₁, t₂, h₁, h₂, rfl⟩)⟩

theorem Ends.lift {p : Prog Op Res α} (h : Ends W p s a s') :
    Ends W (ExceptT.lift p : Fallible Op Res ε α).run s (.ok a) s' := by
  obtain ⟨tr, h⟩ := h
  exact ⟨tr, exec_run_lift.mpr ⟨a, h, rfl⟩⟩

/-- Where a world may give these answers and stay as it is. -/
theorem ends_eval {P : Op → Prop} {host : (op : Op) → Res op}
    (hstay : ∀ op, P op → W.answer s op (host op) s) {p : Prog Op Res α} (hp : p.Uses P) :
    Ends W p s (p.eval host) s := by
  induction p with
  | ret a => exact .pure
  | call op next ih =>
    obtain ⟨hop, hnext⟩ := hp
    obtain ⟨tr, hrest⟩ := ih (host op) (hnext _)
    exact ⟨_, .call (hstay op hop) hrest⟩

/-- A sequence of runs goes on with one more. -/
theorem Turns.snoc {κ : Type} {prog : κ → Prog Op Res α} {turns : List (Turn W κ α)} {k : κ}
    (h : Turns W prog s turns m) (hend : Ends W (prog k) m a s') :
    ∃ t : Turn W κ α, t.item = k ∧ t.result = a ∧ Turns W prog s (turns ++ [t]) s' := by
  obtain ⟨tr, hend⟩ := hend
  refine ⟨⟨k, m, tr, a, s'⟩, rfl, rfl, ?_⟩
  induction h with
  | nil => exact .cons hend .nil
  | cons hrun _ ih => exact .cons hrun (ih hend)

end BpfRbacd.Interaction
