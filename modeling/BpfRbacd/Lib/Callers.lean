import BpfRbacd.Lib.Service

/-!
# Many callers

Programs run side by side in a world that knows them by number. One may begin
at any time, and they take turns in any order, one operation at a time.

Part of the world may be a caller's own: only its own operations change it
(`View`). On that part its history is the beginning of a run of its program
alone, whatever the others do (`Callers.reach_seen`).
-/

namespace BpfRbacd.Interaction

open Relation

variable {Op : Type} {Res : Op → Type} {κ α : Type}

-- ---------------------------------------------------------------------------
-- The beginning of a run
-- ---------------------------------------------------------------------------

/-- A run up to some point, with the program that is left. -/
inductive Runs (W : World Op Res) : Prog Op Res α → W.State → List (Event W) → Prog Op Res α → W.State → Prop
  | here {p s} : Runs W p s [] p s
  | call {op next s r m tr q s'} :
      W.answer s op r m → Runs W (next r) m tr q s' → Runs W (.call op next) s (⟨s, op, r⟩ :: tr) q s'

section
variable {W : World Op Res} {p q : Prog Op Res α} {s m s' : W.State} {tr rest : List (Event W)}

theorem Runs.snoc {op : Op} {next : Res op → Prog Op Res α} {r : Res op}
    (h : Runs W p s tr (.call op next) m) (hanswer : W.answer m op r s') :
    Runs W p s (tr ++ [⟨m, op, r⟩]) (next r) s' := by
  generalize hq : Prog.call op next = q at h
  induction h with
  | here => subst hq; exact .call hanswer .here
  | call hfirst _ ih => exact .call hfirst (ih hanswer hq)

theorem Runs.exec {a : α} (h : Runs W p s tr q m) (hrest : Exec W q m rest a s') :
    Exec W p s (tr ++ rest) a s' := by
  induction h with
  | here => exact hrest
  | call hanswer _ ih => exact .call hanswer (ih hrest)

theorem Runs.returned {a : α} (h : Runs W p s tr (.ret a) s') : Exec W p s tr a s' := by
  simpa using h.exec .ret

/-- Where every operation has an answer, the rest of the run exists. -/
theorem Runs.completes (htotal : ∀ s op, ∃ r s', W.answer s op r s') (h : Runs W p s tr q m) :
    ∃ rest a s', Exec W p s (tr ++ rest) a s' := by
  have hrest : ∀ (q : Prog Op Res α) (m : W.State), ∃ rest a s', Exec W q m rest a s' := by
    intro q
    induction q with
    | ret a => exact fun m => ⟨[], a, m, .ret⟩
    | call op next ih =>
      intro m
      obtain ⟨r, m', hanswer⟩ := htotal m op
      obtain ⟨rest, a, s', hexec⟩ := ih r m'
      exact ⟨_, a, s', .call hanswer hexec⟩
  obtain ⟨rest, a, s', hexec⟩ := hrest q m
  exact ⟨rest, a, s', h.exec hexec⟩

end

-- ---------------------------------------------------------------------------
-- Callers
-- ---------------------------------------------------------------------------

/-- A world that knows who calls. -/
structure Shared (Op : Type) (Res : Op → Type) where
  State : Type
  answer : State → Nat → (op : Op) → Res op → State → Prop

structure Caller (Op : Type) (Res : Op → Type) (κ α : Type) where
  item : κ
  history : List (Reply Op Res)
  rest : Prog Op Res α

/-- A caller's number is its place in the list. -/
structure Callers (W : Shared Op Res) (κ α : Type) where
  world : W.State
  callers : List (Caller Op Res κ α)

section
variable (W : Shared Op Res) (prog : κ → Prog Op Res α)

inductive Callers.Step : Callers W κ α → Callers W κ α → Prop
  | begin {s callers} (k : κ) : Step ⟨s, callers⟩ ⟨s, callers ++ [⟨k, [], prog k⟩]⟩
  | call {s s' callers i k history op next r} :
      callers[i]? = some ⟨k, history, .call op next⟩ → W.answer s i op r s' →
      Step ⟨s, callers⟩ ⟨s', callers.set i ⟨k, history ++ [reply op r], next r⟩⟩

def Callers.Reaches (s : W.State) (c : Callers W κ α) : Prop := ReflTransGen (Callers.Step W prog) ⟨s, []⟩ c

end

theorem getElem?_concat {β : Type} {l : List β} {a b : β} {i : Nat} :
    (l ++ [b])[i]? = some a ↔ l[i]? = some a ∨ (i = l.length ∧ b = a) := by
  rcases Nat.lt_trichotomy i l.length with hlt | rfl | hgt
  · rw [List.getElem?_append_left hlt]
    simp [Nat.ne_of_lt hlt]
  · simp
  · rw [List.getElem?_eq_none (by simp; omega), List.getElem?_eq_none (Nat.le_of_lt hgt)]
    simp [Nat.ne_of_gt hgt]

section
variable {W : Shared Op Res} {prog : κ → Prog Op Res α} {c c' : Callers W κ α}

/-- Who has returned takes no more turns. -/
theorem Callers.returned_stays {i : Nat} {k : κ} {history : List (Reply Op Res)} {a : α}
    (hreach : ReflTransGen (Callers.Step W prog) c c') (h : c.callers[i]? = some ⟨k, history, .ret a⟩) :
    c'.callers[i]? = some ⟨k, history, .ret a⟩ := by
  induction hreach with
  | refl => exact h
  | tail _ hlast ih =>
    cases hlast with
    | begin => exact getElem?_concat.mpr (.inl ih)
    | @call _ _ _ j _ _ _ _ _ hcaller =>
      have hne : j ≠ i := by
        rintro rfl
        cases hcaller.symm.trans ih
      exact (List.getElem?_set_ne hne).trans ih

end

-- ---------------------------------------------------------------------------
-- A caller's own part of the world
-- ---------------------------------------------------------------------------

/-- What of the world belongs to each caller. -/
structure View (W : Shared Op Res) (V : World Op Res) where
  see : W.State → Nat → V.State
  own : ∀ {s i op r s'}, W.answer s i op r s' → V.answer (see s i) op r (see s' i)
  others : ∀ {s i op r s'}, W.answer s i op r s' → ∀ j, j ≠ i → see s' j = see s j

section
variable {W : Shared Op Res} {V : World Op Res} {prog : κ → Prog Op Res α} {start : W.State}
  {c c' : Callers W κ α}

variable (prog) in
/-- The caller's history is the beginning of a run on its own part. -/
def View.Seen (v : View W V) (start : W.State) (i : Nat) (t : Caller Op Res κ α) (s : W.State) : Prop :=
  ∃ tr, tr.map Event.reply = t.history ∧ Runs V (prog t.item) (v.see start i) tr t.rest (v.see s i)

variable (prog) in
/-- So it is for all callers, and who has not begun has its part as at the start. -/
structure View.AllSeen (v : View W V) (start : W.State) (c : Callers W κ α) : Prop where
  begun : ∀ i t, c.callers[i]? = some t → v.Seen prog start i t c.world
  waiting : ∀ i, c.callers.length ≤ i → v.see c.world i = v.see start i

theorem View.AllSeen.step {v : View W V} (hstep : Callers.Step W prog c c') (h : v.AllSeen prog start c) :
    v.AllSeen prog start c' := by
  cases hstep with
  | begin k =>
    constructor
    · intro i t ht
      rcases getElem?_concat.mp ht with hbefore | ⟨rfl, rfl⟩
      · exact h.begun i t hbefore
      · refine ⟨[], rfl, ?_⟩
        rw [h.waiting _ (Nat.le_refl _)]
        exact .here
    · intro i hi
      exact h.waiting i (Nat.le_of_succ_le (by simpa using hi))
  | @call s s' callers i k history op next r hcaller hanswer =>
    have hlt : i < callers.length := (List.getElem?_eq_some_iff.mp hcaller).1
    constructor
    · intro j t ht
      by_cases hj : j = i
      · subst hj
        rw [List.getElem?_set_self hlt] at ht
        cases ht
        obtain ⟨tr, htr, hruns⟩ := h.begun j _ hcaller
        refine ⟨_, ?_, hruns.snoc (v.own hanswer)⟩
        rw [List.map_append, htr]
        rfl
      · rw [List.getElem?_set_ne (Ne.symm hj)] at ht
        obtain ⟨tr, htr, hruns⟩ := h.begun j t ht
        refine ⟨tr, htr, ?_⟩
        rw [v.others hanswer j hj]
        exact hruns
    · intro j hj
      rw [List.length_set] at hj
      exact (v.others hanswer j (Nat.ne_of_gt (Nat.lt_of_lt_of_le hlt hj))).trans (h.waiting j hj)

theorem Callers.reach_seen (v : View W V) (hreach : Callers.Reaches W prog start c) : v.AllSeen prog start c := by
  induction hreach with
  | refl => exact ⟨by simp, fun _ _ => rfl⟩
  | tail _ hlast ih => exact ih.step hlast

end

-- ---------------------------------------------------------------------------
-- Following a schedule
-- ---------------------------------------------------------------------------

/-- Someone begins, or a caller has its turn. -/
inductive Move (κ : Type) where
  | begin (k : κ)
  | turn (i : Nat)

section
variable {W : Shared Op Res} {prog : κ → Prog Op Res α}

variable (prog) in
def Callers.move (strategy : W.State → Nat → (op : Op) → Res op × W.State) (c : Callers W κ α) :
    Move κ → Callers W κ α
  | .begin k => ⟨c.world, c.callers ++ [⟨k, [], prog k⟩]⟩
  | .turn i =>
    match c.callers[i]? with
    | some ⟨k, history, .call op next⟩ =>
      ⟨(strategy c.world i op).2, c.callers.set i
        ⟨k, history ++ [reply op (strategy c.world i op).1], next (strategy c.world i op).1⟩⟩
    | _ => c

theorem Callers.moves_reach {strategy : W.State → Nat → (op : Op) → Res op × W.State}
    (hstrategy : ∀ s i op, W.answer s i op (strategy s i op).1 (strategy s i op).2) (c : Callers W κ α)
    (moves : List (Move κ)) :
    ReflTransGen (Callers.Step W prog) c (moves.foldl (Callers.move prog strategy) c) := by
  induction moves generalizing c with
  | nil => exact .refl
  | cons move moves ih =>
    refine ReflTransGen.trans ?_ (ih _)
    cases move with
    | begin k => exact .single (.begin k)
    | turn i =>
      simp only [Callers.move]
      split
      · next hcaller => exact .single (.call hcaller (hstrategy _ _ _))
      · exact .refl

end

end BpfRbacd.Interaction
