import Mathlib.Logic.Function.Basic
import Mathlib.Data.List.Basic

/-!
# Writings that show where they end

A way of writing values is `Delimited` if a written value can be told from
whatever follows it. So delimited writings can be put one after the other, with
fixed text between them, and read back one by one.
-/

namespace BpfRbacd.Text

variable {α β γ : Type} {f : α → List γ} {stop : γ}

def Delimited (f : α → List γ) : Prop := ∀ a b x y, f a ++ x = f b ++ y → a = b ∧ x = y

theorem Delimited.comp {e : β → α} (h : Delimited f) (he : Function.Injective e) :
    Delimited fun b => f (e b) := by
  intro a b x y heq
  obtain ⟨hab, hxy⟩ := h _ _ _ _ heq
  exact ⟨he hab, hxy⟩

theorem Delimited.literal (text : List γ) (h : Delimited f) : Delimited fun a => text ++ f a := by
  intro a b x y heq
  rw [List.append_assoc, List.append_assoc] at heq
  exact h a b x y (List.append_cancel_left heq)

/-- An end mark that is nowhere in the text itself. -/
theorem delimited_until (hf : Function.Injective f) (hstop : ∀ a, stop ∉ f a) :
    Delimited fun a => f a ++ [stop] := by
  have hsplit : ∀ u v x y : List γ, stop ∉ u → stop ∉ v → u ++ stop :: x = v ++ stop :: y → u = v ∧ x = y := by
    intro u
    induction u with
    | nil =>
      intro v x y _ hv heq
      cases v with
      | nil => exact ⟨rfl, (List.cons.inj heq).2⟩
      | cons c v => exact absurd (List.cons.inj heq).1 (List.ne_of_not_mem_cons hv)
    | cons c u ih =>
      intro v x y hu hv heq
      cases v with
      | nil => exact absurd (List.cons.inj heq).1.symm (List.ne_of_not_mem_cons hu)
      | cons d v =>
        obtain ⟨rfl, hrest⟩ := List.cons.inj heq
        obtain ⟨rfl, hxy⟩ := ih v x y (List.not_mem_of_not_mem_cons hu) (List.not_mem_of_not_mem_cons hv) hrest
        exact ⟨rfl, hxy⟩
  intro a b x y heq
  rw [List.append_assoc, List.append_assoc] at heq
  obtain ⟨hab, hxy⟩ := hsplit _ _ x y (hstop a) (hstop b) heq
  exact ⟨hf hab, hxy⟩

/-- A list up to an end mark that no element begins with. -/
theorem Delimited.many (h : Delimited f) (hstart : ∀ a, ∃ c text, f a = c :: text ∧ c ≠ stop) :
    Delimited fun l : List α => l.flatMap f ++ [stop] := by
  intro l
  induction l with
  | nil =>
    intro l' x y heq
    cases l' with
    | nil => exact ⟨rfl, (List.cons.inj heq).2⟩
    | cons a l' =>
      obtain ⟨c, text, ha, hc⟩ := hstart a
      simp only [List.flatMap_cons, List.flatMap_nil, ha] at heq
      exact absurd (List.cons.inj heq).1.symm hc
  | cons a l ih =>
    intro l' x y heq
    cases l' with
    | nil =>
      obtain ⟨c, text, ha, hc⟩ := hstart a
      simp only [List.flatMap_cons, List.flatMap_nil, ha] at heq
      exact absurd (List.cons.inj heq).1 hc
    | cons b l' =>
      simp only [List.flatMap_cons, List.append_assoc] at heq
      obtain ⟨rfl, hrest⟩ := h a b _ _ heq
      obtain ⟨rfl, hxy⟩ := ih l' x y (by simpa using hrest)
      exact ⟨rfl, hxy⟩

end BpfRbacd.Text
