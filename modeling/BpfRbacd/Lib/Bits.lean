import Mathlib.Data.Set.Lattice

/-!
# Machine words as sets of bit positions

`bits` reads a word of any width as the set of its set positions. Bitwise
`and` and `or` are intersection and union, the all-ones word is everything, and
two words with the same set are the same word. A mask test reads one position,
and a loop that ors into an accumulator denotes a union (`foldl_union`), so
facts about words built by such loops reduce to facts about sets.
-/

namespace BpfRbacd.Bits

variable {w : Nat} {α σ ι : Type}

def bits (b : BitVec w) : Set (Fin w) := {i | b.getLsbD i = true}

@[simp] theorem mem_bits {b : BitVec w} {i : Fin w} : i ∈ bits b ↔ b.getLsbD i = true := Iff.rfl

instance (b : BitVec w) (i : Fin w) : Decidable (i ∈ bits b) :=
  inferInstanceAs (Decidable (b.getLsbD i = true))

theorem bits_injective : Function.Injective (@bits w) := by
  intro a b h
  apply BitVec.eq_of_getLsbD_eq
  intro i hi
  have hm : (⟨i, hi⟩ : Fin w) ∈ bits a ↔ (⟨i, hi⟩ : Fin w) ∈ bits b := by rw [h]
  exact Bool.eq_iff_iff.mpr hm

theorem bits_inj {a b : BitVec w} : bits a = bits b ↔ a = b := bits_injective.eq_iff

@[simp] theorem bits_and (a b : BitVec w) : bits (a &&& b) = bits a ∩ bits b := by
  ext i; simp

@[simp] theorem bits_or (a b : BitVec w) : bits (a ||| b) = bits a ∪ bits b := by
  ext i; simp

@[simp] theorem bits_not (a : BitVec w) : bits (~~~a) = (bits a)ᶜ := by
  ext i; simp

@[simp] theorem bits_zero : bits (0#w) = ∅ := by
  ext i; simp

@[simp] theorem bits_allOnes : bits (BitVec.allOnes w) = Set.univ := by
  ext i; simp

theorem mem_bits_one_shiftLeft {n : Nat} {i : Fin w} : i ∈ bits (1#w <<< n) ↔ i.val = n := by
  simp only [mem_bits, ← BitVec.twoPow_eq, BitVec.getLsbD_twoPow, Bool.and_eq_true,
    decide_eq_true_eq]
  constructor
  · rintro ⟨-, rfl⟩; rfl
  · rintro rfl; exact ⟨i.isLt, rfl⟩

theorem eq_zero_iff {b : BitVec w} : b = 0#w ↔ bits b = ∅ := by
  rw [← bits_inj, bits_zero]

theorem and_mask_ne_zero {b : BitVec w} (i : Fin w) : b &&& (1#w <<< i.val) ≠ 0#w ↔ i ∈ bits b := by
  rw [Ne, eq_zero_iff, ← Ne, ← Set.nonempty_iff_ne_empty, bits_and]
  constructor
  · rintro ⟨j, hj, hm⟩
    have hji : j = i := Fin.ext (mem_bits_one_shiftLeft.mp hm)
    exact hji ▸ hj
  · intro h
    exact ⟨i, h, mem_bits_one_shiftLeft.mpr rfl⟩

/-- A loop whose body adds a set to what its state denotes denotes, at the end,
the union over the elements it went through. -/
theorem foldl_union {view : σ → Set ι} {step : σ → α → σ} {adds : α → Set ι}
    (hstep : ∀ s a, view (step s a) = view s ∪ adds a) (l : List α) (s : σ) :
    view (l.foldl step s) = view s ∪ {i | ∃ a ∈ l, i ∈ adds a} := by
  induction l generalizing s with
  | nil => simp
  | cons a l ih =>
    rw [List.foldl_cons, ih, hstep, Set.union_assoc]
    congr 1
    ext i
    simp

end BpfRbacd.Bits
