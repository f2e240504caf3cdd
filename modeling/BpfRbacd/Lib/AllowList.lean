import Mathlib.Data.Set.Lattice

/-!
# Allow-lists with a wildcard, under a ceiling

A list of names grants the names in it, or every name when the wildcard is
among them. An optional ceiling caps a set of permissions (`under`). Names may
carry numbers, several names one number; `numbers` is what a list grants when
only the numbers are kept. A permission that survives the ceiling keeps its
number there (`numbers_of_granted`); the converse needs one name on both sides.
-/

namespace BpfRbacd.AllowList

variable {α ι : Type}

def granted (wild : α) (names : List α) : Set α := {a | wild ∈ names ∨ a ∈ names}

def numbers (number : α → ι → Prop) (wild : α) (names : List α) : Set ι :=
  {i | wild ∈ names ∨ ∃ a ∈ names, number a i}

def under (ceiling : Option (Set α)) (own : Set α) : Set α := own ∩ ceiling.getD Set.univ

theorem mem_under {ceiling : Option (Set α)} {own : Set α} {a : α} :
    a ∈ under ceiling own ↔ a ∈ own ∧ ∀ c ∈ ceiling, a ∈ c := by
  cases ceiling <;> simp [under]

@[simp] theorem under_none (own : Set α) : under none own = own := by simp [under]

@[simp] theorem under_some (c own : Set α) : under (some c) own = own ∩ c := by simp [under]

theorem numbers_wild {number : α → ι → Prop} {wild : α} {names : List α} (h : wild ∈ names) :
    numbers number wild names = Set.univ := by
  ext i; simp [numbers, h]

theorem mem_numbers_of_not_wild {number : α → ι → Prop} {wild : α} {names : List α} {i : ι}
    (h : wild ∉ names) : i ∈ numbers number wild names ↔ ∃ a ∈ names, number a i := by
  simp [numbers, h]

theorem numbers_of_granted {number : α → ι → Prop} {wild a : α} {names : List α} {i : ι}
    (ha : a ∈ granted wild names) (hi : number a i) : i ∈ numbers number wild names :=
  ha.imp id fun hm => ⟨a, hm, hi⟩

/-- Dropping names keeps what both a list and its ceiling grant. -/
theorem under_numbers_of_granted {number : α → ι → Prop} {wild a : α} {own : List α}
    {ceiling : Option (List α)} {i : ι}
    (ha : a ∈ under (ceiling.map (granted wild)) (granted wild own)) (hi : number a i) :
    i ∈ under (ceiling.map (numbers number wild)) (numbers number wild own) := by
  obtain ⟨hown, hceil⟩ := mem_under.mp ha
  refine mem_under.mpr ⟨numbers_of_granted hown hi, ?_⟩
  rintro c hc
  obtain ⟨names, hn, rfl⟩ := Option.mem_map.mp hc
  exact numbers_of_granted (hceil _ (Option.mem_map.mpr ⟨names, hn, rfl⟩)) hi

end BpfRbacd.AllowList
