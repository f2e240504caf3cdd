import Mathlib.Algebra.Ring.Nat

/-!
# Lines and words

A list cut into words at separators, which come in runs, and a text cut into
lines. Cutting at a separator splits the words in two.
-/

namespace BpfRbacd.Text

variable {α : Type}

def words [DecidableEq α] (sep : α → Bool) (l : List α) : List (List α) :=
  (l.splitOnP sep).filter (· ≠ [])

def IsWord (sep : α → Bool) (l : List α) : Prop := l ≠ [] ∧ ∀ a ∈ l, sep a = false

variable {sep : α → Bool}

/-- No piece of a split holds a separator. -/
theorem not_sep_of_mem_splitOnP {l piece : List α} (h : piece ∈ l.splitOnP sep) :
    ∀ a ∈ piece, sep a = false := by
  induction l generalizing piece with
  | nil =>
    rw [List.splitOnP_nil, List.mem_singleton] at h
    subst h
    exact fun a ha => absurd ha List.not_mem_nil
  | cons a l ih =>
    rw [List.splitOnP_cons_eq_if_modifyHead] at h
    split at h
    · rcases List.mem_cons.mp h with rfl | h
      · exact fun x hx => absurd hx List.not_mem_nil
      · exact ih h
    · rename_i ha
      obtain ⟨first, others, hsplit⟩ := List.exists_cons_of_ne_nil (List.splitOnP_ne_nil sep l)
      rw [hsplit] at h ih
      rcases List.mem_cons.mp h with rfl | h
      · intro x hx
        rcases List.mem_cons.mp hx with rfl | hx
        · exact Bool.eq_false_iff.mpr ha
        · exact ih List.mem_cons_self x hx
      · exact ih (List.mem_cons_of_mem _ h)

section
variable [DecidableEq α]

@[simp] theorem words_nil : words sep [] = [] := rfl

theorem words_append_cons {a : α} (ha : sep a = true) (s t : List α) :
    words sep (s ++ a :: t) = words sep s ++ words sep t := by
  rw [words, List.splitOnP_append_cons s t ha, List.filter_append]
  rfl

theorem IsWord.words {l : List α} (h : IsWord sep l) : words sep l = [l] := by
  rw [Text.words, List.splitOnP_eq_singleton h.2]
  exact List.filter_eq_self.mpr fun a ha => by
    rw [List.mem_singleton.mp ha]
    exact decide_eq_true h.1

theorem isWord_of_mem {l w : List α} (h : w ∈ words sep l) : IsWord sep w := by
  obtain ⟨hpiece, hne⟩ := List.mem_filter.mp h
  exact ⟨of_decide_eq_true hne, not_sep_of_mem_splitOnP hpiece⟩

end

-- ---------------------------------------------------------------------------
-- Lines
-- ---------------------------------------------------------------------------

/-- A carriage return before the line feed belongs to the end of the line. -/
def stripReturn (line : List Char) : List Char :=
  if line.getLast? = some '\r' then line.dropLast else line

/-- What follows the last line feed is a line only if there is something. -/
def lines (text : List Char) : List (List Char) :=
  let pieces := text.splitOn '\n'
  pieces.dropLast.map stripReturn ++ (pieces.getLast?.filter (· ≠ [])).toList

theorem lines_append_cons {line : List Char} (h : '\n' ∉ line) (text : List Char) :
    lines (line ++ '\n' :: text) = stripReturn line :: lines text := by
  have hne := List.splitOn_ne_nil '\n' text
  unfold lines
  rw [List.splitOn_append_cons_self_of_not_mem h]
  simp only [List.dropLast_cons_of_ne_nil hne, List.map_cons, List.cons_append,
    List.getLast?_cons_of_ne_nil hne]

/-- Where a carriage return separates words, stripping it changes none. -/
theorem words_stripReturn {sep : Char → Bool} (h : sep '\r' = true) (line : List Char) :
    words sep (stripReturn line) = words sep line := by
  unfold stripReturn
  split
  · rename_i hlast
    obtain ⟨front, rfl⟩ := List.getLast?_eq_some_iff.mp hlast
    rw [List.dropLast_concat, words_append_cons h, words_nil, List.append_nil]
  · rfl

end BpfRbacd.Text
