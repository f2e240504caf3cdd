import Mathlib.Algebra.Ring.Nat

/-!
# Numerals

Numbers written in a radix, read digit by digit below a bound. What
`Nat.toDigits` writes reads back as the number, and holds nothing but digits.
-/

namespace BpfRbacd.Numeral

def digitValue (c : Char) : Option Nat :=
  if '0' ≤ c ∧ c ≤ '9' then some (c.toNat - 48)
  else if 'a' ≤ c ∧ c ≤ 'z' then some (c.toNat - 87)
  else if 'A' ≤ c ∧ c ≤ 'Z' then some (c.toNat - 55)
  else none

def toDigit (radix : Nat) (c : Char) : Option Nat := (digitValue c).filter (· < radix)

/-- The digits below a number already read; what does not stay below the bound is no number. -/
def readDigits (radix bound : Nat) : Nat → List Char → Option Nat
  | n, [] => some n
  | n, c :: text =>
      match toDigit radix c with
      | some d =>
          if n * radix + d < bound then readDigits radix bound (n * radix + d) text else none
      | none => none

def readNumeral (radix bound : Nat) (text : List Char) : Option Nat :=
  if text = [] then none else readDigits radix bound 0 text

/-- A numeral, possibly after a plus sign. -/
def readSigned (radix bound : Nat) (text : List Char) : Option Nat :=
  match text with
  | '+' :: digits => readNumeral radix bound digits
  | _ => readNumeral radix bound text

variable {radix bound : Nat}

theorem readDigits_append (n : Nat) (s t : List Char) :
    readDigits radix bound n (s ++ t) =
      (readDigits radix bound n s).bind fun m => readDigits radix bound m t := by
  induction s generalizing n with
  | nil => rfl
  | cons c s ih =>
    simp only [List.cons_append, readDigits]
    cases toDigit radix c with
    | none => rfl
    | some d =>
      by_cases h : n * radix + d < bound
      · simp only [if_pos h, ih]
      · simp only [if_neg h, Option.bind_none]

theorem readDigits_lt {n m : Nat} {text : List Char} (hn : n < bound)
    (h : readDigits radix bound n text = some m) : m < bound := by
  induction text generalizing n with
  | nil =>
    cases h
    exact hn
  | cons c text ih =>
    simp only [readDigits] at h
    split at h
    · split at h
      · exact ih ‹_› h
      · cases h
    · cases h

theorem readSigned_lt {n : Nat} {text : List Char} (hbound : 0 < bound)
    (h : readSigned radix bound text = some n) : n < bound := by
  have hnumeral : ∀ digits, readNumeral radix bound digits = some n → n < bound := by
    intro digits hread
    unfold readNumeral at hread
    split at hread
    · cases hread
    · exact readDigits_lt hbound hread
  unfold readSigned at h
  split at h
  · exact hnumeral _ h
  · exact hnumeral _ h

theorem isSome_toDigit {n m : Nat} {text : List Char} (h : readDigits radix bound n text = some m) :
    ∀ c ∈ text, (toDigit radix c).isSome := by
  induction text generalizing n with
  | nil => exact fun c hc => absurd hc List.not_mem_nil
  | cons c text ih =>
    simp only [readDigits] at h
    split at h
    · rename_i d hd
      split at h
      · intro x hx
        rcases List.mem_cons.mp hx with rfl | hx
        · rw [hd]
          rfl
        · exact ih h x hx
      · cases h
    · cases h

-- ---------------------------------------------------------------------------
-- Written digits
-- ---------------------------------------------------------------------------

theorem digitValue_digitChar {d : Nat} (hd : d < 16) : digitValue d.digitChar = some d := by
  rcases d with _ | _ | _ | _ | _ | _ | _ | _ | _ | _ | _ | _ | _ | _ | _ | _ | d
  all_goals first | rfl | omega

theorem toDigit_digitChar {d : Nat} (hd : d < radix) (hradix : radix ≤ 16) :
    toDigit radix d.digitChar = some d := by
  rw [toDigit, digitValue_digitChar (Nat.lt_of_lt_of_le hd hradix)]
  exact Option.filter_some_pos (decide_eq_true hd)

theorem readDigits_toDigits (hone : 1 < radix) (hradix : radix ≤ 16) {n : Nat} (hn : n < bound) :
    readDigits radix bound 0 (Nat.toDigits radix n) = some n := by
  induction n using Nat.strongRecOn with
  | ind n ih =>
    have hlast : n % radix < radix := Nat.mod_lt _ (by omega)
    rw [Nat.toDigits_eq_if hone]
    split
    · rename_i hsmall
      simp only [readDigits, toDigit_digitChar hsmall hradix, Nat.zero_mul, Nat.zero_add, if_pos hn]
    · have hdiv : n / radix < n := Nat.div_lt_self (by omega) hone
      have hsum : n / radix * radix + n % radix = n := by
        rw [Nat.mul_comm, Nat.div_add_mod]
      rw [readDigits_append, ih _ hdiv (by omega), Option.bind_some]
      simp only [readDigits, toDigit_digitChar hlast hradix, hsum, if_pos hn]

theorem readNumeral_toDigits (hone : 1 < radix) (hradix : radix ≤ 16) {n : Nat} (hn : n < bound) :
    readNumeral radix bound (Nat.toDigits radix n) = some n := by
  rw [readNumeral, if_neg Nat.toDigits_ne_nil, readDigits_toDigits hone hradix hn]

/-- What is no digit does not occur in a written number. -/
theorem not_mem_toDigits (hone : 1 < radix) (hradix : radix ≤ 16) (n : Nat) {c : Char}
    (hc : toDigit radix c = none) : c ∉ Nat.toDigits radix n := by
  intro hmem
  have hread := readDigits_toDigits hone hradix (Nat.lt_succ_self n)
  have hdigit := isSome_toDigit hread c hmem
  rw [hc] at hdigit
  cases hdigit

theorem readSigned_toDigits (hone : 1 < radix) (hradix : radix ≤ 16) {n : Nat} (hn : n < bound) :
    readSigned radix bound (Nat.toDigits radix n) = some n := by
  have hsign : '+' ∉ Nat.toDigits radix n := not_mem_toDigits hone hradix n rfl
  unfold readSigned
  split
  · rename_i digits hdigits
    rw [hdigits] at hsign
    exact absurd List.mem_cons_self hsign
  · exact readNumeral_toDigits hone hradix hn

end BpfRbacd.Numeral
