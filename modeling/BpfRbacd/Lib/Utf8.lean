import Mathlib.Algebra.Ring.Nat

/-!
# UTF-8 over lists of bytes

Texts are lists of characters. Bytes that are no text can still be read, with a
replacement character for each longest start of a character that goes wrong.
An ASCII byte stands for its character wherever it occurs, so bytes can be cut
at it before they are decoded.
-/

namespace BpfRbacd.Utf8

def encode (text : List Char) : List UInt8 := text.flatMap String.utf8EncodeChar

def decode (bytes : List UInt8) : Option (List Char) :=
  (String.fromUTF8? bytes.toByteArray).map String.toList

def isContinuation (b : UInt8) : Bool := 0x80 ≤ b && b ≤ 0xBF

/-- The second bytes that may follow the first byte of three, or of four. -/
def startsThree (b₀ b₁ : UInt8) : Bool :=
  (b₀ == 0xE0 && 0xA0 ≤ b₁ && b₁ ≤ 0xBF) || (0xE1 ≤ b₀ && b₀ ≤ 0xEC && isContinuation b₁) ||
    (b₀ == 0xED && 0x80 ≤ b₁ && b₁ ≤ 0x9F) || (0xEE ≤ b₀ && b₀ ≤ 0xEF && isContinuation b₁)

def startsFour (b₀ b₁ : UInt8) : Bool :=
  (b₀ == 0xF0 && 0x90 ≤ b₁ && b₁ ≤ 0xBF) || (0xF1 ≤ b₀ && b₀ ≤ 0xF3 && isContinuation b₁) ||
    (b₀ == 0xF4 && 0x80 ≤ b₁ && b₁ ≤ 0x8F)

/-- Where no character starts: how many of the bytes after the first go with it. -/
def badTail (b₀ : UInt8) (rest : List UInt8) : Nat :=
  match rest with
  | b₁ :: rest =>
      if startsThree b₀ b₁ then 1
      else if startsFour b₀ b₁ then
        if rest.head?.any isContinuation then 2 else 1
      else 0
  | [] => 0

def lossy (bytes : List UInt8) : List Char :=
  match bytes with
  | [] => []
  | b :: rest =>
      match (b :: rest).toByteArray.utf8DecodeChar? 0 with
      | some c => c :: lossy (rest.drop (c.utf8Size - 1))
      | none => '\uFFFD' :: lossy (rest.drop (badTail b rest))
termination_by bytes.length
decreasing_by
  all_goals
    simp only [List.length_drop, List.length_cons]
    omega

-- ---------------------------------------------------------------------------
-- Texts
-- ---------------------------------------------------------------------------

@[simp] theorem encode_nil : encode [] = [] := rfl

@[simp] theorem encode_cons (c : Char) (text : List Char) :
    encode (c :: text) = String.utf8EncodeChar c ++ encode text := List.flatMap_cons

@[simp] theorem encode_append (s t : List Char) : encode (s ++ t) = encode s ++ encode t :=
  List.flatMap_append

theorem decode_eq_some {bytes : List UInt8} {text : List Char} :
    decode bytes = some text ↔ bytes = encode text := by
  have hutf8 : bytes = encode text ↔ bytes.toByteArray = text.utf8Encode :=
    List.toByteArray_inj.symm
  rw [hutf8, decode, String.fromUTF8?]
  split
  · rename_i hvalid
    rw [Option.map_some, Option.some.injEq]
    constructor
    · rintro rfl
      rw [String.utf8Encode_toList]
      rfl
    · intro hbytes
      have hstring : String.fromUTF8 bytes.toByteArray hvalid = String.ofList text := by
        rw [← String.toByteArray_inj, String.toByteArray_ofList, ← hbytes]
        rfl
      rw [hstring, String.toList_ofList]
  · rename_i hinvalid
    constructor
    · intro h
      cases h
    · exact fun hbytes => absurd ⟨text, hbytes⟩ hinvalid

@[simp] theorem decode_encode (text : List Char) : decode (encode text) = some text :=
  decode_eq_some.mpr rfl

theorem encode_injective {s t : List Char} (h : encode s = encode t) : s = t := by
  have hdecode := decode_encode s
  rw [h, decode_encode] at hdecode
  exact (Option.some.inj hdecode).symm

theorem lossy_encode (text : List Char) : lossy (encode text) = text := by
  induction text with
  | nil => rw [encode_nil, lossy]
  | cons c text ih =>
    have hlength := String.length_utf8EncodeChar c
    have hpos := c.utf8Size_pos
    have hread := ByteArray.utf8DecodeChar?_utf8EncodeChar_append
      (b := (encode text).toByteArray) (c := c)
    rw [← List.toByteArray_append] at hread
    rw [encode_cons]
    cases hc : String.utf8EncodeChar c with
    | nil =>
      rw [hc, List.length_nil] at hlength
      omega
    | cons b rest =>
      rw [hc, List.cons_append] at hread
      rw [hc, List.length_cons] at hlength
      rw [List.cons_append, lossy, hread]
      have hdrop : (rest ++ encode text).drop (c.utf8Size - 1) = encode text := by
        rw [← hlength, Nat.add_sub_cancel, List.drop_left]
      simp only [hdrop, ih]

-- ---------------------------------------------------------------------------
-- ASCII bytes
-- ---------------------------------------------------------------------------

def asciiChar (b : UInt8) : Char := Char.ofNat b.toNat

theorem encodeChar_ascii {b : UInt8} (hb : b.toNat < 128) :
    String.utf8EncodeChar (asciiChar b) = [b] := by
  have hvalid : b.toNat.isValidChar := .inl (by omega)
  have hval : (asciiChar b).val.toNat = b.toNat := by
    rw [asciiChar, Char.ofNat, dif_pos hvalid]
    rfl
  unfold String.utf8EncodeChar
  simp only [hval]
  rw [if_pos (by omega), UInt8.ofNat_toNat]

theorem eq_asciiChar {c : Char} {b : UInt8} (h : b ∈ String.utf8EncodeChar c)
    (hb : b.toNat < 128) : c = asciiChar b := by
  have hlow : ∀ n, b = UInt8.ofNat n → n % 256 = b.toNat := by
    rintro n rfl
    exact UInt8.toNat_ofNat'.symm
  unfold String.utf8EncodeChar at h
  simp only at h
  split at h
  · rename_i hc
    have hn := hlow _ (List.mem_singleton.mp h)
    rw [Nat.mod_eq_of_lt (by omega)] at hn
    rw [asciiChar, ← hn]
    exact (Char.ofNat_toNat c).symm
  · -- every byte of a longer encoding is at least 0x80
    split at h
    · simp only [List.mem_cons, List.not_mem_nil, or_false] at h
      rcases h with h | h <;> have hn := hlow _ h <;> omega
    · split at h
      · simp only [List.mem_cons, List.not_mem_nil, or_false] at h
        rcases h with h | h | h <;> have hn := hlow _ h <;> omega
      · simp only [List.mem_cons, List.not_mem_nil, or_false] at h
        rcases h with h | h | h | h <;> have hn := hlow _ h <;> omega

/-- A character cut at an ASCII byte is that byte. -/
theorem encodeChar_cut {c : Char} {b : UInt8} {s t : List UInt8} (hb : b.toNat < 128)
    (h : String.utf8EncodeChar c = s ++ b :: t) : s = [] ∧ t = [] ∧ c = asciiChar b := by
  have hmem : b ∈ String.utf8EncodeChar c := by
    rw [h]
    exact List.mem_append_right _ List.mem_cons_self
  have hc := eq_asciiChar hmem hb
  have hlength := congrArg List.length h
  rw [hc, encodeChar_ascii hb] at hlength
  simp only [List.length_append, List.length_cons, List.length_nil] at hlength
  exact ⟨List.length_eq_zero_iff.mp (by omega), List.length_eq_zero_iff.mp (by omega), hc⟩

/-- A text whose bytes are cut at an ASCII byte is cut at its character. -/
theorem encode_eq_append {text : List Char} {s t : List UInt8} {b : UInt8} (hb : b.toNat < 128)
    (h : encode text = s ++ b :: t) :
    ∃ s' t', text = s' ++ asciiChar b :: t' ∧ s = encode s' ∧ t = encode t' := by
  induction text generalizing s with
  | nil => exact absurd h (by simp)
  | cons c text ih =>
    rw [encode_cons, List.append_eq_append_iff] at h
    rcases h with ⟨s₁, rfl, htext⟩ | ⟨c₁, hc, htext⟩
    · obtain ⟨s', t', rfl, rfl, rfl⟩ := ih htext
      exact ⟨c :: s', t', rfl, rfl, rfl⟩
    · cases c₁ with
      | nil =>
        rw [List.nil_append] at htext
        rw [List.append_nil] at hc
        obtain ⟨s', t', rfl, hs', rfl⟩ := ih (s := []) htext.symm
        exact ⟨c :: s', t', rfl, by rw [encode_cons, hc, ← hs', List.append_nil], rfl⟩
      | cons x c₁ =>
        rw [List.cons_append] at htext
        cases htext
        obtain ⟨rfl, rfl, rfl⟩ := encodeChar_cut hb hc
        exact ⟨[], text, rfl, rfl, rfl⟩

def IsText (bytes : List UInt8) : Prop := ∃ text, bytes = encode text

theorem isText_encode (text : List Char) : IsText (encode text) := ⟨text, rfl⟩

theorem isText_append_cons {s t : List UInt8} {b : UInt8} (hb : b.toNat < 128) :
    IsText (s ++ b :: t) ↔ IsText s ∧ IsText t := by
  constructor
  · rintro ⟨text, h⟩
    obtain ⟨s', t', -, rfl, rfl⟩ := encode_eq_append hb h.symm
    exact ⟨isText_encode s', isText_encode t'⟩
  · rintro ⟨⟨s', rfl⟩, t', rfl⟩
    refine ⟨s' ++ asciiChar b :: t', ?_⟩
    rw [encode_append, encode_cons, encodeChar_ascii hb]
    rfl

theorem isText_cons {t : List UInt8} {b : UInt8} (hb : b.toNat < 128) :
    IsText (b :: t) ↔ IsText t := by
  have h := isText_append_cons (s := []) (t := t) hb
  rw [List.nil_append] at h
  rw [h]
  exact and_iff_right (isText_encode [])

end BpfRbacd.Utf8
