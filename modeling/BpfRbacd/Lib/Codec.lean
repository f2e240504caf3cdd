import Mathlib.Algebra.Ring.Nat
import Mathlib.Data.List.Infix

/-!
# Codecs and self-delimiting formats

A `Codec` writes values as bytes, reads them back, and rejects every strict
prefix of what it writes. A `Format` moreover knows where a value ends, so
formats compose: one value after another, a choice announced by an earlier
value (`sigma`), or a type carried by another (`refine`). `Format.codec` reads
one value and ignores what follows it.
-/

namespace BpfRbacd.Coding

variable {α β : Type}

structure Codec (α : Type) where
  serialize : α → List UInt8
  deserialize : List UInt8 → Except String α
  deserialize_serialize : ∀ a, deserialize (serialize a) = .ok a
  deserialize_short : ∀ a bytes, bytes <+: serialize a → bytes ≠ serialize a →
    ∃ e, deserialize bytes = .error e

theorem Codec.serialize_injective (codec : Codec α) {a b : α}
    (h : codec.serialize a = codec.serialize b) : a = b := by
  have hb := codec.deserialize_serialize b
  rw [← h, codec.deserialize_serialize] at hb
  exact Except.ok.inj hb

/-- Where there are two values, none is written as nothing. -/
theorem Codec.serialize_ne_nil (codec : Codec α) {a b : α} (hab : a ≠ b) : codec.serialize a ≠ [] := by
  intro ha
  have hne : codec.serialize a ≠ codec.serialize b := fun h => hab (codec.serialize_injective h)
  have hpre : codec.serialize a <+: codec.serialize b := ha ▸ List.nil_prefix
  obtain ⟨e, he⟩ := codec.deserialize_short b _ hpre hne
  rw [codec.deserialize_serialize] at he
  cases he

theorem Codec.deserialize_nil (codec : Codec α) {a b : α} (hab : a ≠ b) :
    ∃ e, codec.deserialize [] = .error e :=
  codec.deserialize_short a [] (List.nil_prefix) (codec.serialize_ne_nil hab).symm

theorem Codec.deserialize_take_long (codec : Codec α) (a : α) {size : Nat}
    (h : size < (codec.serialize a).length) :
    ∃ e, codec.deserialize ((codec.serialize a).take size) = .error e := by
  refine codec.deserialize_short a _ (List.take_prefix ..) fun heq => ?_
  have hlen := congrArg List.length heq
  rw [List.length_take] at hlen
  omega

/-- What is left of a serialization in a buffer decodes only if it fits. -/
theorem Codec.deserialize_take (codec : Codec α) (a : α) (size : Nat) :
    codec.deserialize ((codec.serialize a).take size) = .ok a ↔ (codec.serialize a).length ≤ size := by
  constructor
  · intro h
    refine Nat.le_of_not_lt fun hlong => ?_
    obtain ⟨e, he⟩ := codec.deserialize_take_long a hlong
    rw [h] at he
    cases he
  · intro h
    rw [List.take_of_length_le h, codec.deserialize_serialize]

-- ---------------------------------------------------------------------------
-- Formats
-- ---------------------------------------------------------------------------

structure Format (α : Type) where
  put : α → List UInt8
  get : List UInt8 → Option (α × List UInt8)
  get_put : ∀ a rest, get (put a ++ rest) = some (a, rest)
  get_short : ∀ a bytes, bytes <+: put a → bytes ≠ put a → get bytes = none

/-- Bytes after the value are ignored. -/
def Format.codec (f : Format α) : Codec α where
  serialize := f.put
  deserialize bytes :=
    match f.get bytes with
    | some (a, _) => .ok a
    | none => .error "unexpected end of file"
  deserialize_serialize a := by
    have h := f.get_put a []
    rw [List.append_nil] at h
    simp only [h]
  deserialize_short a bytes hpre hne := by
    simp only [f.get_short a bytes hpre hne]
    exact ⟨_, rfl⟩

theorem Format.deserialize_append (f : Format α) (a : α) (rest : List UInt8) :
    f.codec.deserialize (f.codec.serialize a ++ rest) = .ok a := by
  simp only [codec, f.get_put a rest]

/-- The bytes of `b` carried by values of `α`. -/
def Format.refine (f : Format α) (enc : β → α) (dec : α → Option β)
    (h : ∀ b, dec (enc b) = some b) : Format β where
  put b := f.put (enc b)
  get bytes := (f.get bytes).bind fun x => (dec x.1).map fun b => (b, x.2)
  get_put b rest := by simp [f.get_put, h]
  get_short b bytes hpre hne := by simp [f.get_short _ bytes hpre hne]

theorem append_split {bytes first second : List UInt8} (h : bytes <+: first ++ second) :
    (bytes <+: first ∧ bytes ≠ first) ∨ ∃ tail, bytes = first ++ tail ∧ tail <+: second := by
  rcases List.prefix_or_prefix_of_prefix h (List.prefix_append first second) with hshort | ⟨tail, rfl⟩
  · by_cases heq : bytes = first
    · exact .inr ⟨[], by simp [heq], List.nil_prefix⟩
    · exact .inl ⟨hshort, heq⟩
  · exact .inr ⟨tail, rfl, (List.prefix_append_right_inj first).mp h⟩

/-- A value, then one whose format the first decides. -/
def Format.sigma {β : α → Type} (f : Format α) (g : ∀ a, Format (β a)) : Format (Σ a, β a) where
  put x := f.put x.1 ++ (g x.1).put x.2
  get bytes := (f.get bytes).bind fun x => ((g x.1).get x.2).map fun y => (⟨x.1, y.1⟩, y.2)
  get_put x rest := by simp [f.get_put, (g x.1).get_put, List.append_assoc]
  get_short x bytes hpre hne := by
    rcases append_split hpre with ⟨hshort, hneq⟩ | ⟨tail, rfl, htail⟩
    · simp [f.get_short x.1 bytes hshort hneq]
    · have htailne : tail ≠ (g x.1).put x.2 := fun h => hne (by rw [h])
      simp [f.get_put, (g x.1).get_short x.2 tail htail htailne]

def Format.pair (f : Format α) (g : Format β) : Format (α × β) :=
  (f.sigma fun _ => g).refine (fun x => ⟨x.1, x.2⟩) (fun x => some (x.1, x.2)) fun _ => rfl

def Format.unit : Format Unit where
  put _ := []
  get bytes := some ((), bytes)
  get_put _ _ := rfl
  get_short _ _ hpre hne := absurd (List.prefix_nil.mp hpre) hne

-- ---------------------------------------------------------------------------
-- Bytes and numbers
-- ---------------------------------------------------------------------------

/-- A given number of bytes. -/
def Format.bytes (n : Nat) : Format {l : List UInt8 // l.length = n} where
  put l := l.1
  get bytes :=
    if h : n ≤ bytes.length then some (⟨bytes.take n, by simp [h]⟩, bytes.drop n) else none
  get_put l rest := by
    obtain ⟨l, rfl⟩ := l
    simp
  get_short l bytes hpre hne := by
    obtain ⟨l, rfl⟩ := l
    have hlt : ¬ l.length ≤ bytes.length := fun hle => hne (hpre.eq_of_length_le hle)
    simp [hlt]

def littleEndian : Nat → Nat → List UInt8
  | 0, _ => []
  | width + 1, n => UInt8.ofNat n :: littleEndian width (n / 256)

def ofLittleEndian : List UInt8 → Nat
  | [] => 0
  | b :: bytes => b.toNat + 256 * ofLittleEndian bytes

@[simp] theorem length_littleEndian (width n : Nat) : (littleEndian width n).length = width := by
  induction width generalizing n with
  | zero => rfl
  | succ width ih => simp [littleEndian, ih]

theorem ofLittleEndian_littleEndian {width n : Nat} (h : n < 256 ^ width) :
    ofLittleEndian (littleEndian width n) = n := by
  induction width generalizing n with
  | zero => simp_all [littleEndian, ofLittleEndian]
  | succ width ih =>
    have hdiv : n / 256 < 256 ^ width := by
      rw [Nat.pow_succ, Nat.mul_comm] at h
      exact Nat.div_lt_of_lt_mul h
    simp only [littleEndian, ofLittleEndian, ih hdiv, UInt8.toNat_ofNat']
    omega

/-- Numbers as `width` bytes, the low ones first. -/
def Format.number (width : Nat) : Format {n : Nat // n < 256 ^ width} :=
  (Format.bytes width).refine (fun n => ⟨littleEndian width n.1, length_littleEndian ..⟩)
    (fun l => if h : ofLittleEndian l.1 < 256 ^ width then some ⟨ofLittleEndian l.1, h⟩ else none)
    fun n => by simp [ofLittleEndian_littleEndian n.2, n.2]

def Format.u32 : Format UInt32 :=
  (Format.number 4).refine (fun x => ⟨x.toNat, x.toNat_lt⟩) (fun n => some (UInt32.ofNat n.1))
    fun x => by simp

def Format.u64 : Format UInt64 :=
  (Format.number 8).refine (fun x => ⟨x.toNat, x.toNat_lt⟩) (fun n => some (UInt64.ofNat n.1))
    fun x => by simp

def Format.i32 : Format Int32 :=
  Format.u32.refine Int32.toUInt32 (fun x => some x.toInt32) fun x => by simp

@[simp] theorem Format.length_put_u64 (x : UInt64) : (Format.u64.put x).length = 8 :=
  length_littleEndian ..

@[simp] theorem Format.length_put_i32 (x : Int32) : (Format.i32.put x).length = 4 :=
  length_littleEndian ..

-- ---------------------------------------------------------------------------
-- Tags, options and strings
-- ---------------------------------------------------------------------------

/-- Constructor numbers. -/
def Format.variant (n : Nat) (hn : n ≤ 2 ^ 32) : Format (Fin n) :=
  Format.u32.refine (fun i => UInt32.ofNat i)
    (fun x => if h : x.toNat < n then some ⟨x.toNat, h⟩ else none)
    fun i => by
      have hi : (UInt32.ofNat i).toNat = i := UInt32.toNat_ofNat_of_lt' (Nat.lt_of_lt_of_le i.isLt hn)
      simp only [hi, i.isLt, dif_pos]

@[simp] theorem Format.length_put_variant (n : Nat) (hn : n ≤ 2 ^ 32) (i : Fin n) :
    ((Format.variant n hn).put i).length = 4 := length_littleEndian ..

def Format.flag : Format Bool :=
  (Format.bytes 1).refine (fun b => ⟨[if b then 1 else 0], rfl⟩)
    (fun l => if l.1 = [1] then some true else if l.1 = [0] then some false else none)
    fun b => by cases b <;> rfl

def Format.option (f : Format α) : Format (Option α) :=
  let payload : (b : Bool) → Format (bif b then α else Unit)
    | true => f
    | false => Format.unit
  (Format.flag.sigma payload).refine
    (fun x => match x with
      | some a => ⟨true, a⟩
      | none => ⟨false, ()⟩)
    (fun x => match x with
      | ⟨true, a⟩ => some (some a)
      | ⟨false, _⟩ => some none)
    fun x => by cases x <;> rfl

theorem Format.length_put_some (f : Format α) (a : α) :
    (f.option.put (some a)).length = 1 + (f.put a).length := by
  show (_ ++ f.put a : List UInt8).length = _
  rw [List.length_append]
  rfl

/-- Each byte after a one, then a zero. -/
def putEscaped : List UInt8 → List UInt8
  | [] => [0]
  | b :: bytes => 1 :: b :: putEscaped bytes

def getEscaped : List UInt8 → Option (List UInt8 × List UInt8)
  | [] => none
  | [b] => if b = 0 then some ([], []) else none
  | b :: c :: bytes =>
    if b = 0 then some ([], c :: bytes)
    else if b = 1 then (getEscaped bytes).map fun x => (c :: x.1, x.2) else none

def Format.escaped : Format (List UInt8) where
  put := putEscaped
  get := getEscaped
  get_put l rest := by
    induction l with
    | nil => cases rest <;> simp [putEscaped, getEscaped]
    | cons b l ih => simp [putEscaped, getEscaped, ih]
  get_short l bytes hpre hne := by
    induction l generalizing bytes with
    | nil =>
      cases bytes with
      | nil => rfl
      | cons b bytes =>
        obtain ⟨rfl, hnil⟩ := List.cons_prefix_cons.mp hpre
        exact absurd (by rw [List.prefix_nil.mp hnil]; rfl) hne
    | cons c l ih =>
      cases bytes with
      | nil => rfl
      | cons b bytes =>
        obtain ⟨rfl, htail⟩ := List.cons_prefix_cons.mp hpre
        cases bytes with
        | nil => rfl
        | cons b bytes =>
          obtain ⟨rfl, hrest⟩ := List.cons_prefix_cons.mp htail
          have hshort : bytes ≠ putEscaped l := fun h => hne (by rw [h]; rfl)
          simp [getEscaped, ih bytes hrest hshort]

/-- The length word of a sequence; the last one stands for every length from
itself on. -/
def lengthWord (l : List UInt8) : UInt64 := if l.length < 2 ^ 64 - 1 then .ofNat l.length else -1

theorem lengthWord_of_lt {l : List UInt8} (h : l.length < 2 ^ 64 - 1) :
    (lengthWord l).toNat = l.length := by
  rw [lengthWord, if_pos h, UInt64.toNat_ofNat', Nat.mod_eq_of_lt (by omega)]

/-- The sequences of one length word. -/
def Format.body (word : UInt64) : Format {l : List UInt8 // lengthWord l = word} :=
  if hword : word.toNat < 2 ^ 64 - 1 then
    (Format.bytes word.toNat).refine
      (fun l => ⟨l.1, by
        obtain ⟨l, rfl⟩ := l
        by_cases hl : l.length < 2 ^ 64 - 1
        · exact (lengthWord_of_lt hl).symm
        · rw [lengthWord, if_neg hl] at hword
          exact absurd hword (by decide)⟩)
      (fun l => if h : lengthWord l.1 = word then some ⟨l.1, h⟩ else none)
      fun l => by simp [l.2]
  else
    Format.escaped.refine (fun l => l.1)
      (fun l => if h : lengthWord l = word then some ⟨l, h⟩ else none)
      fun l => by simp [l.2]

/-- A sequence after its length. One whose length no word holds is escaped. -/
def Format.sized : Format (List UInt8) :=
  (Format.u64.sigma Format.body).refine (fun l => ⟨lengthWord l, l, rfl⟩) (fun x => some x.2.1)
    fun _ => rfl

theorem length_putEscaped (l : List UInt8) : (putEscaped l).length = 2 * l.length + 1 := by
  induction l with
  | nil => rfl
  | cons b l ih => simp [putEscaped, ih]; omega

theorem Format.put_sized (l : List UInt8) :
    Format.sized.put l = Format.u64.put (lengthWord l) ++
      if l.length < 2 ^ 64 - 1 then l else putEscaped l := by
  show _ ++ (Format.body (lengthWord l)).put ⟨l, rfl⟩ = _
  by_cases h : l.length < 2 ^ 64 - 1
  · have hword : (lengthWord l).toNat < 2 ^ 64 - 1 := by rwa [lengthWord_of_lt h]
    simp only [Format.body, dif_pos hword, if_pos h]
    rfl
  · have hword : ¬ (lengthWord l).toNat < 2 ^ 64 - 1 := by
      rw [lengthWord, if_neg h]
      decide
    simp only [Format.body, dif_neg hword, if_neg h]
    rfl

theorem Format.length_put_sized {l : List UInt8} (h : l.length < 2 ^ 64 - 1) :
    (Format.sized.put l).length = 8 + l.length := by
  rw [Format.put_sized, if_pos h, List.length_append, Format.length_put_u64]

theorem Format.le_length_put_sized (l : List UInt8) : 8 + l.length ≤ (Format.sized.put l).length := by
  rw [Format.put_sized, List.length_append, Format.length_put_u64]
  split
  · exact Nat.le_refl _
  · rw [length_putEscaped]
    omega

def Format.string : Format String :=
  Format.sized.refine (fun s => s.toUTF8.data.toList) (fun l => String.fromUTF8? ⟨l.toArray⟩)
    fun s => dif_pos s.isValidUTF8

theorem Format.length_put_string {s : String} (h : s.utf8ByteSize < 2 ^ 64 - 1) :
    (Format.string.put s).length = 8 + s.utf8ByteSize := Format.length_put_sized h

theorem Format.le_length_put_string (s : String) :
    8 + s.utf8ByteSize ≤ (Format.string.put s).length := Format.le_length_put_sized _

end BpfRbacd.Coding
