import BpfRbacd.Lib.Text
import BpfRbacd.Lib.Utf8

/-!
# bpffs detection

`is_bpffs_mounted` of `src/namespace.rs` against the mount table. `/proc/mounts`
shows a mount a line, its fields apart by spaces and, inside a field, a space,
tab, line feed or backslash as an octal escape. The function splits the lines at
all of Unicode's white space and leaves the escapes as they are.
-/

namespace BpfRbacd.Namespace

open Utf8 (encode decode lossy asciiChar IsText)

/-- `char::is_whitespace`. -/
def isWhitespace (c : Char) : Bool :=
  let n := c.toNat
  (0x09 ≤ n && n ≤ 0x0D) || n == 0x20 || n == 0x85 || n == 0xA0 || n == 0x1680 ||
    (0x2000 ≤ n && n ≤ 0x200A) || n == 0x2028 || n == 0x2029 || n == 0x202F || n == 0x205F ||
    n == 0x3000

def splitWhitespace (line : List Char) : List (List Char) := Text.words isWhitespace line

/-- The bytes of a file as a `String`, which has to be UTF-8. -/
def readToString (file : Except String (List UInt8)) : Except String (List Char) := do
  let bytes ← file
  match decode bytes with
  | some contents => return contents
  | none => .error "stream did not contain valid UTF-8"

def bpf : List Char := ['b', 'p', 'f']

/-- The test on the parts of a line. -/
def isBpffsAt (path : List Char) (parts : List (List Char)) : Bool :=
  match parts with
  | _ :: mountPoint :: fstype :: _ => mountPoint == path && fstype == bpf
  | _ => false

/-- What reading `/proc/mounts` gives, and the bytes of a path. -/
def isBpffsMounted (procMounts : Except String (List UInt8)) (path : List UInt8) : Bool :=
  match readToString procMounts with
  | .ok contents =>
      (Text.lines contents).any fun line => isBpffsAt (lossy path) (splitWhitespace line)
  | .error _ => false

-- ---------------------------------------------------------------------------
-- The mount table
-- ---------------------------------------------------------------------------

/-- A mount whose fields are bytes, or texts. -/
structure MountEntry (α : Type) where
  source : List α
  mountPoint : List α
  fstype : List α
  options : List α
  deriving DecidableEq

def escapeByte (b : UInt8) : List UInt8 :=
  if b = 0x20 then [0x5C, 0x30, 0x34, 0x30]
  else if b = 0x09 then [0x5C, 0x30, 0x31, 0x31]
  else if b = 0x0A then [0x5C, 0x30, 0x31, 0x32]
  else if b = 0x5C then [0x5C, 0x31, 0x33, 0x34]
  else [b]

def escape (field : List UInt8) : List UInt8 := field.flatMap escapeByte

def MountEntry.line (m : MountEntry UInt8) : List UInt8 :=
  escape m.source ++ 0x20 :: (escape m.mountPoint ++ 0x20 :: (escape m.fstype ++ 0x20 ::
    (escape m.options ++ [0x20, 0x30, 0x20, 0x30, 0x0A])))

def showMounts (table : List (MountEntry UInt8)) : List UInt8 := table.flatMap MountEntry.line

def MountEntry.BpffsAt (m : MountEntry UInt8) (path : List UInt8) : Prop :=
  m.fstype = encode bpf ∧ m.mountPoint = path

def Mounted (table : List (MountEntry UInt8)) (path : List UInt8) : Prop :=
  ∃ m ∈ table, m.BpffsAt path

-- ---------------------------------------------------------------------------
-- Fields that are texts
-- ---------------------------------------------------------------------------

def escapeChar (c : Char) : List Char :=
  if c = ' ' then ['\\', '0', '4', '0']
  else if c = '\t' then ['\\', '0', '1', '1']
  else if c = '\n' then ['\\', '0', '1', '2']
  else if c = '\\' then ['\\', '1', '3', '4']
  else [c]

def escapeText (field : List Char) : List Char := field.flatMap escapeChar

/-- What `/proc/mounts` writes as an escape. -/
def Escaped (c : Char) : Prop := c = ' ' ∨ c = '\t' ∨ c = '\n' ∨ c = '\\'

theorem escapeChar_plain {c : Char} (h : ¬ Escaped c) : escapeChar c = [c] := by
  simp only [Escaped, not_or] at h
  obtain ⟨hspace, htab, hfeed, hbackslash⟩ := h
  rw [escapeChar, if_neg hspace, if_neg htab, if_neg hfeed, if_neg hbackslash]

theorem escape_visible {d₁ d₂ d₃ : Char} (h₁ : isWhitespace d₁ = false)
    (h₂ : isWhitespace d₂ = false) (h₃ : isWhitespace d₃ = false) :
    ∀ d ∈ ['\\', d₁, d₂, d₃], isWhitespace d = false := by
  simp only [List.forall_mem_cons]
  exact ⟨rfl, h₁, h₂, h₃, fun _ hd => absurd hd List.not_mem_nil⟩

theorem escapeChar_escaped {c : Char} (h : Escaped c) :
    ∃ d₁ d₂ d₃, escapeChar c = ['\\', d₁, d₂, d₃] ∧
      ∀ d ∈ escapeChar c, isWhitespace d = false := by
  rcases h with rfl | rfl | rfl | rfl
  · exact ⟨'0', '4', '0', rfl, escape_visible rfl rfl rfl⟩
  · exact ⟨'0', '1', '1', rfl, escape_visible rfl rfl rfl⟩
  · exact ⟨'0', '1', '2', rfl, escape_visible rfl rfl rfl⟩
  · exact ⟨'1', '3', '4', rfl, escape_visible rfl rfl rfl⟩

theorem escapeChar_ne_nil (c : Char) : escapeChar c ≠ [] := by
  by_cases hc : Escaped c
  · obtain ⟨_, _, _, hescaped, -⟩ := escapeChar_escaped hc
    rw [hescaped]
    exact List.cons_ne_nil _ _
  · rw [escapeChar_plain hc]
    exact List.cons_ne_nil _ _

def MountEntry.encode (m : MountEntry Char) : MountEntry UInt8 :=
  ⟨Utf8.encode m.source, Utf8.encode m.mountPoint, Utf8.encode m.fstype, Utf8.encode m.options⟩

theorem flatMap_eq_self {α : Type} {f : α → List α} {l : List α} (h : ∀ a ∈ l, f a = [a]) :
    l.flatMap f = l := by
  rw [List.flatMap_def, List.map_congr_left h, ← List.flatMap_def, List.flatMap_singleton']

theorem escape_append (s t : List UInt8) : escape (s ++ t) = escape s ++ escape t :=
  List.flatMap_append

theorem escapeByte_plain {c : Char} (hc : ¬ Escaped c) :
    ∀ b ∈ String.utf8EncodeChar c, escapeByte b = [b] := by
  simp only [Escaped, not_or] at hc
  obtain ⟨hspace, htab, hfeed, hbackslash⟩ := hc
  intro b hb
  -- an ASCII byte of a character is the whole of it
  have hother : ∀ x : UInt8, x.toNat < 128 → c ≠ asciiChar x → b ≠ x := by
    rintro x hx hne rfl
    exact hne (Utf8.eq_asciiChar hb hx)
  rw [escapeByte, if_neg (hother 0x20 (by decide) hspace),
    if_neg (hother 0x09 (by decide) htab), if_neg (hother 0x0A (by decide) hfeed),
    if_neg (hother 0x5C (by decide) hbackslash)]

theorem escape_encodeChar (c : Char) :
    escape (String.utf8EncodeChar c) = encode (escapeChar c) := by
  by_cases hc : Escaped c
  · rcases hc with rfl | rfl | rfl | rfl <;> rfl
  · rw [escape, flatMap_eq_self (escapeByte_plain hc), escapeChar_plain hc, Utf8.encode_cons,
      Utf8.encode_nil, List.append_nil]

theorem escape_encode (field : List Char) : escape (encode field) = encode (escapeText field) := by
  induction field with
  | nil => rfl
  | cons c field ih =>
    rw [Utf8.encode_cons, escape_append, escape_encodeChar, ih, ← Utf8.encode_append]
    rfl

theorem escapeByte_cases (b : UInt8) :
    escapeByte b = [b] ∨ b.toNat < 128 ∧ ∃ d₁ d₂ d₃ : UInt8,
      d₁.toNat < 128 ∧ d₂.toNat < 128 ∧ d₃.toNat < 128 ∧ escapeByte b = [0x5C, d₁, d₂, d₃] := by
  by_cases hspecial : b = 0x20 ∨ b = 0x09 ∨ b = 0x0A ∨ b = 0x5C
  · right
    rcases hspecial with rfl | rfl | rfl | rfl <;>
      exact ⟨by decide, _, _, _, by decide, by decide, by decide, rfl⟩
  · left
    simp only [not_or] at hspecial
    obtain ⟨hspace, htab, hfeed, hbackslash⟩ := hspecial
    rw [escapeByte, if_neg hspace, if_neg htab, if_neg hfeed, if_neg hbackslash]

/-- Escapes put ASCII bytes in the place of ASCII bytes. -/
theorem isText_append_escape (s field : List UInt8) :
    IsText (s ++ escape field) ↔ IsText (s ++ field) := by
  induction field generalizing s with
  | nil => rfl
  | cons b field ih =>
    have hcons : escape (b :: field) = escapeByte b ++ escape field := List.flatMap_cons
    rw [hcons]
    rcases escapeByte_cases b with hplain | ⟨hb, d₁, d₂, d₃, h₁, h₂, h₃, hescaped⟩
    · have hih := ih (s ++ [b])
      rw [List.append_assoc, List.append_assoc] at hih
      rw [hplain]
      exact hih
    · rw [hescaped, List.cons_append, List.cons_append, List.cons_append, List.cons_append,
        List.nil_append, Utf8.isText_append_cons (by decide), Utf8.isText_append_cons hb,
        Utf8.isText_cons h₁, Utf8.isText_cons h₂, Utf8.isText_cons h₃]
      have hih := ih []
      rw [List.nil_append, List.nil_append] at hih
      rw [hih]

theorem isText_escape {field : List UInt8} : IsText (escape field) ↔ IsText field :=
  isText_append_escape [] field

structure MountEntry.IsText (m : MountEntry UInt8) : Prop where
  source : Utf8.IsText m.source
  mountPoint : Utf8.IsText m.mountPoint
  fstype : Utf8.IsText m.fstype
  options : Utf8.IsText m.options

theorem isText_line_append (m : MountEntry UInt8) (rest : List UInt8) :
    IsText (m.line ++ rest) ↔ m.IsText ∧ IsText rest := by
  have hspace : (0x20 : UInt8).toNat < 128 := by decide
  have hzero : (0x30 : UInt8).toNat < 128 := by decide
  have hfeed : (0x0A : UInt8).toNat < 128 := by decide
  simp only [MountEntry.line, List.append_assoc, List.cons_append, List.nil_append,
    Utf8.isText_append_cons hspace, Utf8.isText_cons hzero, Utf8.isText_cons hspace,
    Utf8.isText_cons hfeed, isText_escape]
  constructor
  · rintro ⟨hsource, hmountPoint, hfstype, hoptions, hrest⟩
    exact ⟨⟨hsource, hmountPoint, hfstype, hoptions⟩, hrest⟩
  · rintro ⟨⟨hsource, hmountPoint, hfstype, hoptions⟩, hrest⟩
    exact ⟨hsource, hmountPoint, hfstype, hoptions, hrest⟩

theorem isText_showMounts {table : List (MountEntry UInt8)} :
    IsText (showMounts table) ↔ ∀ m ∈ table, m.IsText := by
  induction table with
  | nil => exact ⟨fun _ m hm => absurd hm List.not_mem_nil, fun _ => Utf8.isText_encode []⟩
  | cons m table ih =>
    have hcons : showMounts (m :: table) = m.line ++ showMounts table := List.flatMap_cons
    rw [hcons, isText_line_append, ih, List.forall_mem_cons]

-- ---------------------------------------------------------------------------
-- The file as text
-- ---------------------------------------------------------------------------

/-- A line without its line feed. -/
def MountEntry.text (m : MountEntry Char) : List Char :=
  escapeText m.source ++ ' ' :: (escapeText m.mountPoint ++ ' ' :: (escapeText m.fstype ++ ' ' ::
    (escapeText m.options ++ [' ', '0', ' ', '0'])))

theorem line_encode (m : MountEntry Char) : m.encode.line = encode (m.text ++ ['\n']) := by
  have hspace : String.utf8EncodeChar ' ' = [0x20] := rfl
  have hzero : String.utf8EncodeChar '0' = [0x30] := rfl
  have hfeed : String.utf8EncodeChar '\n' = [0x0A] := rfl
  simp only [MountEntry.line, MountEntry.encode, MountEntry.text, escape_encode, Utf8.encode_append,
    Utf8.encode_cons, Utf8.encode_nil, hspace, hzero, hfeed, List.append_assoc, List.cons_append,
    List.nil_append]

theorem showMounts_encode (texts : List (MountEntry Char)) :
    showMounts (texts.map MountEntry.encode) =
      encode (texts.flatMap fun m => m.text ++ ['\n']) := by
  induction texts with
  | nil => rfl
  | cons m texts ih =>
    rw [List.flatMap_cons, Utf8.encode_append, ← ih, ← line_encode]
    rfl

theorem exists_texts {table : List (MountEntry UInt8)} (h : ∀ m ∈ table, m.IsText) :
    ∃ texts : List (MountEntry Char), table = texts.map MountEntry.encode := by
  induction table with
  | nil => exact ⟨[], rfl⟩
  | cons m table ih =>
    obtain ⟨hm, htable⟩ := List.forall_mem_cons.mp h
    obtain ⟨texts, rfl⟩ := ih htable
    obtain ⟨source, hsource⟩ := hm.source
    obtain ⟨mountPoint, hmountPoint⟩ := hm.mountPoint
    obtain ⟨fstype, hfstype⟩ := hm.fstype
    obtain ⟨options, hoptions⟩ := hm.options
    refine ⟨⟨source, mountPoint, fstype, options⟩ :: texts, ?_⟩
    rw [List.map_cons, MountEntry.encode, ← hsource, ← hmountPoint, ← hfstype, ← hoptions]

/-- The words of a line, field after field. -/
def MountEntry.columns (m : MountEntry Char) : List (List Char) :=
  splitWhitespace (escapeText m.source) ++ (splitWhitespace (escapeText m.mountPoint) ++
    (splitWhitespace (escapeText m.fstype) ++ (splitWhitespace (escapeText m.options) ++
      [['0'], ['0']])))

theorem splitWhitespace_text (m : MountEntry Char) : splitWhitespace m.text = m.columns := by
  have hspace : isWhitespace ' ' = true := rfl
  have hdump : Text.words isWhitespace ['0', ' ', '0'] = [['0'], ['0']] := by decide
  simp only [splitWhitespace, MountEntry.text, MountEntry.columns, Text.words_append_cons hspace,
    hdump]

theorem feed_not_mem_escapeText (field : List Char) : '\n' ∉ escapeText field := by
  intro h
  obtain ⟨c, -, hfeed⟩ := List.mem_flatMap.mp h
  by_cases hc : Escaped c
  · obtain ⟨_, _, _, -, hvisible⟩ := escapeChar_escaped hc
    exact absurd (hvisible _ hfeed) (by decide)
  · rw [escapeChar_plain hc, List.mem_singleton] at hfeed
    exact hc (.inr (.inr (.inl hfeed.symm)))

theorem feed_not_mem_text (m : MountEntry Char) : '\n' ∉ m.text := by
  have hfeed := feed_not_mem_escapeText
  simp [MountEntry.text, hfeed]

theorem map_lines (texts : List (MountEntry Char)) :
    (Text.lines (texts.flatMap fun m => m.text ++ ['\n'])).map splitWhitespace =
      texts.map MountEntry.columns := by
  induction texts with
  | nil => rfl
  | cons m texts ih =>
    have hreturn : isWhitespace '\r' = true := rfl
    rw [List.flatMap_cons, List.append_assoc, List.singleton_append,
      Text.lines_append_cons (feed_not_mem_text m), List.map_cons, List.map_cons, ih,
      ← splitWhitespace_text]
    simp only [splitWhitespace, Text.words_stripReturn hreturn]

theorem isBpffsAt_iff {path : List Char} {parts : List (List Char)} :
    isBpffsAt path parts = true ↔ ∃ first rest, parts = first :: path :: bpf :: rest := by
  unfold isBpffsAt
  split
  · simp
  · rename_i hfew
    constructor
    · intro h
      cases h
    · rintro ⟨first, rest, rfl⟩
      exact absurd rfl (hfew _ _ _ _)

/-- Read as words, the line has the path second and `bpf` third. -/
def MountEntry.Shows (m : MountEntry Char) (path : List Char) : Prop :=
  ∃ first rest, m.columns = first :: path :: bpf :: rest

theorem readToString_of_decode {bytes : List UInt8} {contents : List Char}
    (h : decode bytes = some contents) : readToString (.ok bytes) = .ok contents := by
  show (match decode bytes with | some contents => _ | none => _) = _
  rw [h]
  rfl

theorem readToString_of_not_text {bytes : List UInt8} (h : ¬ IsText bytes) :
    readToString (.ok bytes) = .error "stream did not contain valid UTF-8" := by
  show (match decode bytes with | some contents => _ | none => _) = _
  cases hdecode : decode bytes with
  | none => rfl
  | some text => exact absurd ⟨text, Utf8.decode_eq_some.mp hdecode⟩ h

theorem isBpffsMounted_texts (texts : List (MountEntry Char)) (path : List UInt8) :
    isBpffsMounted (.ok (showMounts (texts.map MountEntry.encode))) path = true ↔
      ∃ m ∈ texts, m.Shows (lossy path) := by
  have hlines : (Text.lines (texts.flatMap fun m => m.text ++ ['\n'])).any
      (fun line => isBpffsAt (lossy path) (splitWhitespace line)) =
      (texts.map MountEntry.columns).any (isBpffsAt (lossy path)) := by
    rw [← map_lines, List.any_map]
    rfl
  rw [isBpffsMounted, showMounts_encode, readToString_of_decode (Utf8.decode_encode _)]
  simp only [hlines, List.any_eq_true, List.mem_map, exists_exists_and_eq_and, isBpffsAt_iff]
  rfl

theorem isBpffsMounted_bytes {table : List (MountEntry UInt8)} (h : ¬ ∀ m ∈ table, m.IsText)
    (path : List UInt8) : isBpffsMounted (.ok (showMounts table)) path = false := by
  have hread := readToString_of_not_text fun htext => h (isText_showMounts.mp htext)
  rw [isBpffsMounted, hread]

end BpfRbacd.Namespace
