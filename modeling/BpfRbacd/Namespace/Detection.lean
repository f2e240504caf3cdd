import BpfRbacd.Namespace.MountTable

/-!
# When bpffs detection agrees with the mount table

The fields of a line are its words where each is one word. Of such a line only
the mount point can mislead, by its escapes: a bpffs whose mount point has no
white space and no backslash shows as it is, and any other shows under the path
that its escapes spell. Lines in which `bpf` is no word can be of any kind. That
says exactly for which of these tables and paths `is_bpffs_mounted` is right.
-/

namespace BpfRbacd.Namespace

open Utf8 (encode lossy)

-- ---------------------------------------------------------------------------
-- Fields and their words
-- ---------------------------------------------------------------------------

/-- Not empty, and with no white space but what is escaped. -/
def OneWord (field : List Char) : Prop := field ≠ [] ∧ ∀ c ∈ field, isWhitespace c → Escaped c

/-- Not empty, and with no white space and no backslash. -/
def Plain (field : List Char) : Prop := field ≠ [] ∧ ∀ c ∈ field, isWhitespace c = false ∧ c ≠ '\\'

instance (field : List Char) : Decidable (Plain field) :=
  have : Decidable (∀ c ∈ field, isWhitespace c = false ∧ c ≠ '\\') := List.decidableBAll _ field
  inferInstanceAs (Decidable (field ≠ [] ∧ _))

theorem OneWord.splitWhitespace {field : List Char} (h : OneWord field) :
    splitWhitespace (escapeText field) = [escapeText field] := by
  refine Text.IsWord.words ⟨?_, ?_⟩
  · obtain ⟨c, field, rfl⟩ := List.exists_cons_of_ne_nil h.1
    intro hnil
    exact escapeChar_ne_nil c (List.flatMap_eq_nil_iff.mp hnil c List.mem_cons_self)
  · intro d hd
    obtain ⟨c, hc, hdc⟩ := List.mem_flatMap.mp hd
    by_cases hescaped : Escaped c
    · obtain ⟨_, _, _, -, hwhite⟩ := escapeChar_escaped hescaped
      exact hwhite d hdc
    · rw [escapeChar_plain hescaped, List.mem_singleton] at hdc
      subst hdc
      exact Bool.eq_false_iff.mpr fun hwhite => hescaped (h.2 d hc hwhite)

theorem Plain.not_escaped {field : List Char} (h : Plain field) : ∀ c ∈ field, ¬ Escaped c := by
  rintro c hc (rfl | rfl | rfl | rfl)
  · exact absurd (h.2 _ hc).1 (by decide)
  · exact absurd (h.2 _ hc).1 (by decide)
  · exact absurd (h.2 _ hc).1 (by decide)
  · exact absurd rfl (h.2 _ hc).2

theorem escapeText_of_not_escaped {field : List Char} (h : ∀ c ∈ field, ¬ Escaped c) :
    escapeText field = field :=
  flatMap_eq_self fun c hc => escapeChar_plain (h c hc)

theorem Plain.oneWord {field : List Char} (h : Plain field) : OneWord field := by
  refine ⟨h.1, fun c hc hwhite => ?_⟩
  rw [(h.2 c hc).1] at hwhite
  cases hwhite

/-- An escape leaves its backslash. -/
theorem escapeText_of_no_backslash {field : List Char} (h : '\\' ∉ escapeText field) :
    escapeText field = field := by
  refine escapeText_of_not_escaped fun c hc hescaped => h ?_
  obtain ⟨_, _, _, hbackslash, -⟩ := escapeChar_escaped hescaped
  refine List.mem_flatMap.mpr ⟨c, hc, ?_⟩
  rw [hbackslash]
  exact List.mem_cons_self

theorem length_le_escapeText (field : List Char) : field.length ≤ (escapeText field).length := by
  induction field with
  | nil => exact Nat.le_refl 0
  | cons c field ih =>
    have hcons : escapeText (c :: field) = escapeChar c ++ escapeText field := List.flatMap_cons
    have hpos : 0 < (escapeChar c).length := List.length_pos_iff.mpr (escapeChar_ne_nil c)
    rw [hcons, List.length_append, List.length_cons]
    omega

theorem no_backslash_of_escapeText_eq {field : List Char} (h : escapeText field = field) :
    '\\' ∉ field := by
  intro hmem
  obtain ⟨s, t, rfl⟩ := List.append_of_mem hmem
  have hsplit : escapeText (s ++ '\\' :: t) =
      escapeText s ++ (['\\', '1', '3', '4'] ++ escapeText t) := by
    simp only [escapeText, List.flatMap_append, List.flatMap_cons]
    rfl
  have hlength := congrArg List.length (hsplit.symm.trans h)
  have hs := length_le_escapeText s
  have ht := length_le_escapeText t
  simp only [List.length_append, List.length_cons, List.length_nil] at hlength
  omega

theorem plain_bpf : Plain bpf := by
  refine ⟨List.cons_ne_nil _ _, ?_⟩
  simp only [bpf, List.forall_mem_cons]
  exact ⟨⟨rfl, by decide⟩, ⟨rfl, by decide⟩, ⟨rfl, by decide⟩,
    fun _ hc => absurd hc List.not_mem_nil⟩

theorem Plain.splitWhitespace {field : List Char} (h : Plain field) :
    Namespace.splitWhitespace (escapeText field) = [field] := by
  rw [h.oneWord.splitWhitespace, escapeText_of_not_escaped h.not_escaped]

/-- A word that its rendering leaves as it is is plain. -/
theorem plain_of_escapeText_eq {field : List Char} (hword : OneWord field)
    (h : escapeText field = field) : Plain field := by
  have hmem : field ∈ splitWhitespace field := by
    rw [← h, hword.splitWhitespace, List.mem_singleton]
  obtain ⟨hne, hwhite⟩ := Text.isWord_of_mem hmem
  have hbackslash := no_backslash_of_escapeText_eq h
  refine ⟨hne, fun c hc => ⟨hwhite c hc, ?_⟩⟩
  rintro rfl
  exact hbackslash hc

/-- Only a plain path is rendered as it is. -/
theorem Plain.escapeText_eq_iff {field path : List Char} (h : Plain path) :
    escapeText field = path ↔ field = path := by
  constructor
  · rintro rfl
    have hbackslash : '\\' ∉ escapeText field := fun hmem => (h.2 _ hmem).2 rfl
    exact (escapeText_of_no_backslash hbackslash).symm
  · rintro rfl
    exact escapeText_of_not_escaped h.not_escaped

-- ---------------------------------------------------------------------------
-- Tables of words
-- ---------------------------------------------------------------------------

/-- Source, mount point and type are one word each. -/
structure MountEntry.Words (m : MountEntry Char) : Prop where
  source : OneWord m.source
  mountPoint : OneWord m.mountPoint
  fstype : OneWord m.fstype

theorem MountEntry.Words.shows_iff {m : MountEntry Char} (h : m.Words) {path : List Char} :
    m.Shows path ↔ escapeText m.mountPoint = path ∧ m.fstype = bpf := by
  simp only [MountEntry.Shows, MountEntry.columns, h.source.splitWhitespace,
    h.mountPoint.splitWhitespace, h.fstype.splitWhitespace, List.cons_append, List.nil_append]
  rw [← plain_bpf.escapeText_eq_iff]
  constructor
  · rintro ⟨first, rest, hcolumns⟩
    simp only [List.cons.injEq] at hcolumns
    obtain ⟨-, hmountPoint, hfstype, -⟩ := hcolumns
    exact ⟨hmountPoint, hfstype⟩
  · rintro ⟨hmountPoint, hfstype⟩
    rw [hmountPoint, hfstype]
    exact ⟨_, _, rfl⟩

/-- On tables of such mounts, detection compares the rendered mount points. -/
theorem isBpffsMounted_words {texts : List (MountEntry Char)} (h : ∀ m ∈ texts, m.Words)
    (path : List UInt8) :
    isBpffsMounted (.ok (showMounts (texts.map MountEntry.encode))) path = true ↔
      ∃ m ∈ texts, escapeText m.mountPoint = lossy path ∧ m.fstype = bpf := by
  rw [isBpffsMounted_texts]
  constructor
  · rintro ⟨m, hm, hshows⟩
    exact ⟨m, hm, (h m hm).shows_iff.mp hshows⟩
  · rintro ⟨m, hm, hshown⟩
    exact ⟨m, hm, (h m hm).shows_iff.mpr hshown⟩

/-- So it is right about every plain path. -/
theorem isBpffsMounted_of_words {texts : List (MountEntry Char)} (h : ∀ m ∈ texts, m.Words)
    {path : List Char} (hpath : Plain path) :
    isBpffsMounted (.ok (showMounts (texts.map MountEntry.encode))) (encode path) = true ↔
      Mounted (texts.map MountEntry.encode) (encode path) := by
  rw [isBpffsMounted_words h, Utf8.lossy_encode]
  constructor
  · rintro ⟨m, hm, hmountPoint, hfstype⟩
    refine ⟨m.encode, List.mem_map_of_mem hm, congrArg encode hfstype, ?_⟩
    exact congrArg encode (hpath.escapeText_eq_iff.mp hmountPoint)
  · rintro ⟨_, hmem, hfstype, hmountPoint⟩
    obtain ⟨m, hm, rfl⟩ := List.mem_map.mp hmem
    refine ⟨m, hm, hpath.escapeText_eq_iff.mpr ?_, Utf8.encode_injective hfstype⟩
    exact Utf8.encode_injective hmountPoint

-- ---------------------------------------------------------------------------
-- Tables whose fields are apart
-- ---------------------------------------------------------------------------

/-- `bpf` is a word of no field. -/
def MountEntry.Unrelated (m : MountEntry Char) : Prop :=
  ∀ field ∈ [m.source, m.mountPoint, m.fstype, m.options], bpf ∉ splitWhitespace (escapeText field)

/-- If the file is text at all, each line has its fields apart, or nothing of a bpffs in it. -/
def FieldsApart (table : List (MountEntry UInt8)) : Prop :=
  ∀ texts : List (MountEntry Char), table = texts.map MountEntry.encode →
    ∀ m ∈ texts, m.Words ∨ m.Unrelated

theorem MountEntry.Unrelated.fstype_ne {m : MountEntry Char} (h : m.Unrelated) :
    m.encode.fstype ≠ Utf8.encode bpf := by
  intro hfstype
  have hbpf : m.fstype = bpf := Utf8.encode_injective hfstype
  refine h m.fstype (by simp) ?_
  rw [hbpf, plain_bpf.splitWhitespace]
  exact List.mem_singleton.mpr rfl

theorem MountEntry.Unrelated.not_shows {m : MountEntry Char} (h : m.Unrelated) {path : List Char} :
    ¬ m.Shows path := by
  rintro ⟨first, rest, hcolumns⟩
  have hmem : bpf ∈ m.columns := by simp [hcolumns]
  have hzero : bpf ≠ ['0'] := by decide
  simp only [MountEntry.Unrelated, List.forall_mem_cons] at h
  obtain ⟨hsource, hmountPoint, hfstype, hoptions, -⟩ := h
  simp [MountEntry.columns, hsource, hmountPoint, hfstype, hoptions, hzero] at hmem

theorem MountEntry.encode_injective {t u : MountEntry Char} (h : t.encode = u.encode) : t = u := by
  cases t
  cases u
  simp only [MountEntry.encode, MountEntry.mk.injEq] at h
  obtain ⟨hsource, hmountPoint, hfstype, hoptions⟩ := h
  rw [Utf8.encode_injective hsource, Utf8.encode_injective hmountPoint,
    Utf8.encode_injective hfstype, Utf8.encode_injective hoptions]

theorem MountEntry.isText_encode (m : MountEntry Char) : m.encode.IsText :=
  ⟨Utf8.isText_encode _, Utf8.isText_encode _, Utf8.isText_encode _, Utf8.isText_encode _⟩

def PlainBytes (field : List UInt8) : Prop := ∃ text, field = encode text ∧ Plain text

/-- A bpffs on another path, whose mount point with its escapes spells this one. Of a path that is
no text, the replacement characters count. -/
def MountEntry.Impersonates (m : MountEntry UInt8) (path : List UInt8) : Prop :=
  m.fstype = Utf8.encode bpf ∧ m.mountPoint ≠ path ∧
    escape m.mountPoint = Utf8.encode (lossy path)

/-- A bpffs passes for the path by its escapes, or it is the path and has none. -/
theorem shown_iff {m : MountEntry Char} (h : m.Words) {path : List UInt8} :
    escapeText m.mountPoint = lossy path ∧ m.fstype = bpf ↔
      PlainBytes path ∧ m.encode.BpffsAt path ∨ m.encode.Impersonates path := by
  constructor
  · rintro ⟨hmountPoint, hfstype⟩
    by_cases hpath : encode m.mountPoint = path
    · subst hpath
      rw [Utf8.lossy_encode] at hmountPoint
      have hplain := plain_of_escapeText_eq h.mountPoint hmountPoint
      exact .inl ⟨⟨_, rfl, hplain⟩, congrArg encode hfstype, rfl⟩
    · refine .inr ⟨congrArg encode hfstype, hpath, ?_⟩
      exact (escape_encode _).trans (congrArg encode hmountPoint)
  · rintro (⟨⟨text, rfl, hplain⟩, hfstype, hmountPoint⟩ | ⟨hfstype, -, hmountPoint⟩)
    · have htext : m.mountPoint = text := Utf8.encode_injective hmountPoint
      rw [Utf8.lossy_encode]
      exact ⟨hplain.escapeText_eq_iff.mpr htext, Utf8.encode_injective hfstype⟩
    · have htext := (escape_encode _).symm.trans hmountPoint
      exact ⟨Utf8.encode_injective htext, Utf8.encode_injective hfstype⟩

theorem isBpffsMounted_iff {table : List (MountEntry UInt8)} (hfields : FieldsApart table)
    (path : List UInt8) : isBpffsMounted (.ok (showMounts table)) path = true ↔
      (∀ m ∈ table, m.IsText) ∧
        (PlainBytes path ∧ Mounted table path ∨ ∃ m ∈ table, m.Impersonates path) := by
  by_cases htext : ∀ m ∈ table, m.IsText
  · obtain ⟨texts, rfl⟩ := exists_texts htext
    have hshows : ∀ m ∈ texts, m.Shows (lossy path) ↔
        PlainBytes path ∧ m.encode.BpffsAt path ∨ m.encode.Impersonates path := by
      intro m hm
      rcases hfields texts rfl m hm with hwords | hunrelated
      · exact hwords.shows_iff.trans (shown_iff hwords)
      · refine iff_of_false hunrelated.not_shows ?_
        rintro (⟨-, hfstype, -⟩ | ⟨hfstype, -⟩)
        · exact hunrelated.fstype_ne hfstype
        · exact hunrelated.fstype_ne hfstype
    rw [isBpffsMounted_texts]
    constructor
    · rintro ⟨m, hm, hshown⟩
      refine ⟨htext, ((hshows m hm).mp hshown).imp ?_ ?_⟩
      · rintro ⟨hplain, hat⟩
        exact ⟨hplain, m.encode, List.mem_map_of_mem hm, hat⟩
      · intro himpersonates
        exact ⟨m.encode, List.mem_map_of_mem hm, himpersonates⟩
    · rintro ⟨-, ⟨hplain, _, hmem, hat⟩ | ⟨_, hmem, himpersonates⟩⟩
      · obtain ⟨m, hm, rfl⟩ := List.mem_map.mp hmem
        exact ⟨m, hm, (hshows m hm).mpr (.inl ⟨hplain, hat⟩)⟩
      · obtain ⟨m, hm, rfl⟩ := List.mem_map.mp hmem
        exact ⟨m, hm, (hshows m hm).mpr (.inr himpersonates)⟩
  · rw [isBpffsMounted_bytes htext]
    exact ⟨fun h => absurd h Bool.false_ne_true, fun h => absurd h.1 htext⟩

/-- Where the path is a bpffs, the file is text and the path plain, or another bpffs passes for it;
where it is none, no bpffs passes for it in a file that is text. -/
structure Discernible (table : List (MountEntry UInt8)) (path : List UInt8) : Prop where
  shown : Mounted table path →
    (∀ m ∈ table, m.IsText) ∧ (PlainBytes path ∨ ∃ m ∈ table, m.Impersonates path)
  unmistaken : ¬ Mounted table path → (∀ m ∈ table, m.IsText) →
    ∀ m ∈ table, ¬ m.Impersonates path

/-- A mount without a source, and the bpffs that systemd mounts. -/
def sysTable : List (MountEntry Char) :=
  [⟨[], "/mnt".toList, "tmpfs".toList, "rw,nosuid".toList⟩,
    ⟨"bpf".toList, "/sys/fs/bpf".toList, "bpf".toList, "rw,mode=700".toList⟩]

/-- A path with white space in it is never found, whatever the file says. -/
theorem isBpffsMounted_whitespace (procMounts : Except String (List UInt8)) {path : List Char}
    (h : ∃ c ∈ path, isWhitespace c = true) : isBpffsMounted procMounts (encode path) = false := by
  unfold isBpffsMounted
  split
  · refine List.any_eq_false.mpr fun line _ hparts => ?_
    rw [Utf8.lossy_encode] at hparts
    obtain ⟨first, rest, hwords⟩ := isBpffsAt_iff.mp hparts
    have hmem : path ∈ splitWhitespace line := by
      rw [hwords]
      exact List.mem_cons_of_mem _ List.mem_cons_self
    obtain ⟨c, hc, hwhite⟩ := h
    rw [(Text.isWord_of_mem hmem).2 c hc] at hwhite
    cases hwhite
  · rfl

/-- A bpffs on a directory whose name has a space in it. -/
def spacedTable : List (MountEntry Char) :=
  [⟨"/dev/sda1".toList, "/".toList, "ext4".toList, "rw,relatime".toList⟩,
    ⟨"bpf".toList, "/run/my bpf".toList, "bpf".toList, "rw,mode=700".toList⟩]

end BpfRbacd.Namespace
