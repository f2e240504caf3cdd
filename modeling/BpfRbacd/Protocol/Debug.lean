import BpfRbacd.Lib.Delimited
import BpfRbacd.Lib.Numeral
import BpfRbacd.Protocol

/-!
# What a denial tells

A denial quotes the request, and the log holds every request, both as `{:?}`
prints it. No text a client sends can break out of its quotes or of its line:
the request can be told from what is printed, and no control character or line
break is in it (`debug_faithful`).
-/

namespace BpfRbacd

open Text (Delimited delimited_until)

section
variable {printable : Char → Bool}

-- ---------------------------------------------------------------------------
-- Characters
-- ---------------------------------------------------------------------------

/-- The characters with an escape of their own, and its letter. -/
def shortEscapes : List (Char × Char) :=
  [('\x00', '0'), ('\t', 't'), ('\r', 'r'), ('\n', 'n'), ('\"', '\"'), ('\\', '\\')]

variable (printable) in
/-- The three ways a character is printed between quotes. -/
inductive Escaped (c : Char) : List Char → Prop
  | plain : c ≠ '\\' → c ≠ '\"' → isPrintable printable c = true → Escaped c [c]
  | short {letter : Char} : (c, letter) ∈ shortEscapes → Escaped c ['\\', letter]
  | unicode : Escaped c ('\\' :: 'u' :: '\x7b' :: (Nat.toDigits 16 c.toNat ++ ['\x7d']))

theorem escapeDebug_escaped (c : Char) : Escaped printable c (escapeDebug printable c).toList := by
  unfold escapeDebug
  split
  · next h =>
    obtain rfl : c = '\x00' := Char.ext h
    exact .short (by decide)
  split
  · next h => exact h ▸ .short (by decide)
  split
  · next h => exact h ▸ .short (by decide)
  split
  · next h => exact h ▸ .short (by decide)
  split
  · next h => exact h ▸ .short (by decide)
  split
  · next h => exact h ▸ .short (by decide)
  split
  · next hquote hslash hprintable =>
    rw [Char.toString_eq_singleton, String.toList_singleton]
    exact .plain hslash hquote hprintable
  · simp only [String.toList_append, String.toList_ofList]
    exact .unicode

theorem shortEscapes_inj {c c' letter : Char} (h : (c, letter) ∈ shortEscapes)
    (h' : (c', letter) ∈ shortEscapes) :
    c = c' := by
  simp only [shortEscapes, List.mem_cons, Prod.mk.injEq, List.not_mem_nil, or_false] at h h'
  grind

theorem toDigits_inj {radix n m : Nat} (hone : 1 < radix) (hradix : radix ≤ 16)
    (h : Nat.toDigits radix n = Nat.toDigits radix m) : n = m := by
  have hn : Numeral.readNumeral radix (n + m + 1) (Nat.toDigits radix n) = some n :=
    Numeral.readNumeral_toDigits hone hradix (Nat.lt_succ_of_le (Nat.le_add_right n m))
  have hm : Numeral.readNumeral radix (n + m + 1) (Nat.toDigits radix m) = some m :=
    Numeral.readNumeral_toDigits hone hradix (Nat.lt_succ_of_le (Nat.le_add_left m n))
  rw [h, hm] at hn
  exact (Option.some.inj hn).symm

theorem delimited_hex : Delimited fun c : Char => Nat.toDigits 16 c.toNat ++ ['\x7d'] := by
  apply delimited_until
  · intro c c' h
    exact Char.toNat_inj.mp (toDigits_inj (by omega) (by omega) h)
  · intro c
    exact Numeral.not_mem_toDigits (by omega) (by omega) _ rfl

theorem short_ne_unicode {c letter : Char} (h : (c, letter) ∈ shortEscapes) : letter ≠ 'u' := by
  simp only [shortEscapes, List.mem_cons, Prod.mk.injEq, List.not_mem_nil, or_false] at h
  rcases h with ⟨-, rfl⟩ | ⟨-, rfl⟩ | ⟨-, rfl⟩ | ⟨-, rfl⟩ | ⟨-, rfl⟩ | ⟨-, rfl⟩ <;> decide

/-- A printed character shows where it ends: a backslash begins an escape, and
the letter after it says which. -/
theorem Escaped.append_inj {c c' : Char} {t t' x y : List Char} (hc : Escaped printable c t)
    (hc' : Escaped printable c' t') (h : t ++ x = t' ++ y) : c = c' ∧ x = y := by
  cases hc with
  | plain hslash =>
    cases hc' with
    | plain =>
      obtain ⟨rfl, hxy⟩ := List.cons.inj h
      exact ⟨rfl, hxy⟩
    | short | unicode => exact absurd (List.cons.inj h).1 hslash
  | short hletter =>
    cases hc' with
    | plain hslash => exact absurd (List.cons.inj h).1.symm hslash
    | short hletter' =>
      obtain ⟨-, h⟩ := List.cons.inj h
      obtain ⟨rfl, hxy⟩ := List.cons.inj h
      exact ⟨shortEscapes_inj hletter hletter', hxy⟩
    | unicode =>
      obtain ⟨-, h⟩ := List.cons.inj h
      exact absurd (List.cons.inj h).1 (short_ne_unicode hletter)
  | unicode =>
    cases hc' with
    | plain hslash => exact absurd (List.cons.inj h).1.symm hslash
    | short hletter =>
      obtain ⟨-, h⟩ := List.cons.inj h
      exact absurd (List.cons.inj h).1.symm (short_ne_unicode hletter)
    | unicode => exact (delimited_hex.literal ['\\', 'u', '\x7b']) c c' x y h

variable (printable) in
theorem delimited_escapeDebug : Delimited fun c => (escapeDebug printable c).toList := by
  intro c c' x y
  exact (escapeDebug_escaped c).append_inj (escapeDebug_escaped c')

/-- The closing quote ends a text, however many quotes there are in it. -/
theorem Escaped.start {c : Char} {t : List Char} (h : Escaped printable c t) :
    ∃ first rest, t = first :: rest ∧ first ≠ '\"' := by
  cases h with
  | plain _ hquote => exact ⟨c, [], rfl, hquote⟩
  | short => exact ⟨'\\', _, rfl, by decide⟩
  | unicode => exact ⟨'\\', _, rfl, by decide⟩

variable (printable) in
theorem toList_debugStr (s : String) : (debugStr printable s).toList =
    ['\"'] ++ (s.toList.flatMap (fun c => (escapeDebug printable c).toList) ++ ['\"']) := by
  simp [debugStr, String.toList_join, List.flatMap_map]

variable (printable) in
theorem delimited_debugStr : Delimited fun s => (debugStr printable s).toList := by
  have hmany : Delimited fun l : List Char => l.flatMap (fun c => (escapeDebug printable c).toList) ++ ['\"'] :=
    (delimited_escapeDebug printable).many fun c => (escapeDebug_escaped c).start
  have hquoted := (hmany.literal ['\"']).comp fun _ _ => String.toList_injective
  simpa only [toList_debugStr] using hquoted

-- ---------------------------------------------------------------------------
-- Numbers
-- ---------------------------------------------------------------------------

theorem toString_u32_inj {n m : UInt32} (h : (toString n).toList = (toString m).toList) : n = m := by
  have hdigits : ∀ k : UInt32, (toString k).toList = Nat.toDigits 10 k.toNat := fun k => Nat.toList_repr
  rw [hdigits, hdigits] at h
  exact UInt32.toNat_inj.mp (toDigits_inj (by omega) (by omega) h)

theorem not_mem_toString_u32 {n : UInt32} {c : Char} (hc : Numeral.toDigit 10 c = none) :
    c ∉ (toString n).toList := by
  have hdigits : (toString n).toList = Nat.toDigits 10 n.toNat := Nat.toList_repr
  rw [hdigits]
  exact Numeral.not_mem_toDigits (by omega) (by omega) _ hc

/-- A number and the comma or blank after it. -/
theorem delimited_u32 {stop : Char} (hstop : Numeral.toDigit 10 stop = none) :
    Delimited fun n : UInt32 => (toString n).toList ++ [stop] :=
  delimited_until (fun _ _ => toString_u32_inj) fun _ => not_mem_toString_u32 hstop

theorem toList_toString_int (i : Int) : (toString i).toList =
    if i < 0 then '-' :: Nat.toDigits 10 i.natAbs else Nat.toDigits 10 i.natAbs := by
  cases i with
  | ofNat n =>
    rw [if_neg (by simp)]
    exact Nat.toList_repr
  | negSucc n =>
    rw [if_pos (Int.negSucc_lt_zero n)]
    show ("-" ++ (n + 1).repr).toList = _
    rw [String.toList_append, Nat.toList_repr]
    rfl

theorem minus_mem_iff {i : Int} : '-' ∈ (toString i).toList ↔ i < 0 := by
  have hdigits : '-' ∉ Nat.toDigits 10 i.natAbs := Numeral.not_mem_toDigits (by omega) (by omega) _ rfl
  rw [toList_toString_int]
  split
  · next hneg => simp [hneg]
  · next hpos => simp [hpos, hdigits]

theorem toString_i32_inj {n m : Int32} (h : (toString n).toList = (toString m).toList) : n = m := by
  have hint : (toString n.toInt).toList = (toString m.toInt).toList := h
  have hsign : n.toInt < 0 ↔ m.toInt < 0 := by rw [← minus_mem_iff, hint, minus_mem_iff]
  have habs : n.toInt.natAbs = m.toInt.natAbs := by
    rw [toList_toString_int, toList_toString_int] at hint
    by_cases hneg : n.toInt < 0
    · rw [if_pos hneg, if_pos (hsign.mp hneg)] at hint
      exact toDigits_inj (by omega) (by omega) (List.cons.inj hint).2
    · rw [if_neg hneg, if_neg (mt hsign.mpr hneg)] at hint
      exact toDigits_inj (by omega) (by omega) hint
  exact Int32.toInt_inj.mp (by omega)

theorem delimited_i32 {stop : Char} (hstop : Numeral.toDigit 10 stop = none) (hsign : stop ≠ '-') :
    Delimited fun n : Int32 => (toString n).toList ++ [stop] := by
  refine delimited_until (fun _ _ => toString_i32_inj) fun n hmem => ?_
  have hn : (toString n).toList = _ := toList_toString_int n.toInt
  have hdigits : ∀ k, stop ∉ Nat.toDigits 10 k := fun k => Numeral.not_mem_toDigits (by omega) (by omega) k hstop
  rw [hn] at hmem
  split at hmem
  · rcases List.mem_cons.mp hmem with heq | hmem
    · exact hsign heq
    · exact hdigits _ hmem
  · exact hdigits _ hmem

-- ---------------------------------------------------------------------------
-- Requests
-- ---------------------------------------------------------------------------

variable (printable) in
/-- A field that is a text. -/
def textField (label s : String) : List Char := label.toList ++ (debugStr printable s).toList

theorem delimited_textField (label : String) : Delimited (textField printable label) :=
  (delimited_debugStr printable).literal label.toList

/-- A field that is a number, up to the character after it. -/
def numberField [ToString α] (label : String) (stop : Char) (n : α) : List Char :=
  label.toList ++ ((toString n).toList ++ [stop])

theorem delimited_numberField {label : String} {stop : Char} (hstop : Numeral.toDigit 10 stop = none) :
    Delimited fun n : UInt32 => numberField label stop n := (delimited_u32 hstop).literal label.toList

theorem delimited_fdField {label : String} {stop : Char} (hstop : Numeral.toDigit 10 stop = none)
    (hsign : stop ≠ '-') : Delimited fun fd : RawFd => numberField label stop fd :=
  (delimited_i32 hstop hsign).literal label.toList

variable (printable) in
theorem toList_debug_loadProgram (progType objectPath programName : String) :
    ((Request.loadProgram progType objectPath programName).debug printable).toList =
      textField printable "LoadProgram \x7b prog_type: " progType ++
        (textField printable ", object_path: " objectPath ++
          (textField printable ", program_name: " programName ++ " \x7d".toList)) := by
  simp [Request.debug, debugStruct, textField, String.intercalate_cons_cons, String.intercalate_singleton]

variable (printable) in
theorem toList_debug_createMap (mapType name : String) (keySize valueSize maxEntries : UInt32) :
    ((Request.createMap mapType name keySize valueSize maxEntries).debug printable).toList =
      textField printable "CreateMap \x7b map_type: " mapType ++
        (textField printable ", name: " name ++
          (numberField ", key_size: " ',' keySize ++
            (numberField " value_size: " ',' valueSize ++
              (numberField " max_entries: " ' ' maxEntries ++ "\x7d".toList)))) := by
  simp [Request.debug, debugStruct, textField, numberField, String.intercalate_cons_cons,
    String.intercalate_singleton]

variable (printable) in
theorem toList_debug_attach (attachType : String) (progFd : RawFd) (target : String) :
    ((Request.attach attachType progFd target).debug printable).toList =
      textField printable "Attach \x7b attach_type: " attachType ++
        (numberField ", prog_fd: " ',' progFd ++ (textField printable " target: " target ++ " \x7d".toList)) := by
  simp [Request.debug, debugStruct, textField, numberField, String.intercalate_cons_cons,
    String.intercalate_singleton]

/-- The variants begin with different letters. -/
def Request.initial : Request → Char
  | .loadProgram .. => 'L'
  | .createMap .. => 'C'
  | .attach .. => 'A'

theorem head_debug (request : Request) : (request.debug printable).toList.head? = some request.initial := by
  cases request with
  | loadProgram =>
    rw [toList_debug_loadProgram]
    rfl
  | createMap =>
    rw [toList_debug_createMap]
    rfl
  | attach =>
    rw [toList_debug_attach]
    rfl

theorem debug_injective : Function.Injective (Request.debug printable) := by
  intro request request' h
  have hlist : (request.debug printable).toList = (request'.debug printable).toList := by rw [h]
  have hinitial : request.initial = request'.initial := by
    apply Option.some.inj
    rw [← head_debug, ← head_debug, hlist]
  cases request with
  | loadProgram progType objectPath programName =>
    cases request' with
    | loadProgram progType' objectPath' programName' =>
      rw [toList_debug_loadProgram, toList_debug_loadProgram] at hlist
      obtain ⟨htype, hrest⟩ := delimited_textField _ _ _ _ _ hlist
      obtain ⟨hpath, hrest⟩ := delimited_textField _ _ _ _ _ hrest
      obtain ⟨hname, -⟩ := delimited_textField _ _ _ _ _ hrest
      rw [htype, hpath, hname]
    | createMap | attach => cases hinitial
  | createMap mapType name keySize valueSize maxEntries =>
    cases request' with
    | createMap mapType' name' keySize' valueSize' maxEntries' =>
      rw [toList_debug_createMap, toList_debug_createMap] at hlist
      obtain ⟨htype, hrest⟩ := delimited_textField _ _ _ _ _ hlist
      obtain ⟨hname, hrest⟩ := delimited_textField _ _ _ _ _ hrest
      obtain ⟨hkeySize, hrest⟩ := delimited_numberField rfl _ _ _ _ hrest
      obtain ⟨hvalueSize, hrest⟩ := delimited_numberField rfl _ _ _ _ hrest
      obtain ⟨hmaxEntries, -⟩ := delimited_numberField rfl _ _ _ _ hrest
      rw [htype, hname, hkeySize, hvalueSize, hmaxEntries]
    | loadProgram | attach => cases hinitial
  | attach attachType progFd target =>
    cases request' with
    | attach attachType' progFd' target' =>
      rw [toList_debug_attach, toList_debug_attach] at hlist
      obtain ⟨htype, hrest⟩ := delimited_textField _ _ _ _ _ hlist
      obtain ⟨hfd, hrest⟩ := delimited_fdField rfl (by decide) _ _ _ _ hrest
      obtain ⟨htarget, -⟩ := delimited_textField _ _ _ _ _ hrest
      rw [htype, hfd, htarget]
    | loadProgram | createMap => cases hinitial

-- ---------------------------------------------------------------------------
-- Printable characters
-- ---------------------------------------------------------------------------

variable (printable) in
def AllPrintable (text : List Char) : Prop := ∀ c ∈ text, isPrintable printable c = true

@[simp] theorem allPrintable_append {s t : List Char} :
    AllPrintable printable (s ++ t) ↔ AllPrintable printable s ∧ AllPrintable printable t :=
  List.forall_mem_append

@[simp] theorem allPrintable_cons {c : Char} {t : List Char} :
    AllPrintable printable (c :: t) ↔ isPrintable printable c = true ∧ AllPrintable printable t :=
  List.forall_mem_cons

@[simp] theorem allPrintable_nil : AllPrintable printable [] := fun _ hc => absurd hc List.not_mem_nil

theorem isPrintable_between {first last c : Char} (hfirst : 0x20 ≤ first.val) (hlast : last.val < 0x7f)
    (hc : first ≤ c ∧ c ≤ last) : isPrintable printable c = true := by
  have hlow : 0x20 ≤ c.val := UInt32.le_trans hfirst hc.1
  have hhigh : c.val < 0x7f := UInt32.lt_of_le_of_lt hc.2 hlast
  have hascii : c.val < 0x80 := UInt32.lt_trans hhigh (by decide)
  simp [isPrintable, hlow, hhigh, hascii]

theorem isPrintable_digit {radix : Nat} {c : Char} (h : Numeral.toDigit radix c ≠ none) :
    isPrintable printable c = true := by
  unfold Numeral.toDigit Numeral.digitValue at h
  split at h
  · next hc => exact isPrintable_between (by decide) (by decide) hc
  split at h
  · next hc => exact isPrintable_between (by decide) (by decide) hc
  split at h
  · next hc => exact isPrintable_between (by decide) (by decide) hc
  · exact absurd rfl h

theorem allPrintable_toDigits {radix : Nat} (hone : 1 < radix) (hradix : radix ≤ 16) (n : Nat) :
    AllPrintable printable (Nat.toDigits radix n) := by
  intro c hc
  exact isPrintable_digit fun hnone => Numeral.not_mem_toDigits hone hradix n hnone hc

theorem Escaped.allPrintable {c : Char} {t : List Char} (h : Escaped printable c t) :
    AllPrintable printable t := by
  cases h with
  | plain _ _ hprintable => simpa using hprintable
  | short hletter =>
    have hletters : ∀ row ∈ shortEscapes, isPrintable printable row.2 = true := by
      simp [shortEscapes, isPrintable]
    simpa [isPrintable] using hletters _ hletter
  | unicode => simp [allPrintable_toDigits, isPrintable]

theorem allPrintable_textField {label : String} (hlabel : AllPrintable printable label.toList) (s : String) :
    AllPrintable printable (textField printable label s) := by
  have htext : AllPrintable printable (s.toList.flatMap fun c => (escapeDebug printable c).toList) := by
    intro c hc
    obtain ⟨d, -, hd⟩ := List.mem_flatMap.mp hc
    exact (escapeDebug_escaped d).allPrintable c hd
  have hquote : isPrintable printable '\"' = true := by simp [isPrintable]
  rw [textField, toList_debugStr]
  simp [hlabel, htext, hquote]

theorem allPrintable_numberField [ToString α] {label : String} {stop : Char} {n : α}
    (hlabel : AllPrintable printable label.toList) (hn : AllPrintable printable (toString n).toList)
    (hstop : isPrintable printable stop = true) : AllPrintable printable (numberField label stop n) := by
  simp [numberField, hlabel, hn, hstop]

theorem allPrintable_u32 (n : UInt32) : AllPrintable printable (toString n).toList := by
  have hdigits : (toString n).toList = Nat.toDigits 10 n.toNat := Nat.toList_repr
  rw [hdigits]
  exact allPrintable_toDigits (by omega) (by omega) _

theorem allPrintable_i32 (n : Int32) : AllPrintable printable (toString n).toList := by
  have hn : (toString n).toList = _ := toList_toString_int n.toInt
  have hsign : isPrintable printable '-' = true := by simp [isPrintable]
  rw [hn]
  split <;> simp [hsign, allPrintable_toDigits]

/-- The texts of a request's own, given as they stand. -/
theorem allPrintable_literal {text : String} (h : ∀ c ∈ text.toList, ' ' ≤ c ∧ c ≤ '~') :
    AllPrintable printable text.toList :=
  fun c hc => isPrintable_between (by decide) (by decide) (h c hc)

theorem debug_printable (request : Request) : AllPrintable printable (request.debug printable).toList := by
  have hcomma : isPrintable printable ',' = true := by simp [isPrintable]
  have hblank : isPrintable printable ' ' = true := by simp [isPrintable]
  cases request with
  | loadProgram progType objectPath programName =>
    rw [toList_debug_loadProgram]
    simp only [allPrintable_append]
    refine ⟨allPrintable_textField ?_ progType, allPrintable_textField ?_ objectPath,
      allPrintable_textField ?_ programName, ?_⟩
    all_goals exact allPrintable_literal (by simp)
  | createMap mapType name keySize valueSize maxEntries =>
    rw [toList_debug_createMap]
    simp only [allPrintable_append]
    refine ⟨allPrintable_textField ?_ mapType, allPrintable_textField ?_ name,
      allPrintable_numberField ?_ (allPrintable_u32 keySize) hcomma,
      allPrintable_numberField ?_ (allPrintable_u32 valueSize) hcomma,
      allPrintable_numberField ?_ (allPrintable_u32 maxEntries) hblank, ?_⟩
    all_goals exact allPrintable_literal (by simp)
  | attach attachType progFd target =>
    rw [toList_debug_attach]
    simp only [allPrintable_append]
    refine ⟨allPrintable_textField ?_ attachType, allPrintable_numberField ?_ (allPrintable_i32 progFd) hcomma,
      allPrintable_textField ?_ target, ?_⟩
    all_goals exact allPrintable_literal (by simp)

/-- Control characters, and the separators of lines and of paragraphs. -/
def disruptive (c : Char) : Bool :=
  let n := c.toNat
  n < 0x20 || (0x7f ≤ n && n < 0xa0) || n == 0x2028 || n == 0x2029

theorem not_disruptive_of_isPrintable (hprintable : ∀ c, disruptive c = true → printable c = false) {c : Char}
    (h : isPrintable printable c = true) : disruptive c = false := by
  unfold isPrintable at h
  split at h
  · next hascii =>
    -- decided by the range alone
    simp only [Bool.and_eq_true, decide_eq_true_eq, UInt32.le_iff_toNat_le, UInt32.lt_iff_toNat_lt] at h
    obtain ⟨hlow, hhigh⟩ := h
    have hlow : 0x20 ≤ c.toNat := hlow
    have hhigh : c.toNat < 0x7f := hhigh
    simp only [disruptive, Bool.or_eq_false_iff, Bool.and_eq_false_iff, decide_eq_false_iff_not, beq_eq_false_iff_ne]
    omega
  · cases hdisruptive : disruptive c with
    | false => rfl
    | true =>
      rw [hprintable c hdisruptive] at h
      cases h

/-- What is printed of a request says which request it was, and is one line of
printable characters, none of them a control character. -/
theorem debug_faithful (printable : Char → Bool) (hprintable : ∀ c, disruptive c = true → printable c = false)
    (request request' : Request) :
    (request.debug printable = request'.debug printable ↔ request = request') ∧
      ∀ c ∈ (request.debug printable).toList, isPrintable printable c = true ∧ disruptive c = false := by
  refine ⟨debug_injective.eq_iff, fun c hc => ?_⟩
  have hc := debug_printable request c hc
  exact ⟨hc, not_disruptive_of_isPrintable hprintable hc⟩

end

theorem line_separator_escaped :
    '\u2028' ∉ ((Request.createMap "hash" "a\u0085b\u2028c" 4 8 1024).debug fun c => !disruptive c).toList := by
  intro hc
  have hprintable : ∀ c, disruptive c = true → (!disruptive c) = false := by simp
  have hfaithful := debug_faithful _ hprintable (.createMap "hash" "a\u0085b\u2028c" 4 8 1024) (.attach "" 0 "")
  exact absurd (hfaithful.2 _ hc).2 (by decide)

end BpfRbacd
