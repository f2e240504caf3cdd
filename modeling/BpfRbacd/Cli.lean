import BpfRbacd.Lib.Numeral

/-!
# The command line client

`src/bin/bpf-rbac.rs`: the arguments of `create-map`, which come as flags or as
positional texts. `clap` has read the flags, their numbers included.
-/

namespace BpfRbacd.Cli

/-- `Commands::CreateMap`. -/
structure CreateMap where
  mapType : Option String
  name : Option String
  keySize : Option UInt32
  valueSize : Option UInt32
  maxEntries : Option UInt32
  positional : List String
  deriving DecidableEq, Repr

/-- The five components of what `resolve_create_map_args` returns. -/
structure CreateMapArgs where
  mapType : String
  name : String
  keySize : UInt32
  valueSize : UInt32
  maxEntries : UInt32
  deriving DecidableEq, Repr

/-- `str::parse::<u32>`. -/
def parseU32 (text : String) : Option UInt32 :=
  (Numeral.readSigned 10 UInt32.size text.toList).map UInt32.ofNat

def required (flag : String) (value : Option α) : Except String α :=
  match value with
  | some a => .ok a
  | none => .error (flag ++ " is required")

def number (field text : String) : Except String UInt32 :=
  match parseU32 text with
  | some n => .ok n
  | none => .error ("invalid " ++ field ++ " '" ++ text ++ "': expected a number")

def usage : String :=
  "Missing required arguments.\n\nUsage:\n  " ++
    "bpf-rbac create-map --type <TYPE> --name <NAME> --key-size <BYTES> --value-size <BYTES> " ++
    "[--max-entries <N>]\n  " ++
    "bpf-rbac create-map <type> <name> <key_size> <value_size> [max_entries]\n\nExamples:\n  " ++
    "bpf-rbac create-map --type hash --name my_counters --key-size 4 --value-size 8 " ++
    "--max-entries 1024\n  bpf-rbac create-map hash my_map 4 8 1024"

/-- The texts after the fourth; those after the fifth are not looked at. -/
def positionalMaxEntries (rest : List String) : Except String UInt32 :=
  match rest with
  | maxEntries :: _ => number "max_entries" maxEntries
  | [] => .ok 1024

def resolveCreateMapArgs (mapType name : Option String)
    (keySize valueSize maxEntries : Option UInt32) (positional : List String) :
    Except String CreateMapArgs :=
  let hasFlags := mapType.isSome || name.isSome || keySize.isSome || valueSize.isSome
  if hasFlags then do
    let mapType ← required "--type" mapType
    let name ← required "--name" name
    let keySize ← required "--key-size" keySize
    let valueSize ← required "--value-size" valueSize
    return { mapType, name, keySize, valueSize, maxEntries := maxEntries.getD 1024 }
  else
    match positional with
    | mapType :: name :: keySize :: valueSize :: rest => do
        let keySize ← number "key_size" keySize
        let valueSize ← number "value_size" valueSize
        let maxEntries ← positionalMaxEntries rest
        return { mapType, name, keySize, valueSize, maxEntries }
    | _ => .error usage

/-- The call in `main`. -/
def CreateMap.resolve (args : CreateMap) : Except String CreateMapArgs :=
  resolveCreateMapArgs args.mapType args.name args.keySize args.valueSize args.maxEntries
    args.positional

-- ---------------------------------------------------------------------------
-- The two uses
-- ---------------------------------------------------------------------------

theorem bind_ok {x : Except String α} {f : α → Except String β} {b : β} :
    (x >>= f) = .ok b ↔ ∃ a, x = .ok a ∧ f a = .ok b := by
  cases x with
  | error e =>
    constructor
    · intro h
      cases h
    · rintro ⟨_, h, _⟩
      cases h
  | ok a =>
    constructor
    · exact fun h => ⟨a, rfl, h⟩
    · rintro ⟨_, h, hf⟩
      cases h
      exact hf

/-- The number read fits, so it is the number returned. -/
theorem parseU32_ok {text : String} {n : UInt32} :
    parseU32 text = some n ↔ Numeral.readSigned 10 UInt32.size text.toList = some n.toNat := by
  unfold parseU32
  rw [Option.map_eq_some_iff]
  constructor
  · rintro ⟨m, hm, rfl⟩
    have hlt := Numeral.readSigned_lt (by decide) hm
    rw [hm, UInt32.toNat_ofNat_of_lt' hlt]
  · exact fun h => ⟨n.toNat, h, UInt32.ofNat_toNat⟩

theorem parseU32_toString (n : UInt32) : parseU32 (toString n) = some n := by
  rw [parseU32_ok]
  show Numeral.readSigned 10 UInt32.size n.toNat.repr.toList = _
  rw [Nat.toList_repr]
  exact Numeral.readSigned_toDigits (by omega) (by omega) n.toNat_lt_size

theorem required_ok {flag : String} {value : Option α} {a : α} :
    required flag value = .ok a ↔ value = some a := by
  cases value <;> simp [required]

theorem number_ok {field text : String} {n : UInt32} :
    number field text = .ok n ↔ parseU32 text = some n := by
  unfold number
  split <;> simp_all

/-- What the texts after the fourth say about the number of entries. -/
def entriesOf (rest : List String) : Option UInt32 :=
  match rest with
  | maxEntries :: _ => parseU32 maxEntries
  | [] => some 1024

theorem positionalMaxEntries_ok {rest : List String} {n : UInt32} :
    positionalMaxEntries rest = .ok n ↔ entriesOf rest = some n := by
  cases rest with
  | nil => simp [positionalMaxEntries, entriesOf]
  | cons text rest => exact number_ok

/-- One of the four flags that ask for the use with flags. -/
def CreateMap.HasFlags (args : CreateMap) : Prop :=
  args.mapType.isSome ∨ args.name.isSome ∨ args.keySize.isSome ∨ args.valueSize.isSome

theorem CreateMap.hasFlags_iff {args : CreateMap} : args.HasFlags ↔
    (args.mapType.isSome || args.name.isSome || args.keySize.isSome ||
      args.valueSize.isSome) = true := by
  simp only [CreateMap.HasFlags, Bool.or_eq_true, or_assoc]

/-- The result is what the flags say. -/
structure CreateMap.ByFlags (args : CreateMap) (result : CreateMapArgs) : Prop where
  mapType : args.mapType = some result.mapType
  name : args.name = some result.name
  keySize : args.keySize = some result.keySize
  valueSize : args.valueSize = some result.valueSize
  maxEntries : args.maxEntries.getD 1024 = result.maxEntries

/-- The result is what the positional texts say. -/
structure CreateMap.ByPosition (args : CreateMap) (result : CreateMapArgs) : Prop where
  noFlags : ¬ args.HasFlags
  texts : ∃ keySize valueSize rest,
    args.positional = result.mapType :: result.name :: keySize :: valueSize :: rest ∧
    parseU32 keySize = some result.keySize ∧ parseU32 valueSize = some result.valueSize ∧
    entriesOf rest = some result.maxEntries

theorem resolve_flags {args : CreateMap} (h : args.HasFlags) {result : CreateMapArgs} :
    args.resolve = .ok result ↔ args.ByFlags result := by
  have hflags := CreateMap.hasFlags_iff.mp h
  unfold CreateMap.resolve resolveCreateMapArgs
  simp only [hflags, if_true, bind_ok, required_ok]
  constructor
  · rintro ⟨mapType, hmapType, name, hname, keySize, hkeySize, valueSize, hvalueSize, hresult⟩
    cases hresult
    exact ⟨hmapType, hname, hkeySize, hvalueSize, rfl⟩
  · rintro ⟨hmapType, hname, hkeySize, hvalueSize, hmaxEntries⟩
    exact ⟨_, hmapType, _, hname, _, hkeySize, _, hvalueSize, by rw [hmaxEntries]; rfl⟩

theorem resolve_positional {args : CreateMap} (h : ¬ args.HasFlags) {result : CreateMapArgs} :
    args.resolve = .ok result ↔ args.ByPosition result := by
  have hflags := Bool.eq_false_iff.mpr fun hsome => h (CreateMap.hasFlags_iff.mpr hsome)
  unfold CreateMap.resolve resolveCreateMapArgs
  simp only [hflags, Bool.false_eq_true, if_false]
  split
  · rename_i mapType name keySize valueSize rest hpositional
    simp only [bind_ok, number_ok, positionalMaxEntries_ok]
    constructor
    · rintro ⟨k, hkeySize, v, hvalueSize, n, hmaxEntries, hresult⟩
      cases hresult
      exact ⟨h, keySize, valueSize, rest, hpositional, hkeySize, hvalueSize, hmaxEntries⟩
    · rintro ⟨-, keySize', valueSize', rest', hpositional', hkeySize, hvalueSize, hmaxEntries⟩
      rw [hpositional] at hpositional'
      cases hpositional'
      exact ⟨_, hkeySize, _, hvalueSize, _, hmaxEntries, rfl⟩
  · rename_i hfew
    constructor
    · intro hresult
      cases hresult
    · rintro ⟨-, keySize, valueSize, rest, hpositional, -⟩
      exact absurd hpositional (hfew _ _ _ _ _)

/-- Every request can be made by flags. -/
theorem resolve_byFlags (result : CreateMapArgs) :
    CreateMap.resolve ⟨some result.mapType, some result.name, some result.keySize,
      some result.valueSize, some result.maxEntries, []⟩ = .ok result :=
  (resolve_flags (.inl rfl)).mpr ⟨rfl, rfl, rfl, rfl, rfl⟩

/-- Every request can be made by position. -/
theorem resolve_byPosition (result : CreateMapArgs) :
    CreateMap.resolve ⟨none, none, none, none, none,
      [result.mapType, result.name, toString result.keySize, toString result.valueSize,
        toString result.maxEntries]⟩ = .ok result := by
  have hflags : ¬ CreateMap.HasFlags ⟨none, none, none, none, none,
      [result.mapType, result.name, toString result.keySize, toString result.valueSize,
        toString result.maxEntries]⟩ := by
    simp [CreateMap.HasFlags]
  refine (resolve_positional hflags).mpr ⟨hflags, _, _, _, rfl, ?_, ?_, ?_⟩
  · exact parseU32_toString result.keySize
  · exact parseU32_toString result.valueSize
  · exact parseU32_toString result.maxEntries

-- ---------------------------------------------------------------------------
-- What was given and what is returned
-- ---------------------------------------------------------------------------

/-- Each text is the component of its place or reads as it, and none is without a place. -/
structure Says (positional : List String) (result : CreateMapArgs) : Prop where
  mapType : ∀ text ∈ positional[0]?, text = result.mapType
  name : ∀ text ∈ positional[1]?, text = result.name
  keySize : ∀ text ∈ positional[2]?, parseU32 text = some result.keySize
  valueSize : ∀ text ∈ positional[3]?, parseU32 text = some result.valueSize
  maxEntries : ∀ text ∈ positional[4]?, parseU32 text = some result.maxEntries
  atMostFive : positional.length ≤ 5

/-- Nothing that was given is lost. -/
structure CreateMap.Kept (args : CreateMap) (result : CreateMapArgs) : Prop where
  mapType : ∀ given ∈ args.mapType, given = result.mapType
  name : ∀ given ∈ args.name, given = result.name
  keySize : ∀ given ∈ args.keySize, given = result.keySize
  valueSize : ∀ given ∈ args.valueSize, given = result.valueSize
  maxEntries : ∀ given ∈ args.maxEntries, given = result.maxEntries
  positional : Says args.positional result

/-- What is returned keeps all that was given, and where nothing can the call is rejected. -/
def CreateMap.Heard (args : CreateMap) : Prop :=
  (∀ result, args.resolve = .ok result → args.Kept result) ∧
  ((∀ result, ¬ args.Kept result) → ∃ error, args.resolve = .error error)

/-- Beside four flags the positional texts only repeat them; without the four flags there is
no sixth text, and `--max-entries` repeats the fifth or the default. -/
structure CreateMap.Consistent (args : CreateMap) : Prop where
  flags : ∀ mapType name keySize valueSize, args.mapType = some mapType → args.name = some name →
    args.keySize = some keySize → args.valueSize = some valueSize →
    Says args.positional ⟨mapType, name, keySize, valueSize, args.maxEntries.getD 1024⟩
  positional : ¬ args.HasFlags → ∀ mapType name keySize valueSize rest,
    args.positional = mapType :: name :: keySize :: valueSize :: rest →
    (parseU32 keySize).isSome → (parseU32 valueSize).isSome → (entriesOf rest).isSome →
    rest.length ≤ 1 ∧ ∀ given ∈ args.maxEntries, entriesOf rest = some given

theorem CreateMap.ByFlags.hasFlags {args : CreateMap} {result : CreateMapArgs}
    (h : args.ByFlags result) : args.HasFlags := by
  left
  rw [h.mapType]
  rfl

theorem CreateMap.ByFlags.kept {args : CreateMap} {result : CreateMapArgs}
    (h : args.ByFlags result) : args.Kept result ↔ Says args.positional result := by
  refine ⟨fun hkept => hkept.positional, fun hsays => ?_⟩
  refine ⟨?_, ?_, ?_, ?_, ?_, hsays⟩
  · intro given hgiven
    exact Option.some.inj (hgiven.symm.trans h.mapType)
  · intro given hgiven
    exact Option.some.inj (hgiven.symm.trans h.name)
  · intro given hgiven
    exact Option.some.inj (hgiven.symm.trans h.keySize)
  · intro given hgiven
    exact Option.some.inj (hgiven.symm.trans h.valueSize)
  · intro given hgiven
    rw [← h.maxEntries, Option.mem_def.mp hgiven, Option.getD_some]

theorem length_texts {mapType name keySize valueSize : String} {rest : List String} :
    (mapType :: name :: keySize :: valueSize :: rest).length ≤ 5 ↔ rest.length ≤ 1 := by
  simp only [List.length_cons]
  omega

theorem says_texts {mapType name keySize valueSize : String} {rest : List String}
    {result : CreateMapArgs} (hkeySize : parseU32 keySize = some result.keySize)
    (hvalueSize : parseU32 valueSize = some result.valueSize)
    (hmaxEntries : entriesOf rest = some result.maxEntries) (hmapType : mapType = result.mapType)
    (hname : name = result.name) :
    Says (mapType :: name :: keySize :: valueSize :: rest) result ↔ rest.length ≤ 1 := by
  constructor
  · exact fun hsays => length_texts.mp hsays.atMostFive
  · intro hrest
    refine ⟨?_, ?_, ?_, ?_, ?_, length_texts.mpr hrest⟩
    · rintro text ⟨⟩
      exact hmapType
    · rintro text ⟨⟩
      exact hname
    · rintro text ⟨⟩
      exact hkeySize
    · rintro text ⟨⟩
      exact hvalueSize
    · intro text htext
      cases rest with
      | nil => cases htext
      | cons fifth rest =>
        cases htext
        exact hmaxEntries

theorem CreateMap.not_hasFlags {args : CreateMap} (h : ¬ args.HasFlags) :
    args.mapType = none ∧ args.name = none ∧ args.keySize = none ∧ args.valueSize = none := by
  simpa [CreateMap.HasFlags] using h

theorem CreateMap.ByPosition.kept {args : CreateMap} {result : CreateMapArgs}
    (h : args.ByPosition result) : args.Kept result ↔
      args.positional.length ≤ 5 ∧ ∀ given ∈ args.maxEntries, given = result.maxEntries := by
  obtain ⟨keySize, valueSize, rest, hpositional, hkeySize, hvalueSize, hmaxEntries⟩ := h.texts
  obtain ⟨hmapTypeFlag, hnameFlag, hkeySizeFlag, hvalueSizeFlag⟩ := CreateMap.not_hasFlags h.noFlags
  have hsays := says_texts hkeySize hvalueSize hmaxEntries rfl rfl
  rw [← length_texts, ← hpositional] at hsays
  rw [← hsays]
  constructor
  · exact fun hkept => ⟨hkept.positional, hkept.maxEntries⟩
  · rintro ⟨hpos, hgiven⟩
    refine ⟨?_, ?_, ?_, ?_, hgiven, hpos⟩
    · simp [hmapTypeFlag]
    · simp [hnameFlag]
    · simp [hkeySizeFlag]
    · simp [hvalueSizeFlag]

theorem CreateMap.heard_of_kept {args : CreateMap}
    (h : ∀ result, args.resolve = .ok result → args.Kept result) : args.Heard := by
  refine ⟨h, fun hnone => ?_⟩
  cases hresult : args.resolve with
  | ok result => exact absurd (h result hresult) (hnone result)
  | error error => exact ⟨error, rfl⟩

theorem CreateMap.Consistent.kept {args : CreateMap} (h : args.Consistent) {result : CreateMapArgs}
    (hresult : args.resolve = .ok result) : args.Kept result := by
  by_cases hflags : args.HasFlags
  · have hby := (resolve_flags hflags).mp hresult
    have hsays := h.flags _ _ _ _ hby.mapType hby.name hby.keySize hby.valueSize
    rw [hby.maxEntries] at hsays
    exact hby.kept.mpr hsays
  · have hby := (resolve_positional hflags).mp hresult
    obtain ⟨keySize, valueSize, rest, hpositional, hkeySize, hvalueSize, hmaxEntries⟩ := hby.texts
    obtain ⟨hrest, hgiven⟩ := h.positional hflags _ _ _ _ _ hpositional (by simp [hkeySize])
      (by simp [hvalueSize]) (by simp [hmaxEntries])
    refine hby.kept.mpr ⟨?_, fun given hmem => ?_⟩
    · rw [hpositional]
      exact length_texts.mpr hrest
    · exact Option.some.inj ((hgiven given hmem).symm.trans hmaxEntries)

theorem CreateMap.Heard.consistent {args : CreateMap} (h : args.Heard) : args.Consistent := by
  constructor
  · intro mapType name keySize valueSize hmapType hname hkeySize hvalueSize
    have hby : args.ByFlags ⟨mapType, name, keySize, valueSize, args.maxEntries.getD 1024⟩ :=
      ⟨hmapType, hname, hkeySize, hvalueSize, rfl⟩
    exact hby.kept.mp (h.1 _ ((resolve_flags hby.hasFlags).mpr hby))
  · intro hflags mapType name keySize valueSize rest hpositional hkeySize hvalueSize hmaxEntries
    obtain ⟨k, hk⟩ := Option.isSome_iff_exists.mp hkeySize
    obtain ⟨v, hv⟩ := Option.isSome_iff_exists.mp hvalueSize
    obtain ⟨n, hn⟩ := Option.isSome_iff_exists.mp hmaxEntries
    have hby : args.ByPosition ⟨mapType, name, k, v, n⟩ :=
      ⟨hflags, keySize, valueSize, rest, hpositional, hk, hv, hn⟩
    obtain ⟨hlength, hgiven⟩ := hby.kept.mp (h.1 _ ((resolve_positional hflags).mpr hby))
    rw [hpositional] at hlength
    refine ⟨length_texts.mp hlength, fun given hmem => ?_⟩
    rw [hn, hgiven given hmem]

/-- No argument is lost exactly where the two uses are not mixed, or say the same. -/
theorem heard_iff_consistent (args : CreateMap) : args.Heard ↔ args.Consistent :=
  ⟨fun h => h.consistent, fun h => CreateMap.heard_of_kept fun _ => h.kept⟩

/-- `bpf-rbac create-map --max-entries 4096 hash foo 4 8`. -/
def mixedUse : CreateMap := ⟨none, none, none, none, some 4096, ["hash", "foo", "4", "8"]⟩

theorem mixedUse_not_heard : ¬ mixedUse.Heard := by
  intro h
  have hresult : mixedUse.resolve = .ok ⟨"hash", "foo", 4, 8, 1024⟩ := by decide
  have hmaxEntries := (h.1 _ hresult).maxEntries 4096 rfl
  exact absurd hmaxEntries (by decide)

end BpfRbacd.Cli
