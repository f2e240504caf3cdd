import BpfRbacd.Lib.AllowList
import BpfRbacd.Policy

/-!
# What the bitmaps grant

Names carry kernel numbers, so a list of names grants a set of numbers, and the
ceiling should cap it by intersection. `u32Bits_bitmapUnder` says what the code
computes: the capped set for a role without the wildcard, and every number,
whatever the ceiling, for a role with it. `bitmaps_meet_ceiling_iff` draws the
line exactly for the three bitmaps.
-/

namespace BpfRbacd

open AllowList (granted numbers under)

-- ---------------------------------------------------------------------------
-- The tables
-- ---------------------------------------------------------------------------

def Numbered (toBit : String → Option UInt32) (name : String) (i : Fin 32) : Prop :=
  ∃ n, toBit name = some n ∧ n.toNat = i.val

theorem lookup_mem {table : List (String × UInt32)} (h : table.lookup name = some n) :
    (name, n) ∈ table := by
  obtain ⟨before, after, rfl, -⟩ := List.lookup_eq_some_iff.mp h
  simp

/-- The shifts of the bitmap loops never overflow. -/
def InWord (toBit : String → Option UInt32) : Prop := ∀ name n, toBit name = some n → n < 32

theorem inWord_of_table {table : List (String × UInt32)} (h : ∀ row ∈ table, row.2 < 32) :
    InWord (table.lookup ·) :=
  fun _ _ hn => h _ (lookup_mem hn)

theorem progTypeToBit_inWord : InWord progTypeToBit := inWord_of_table (by decide)
theorem mapTypeToBit_inWord : InWord mapTypeToBit := inWord_of_table (by decide)
theorem commandToBit_inWord : InWord commandToBit := inWord_of_table (by decide)

theorem InWord.numbered (h : InWord toBit) (hn : toBit name = some n) :
    Numbered toBit name ⟨n.toNat, UInt32.lt_iff_toNat_lt.mp (h _ _ hn)⟩ := ⟨n, hn, rfl⟩

theorem Numbered.unique (hi : Numbered toBit name i) (hj : Numbered toBit name j) : i = j := by
  obtain ⟨m, hm, him⟩ := hi
  obtain ⟨n, hn, hjn⟩ := hj
  have hmn : m = n := Option.some.inj (hm.symm.trans hn)
  exact Fin.ext (by rw [← him, ← hjn, hmn])

theorem not_numbered_zero {table : List (String × UInt32)} (h : ∀ row ∈ table, row.2 ≠ 0) :
    ¬ Numbered (table.lookup ·) name 0 := by
  rintro ⟨n, hn, hz⟩
  exact h _ (lookup_mem hn) (UInt32.toNat_inj.mp hz)

/-- Every number below 32 is a command's, and of one command only. -/
theorem commandToBit_numbered (i : Fin 32) :
    ∃ row ∈ commandNumbers, Numbered commandToBit row.1 i ∧
      ∀ name, Numbered commandToBit name i → name = row.1 := by
  have hrow : ∀ i : Fin 32, ∃ row ∈ commandNumbers, commandToBit row.1 = some row.2 ∧
      row.2.toNat = i.val ∧ ∀ other ∈ commandNumbers, other.2.toNat = i.val → other.1 = row.1 := by
    decide
  obtain ⟨row, hmem, hbit, hval, huniq⟩ := hrow i
  refine ⟨row, hmem, ⟨row.2, hbit, hval⟩, ?_⟩
  rintro name ⟨n, hn, hni⟩
  exact huniq (name, n) (lookup_mem hn) hni

-- ---------------------------------------------------------------------------
-- The bitmap loops
-- ---------------------------------------------------------------------------

theorem u32Bits_addName (h : InWord toBit) (bitmap : UInt32) (name : String) :
    u32Bits (addName toBit bitmap name) = u32Bits bitmap ∪ {i | Numbered toBit name i} := by
  cases hn : toBit name with
  | none => simp [addName, Numbered, hn]
  | some n =>
    ext i
    simp [addName, Numbered, hn, mem_u32Bits_one_shiftLeft (h _ _ hn), eq_comm]

theorem u32Bits_namesBitmap (h : InWord toBit) (names : List String) :
    u32Bits (namesBitmap toBit names) = {i | ∃ name ∈ names, Numbered toBit name i} := by
  rw [namesBitmap, Bits.foldl_union (u32Bits_addName h)]
  simp

theorem u32Bits_listed (h : InWord toBit) (names : List String) :
    u32Bits (if "any" ∈ names then 0xFFFFFFFF else namesBitmap toBit names) =
      numbers (Numbered toBit) "any" names := by
  by_cases hany : "any" ∈ names
  · simp [hany, AllowList.numbers_wild hany]
  · ext i
    simp [hany, u32Bits_namesBitmap h, AllowList.mem_numbers_of_not_wild hany]

theorem u32Bits_bitmapUnder (h : InWord toBit) (roleNames : List String)
    (systemNames : Option (List String)) :
    u32Bits (bitmapUnder toBit roleNames systemNames) =
      if "any" ∈ roleNames then Set.univ
      else under (systemNames.map (numbers (Numbered toBit) "any"))
        (numbers (Numbered toBit) "any" roleNames) := by
  by_cases hany : "any" ∈ roleNames
  · simp [bitmapUnder, hany]
  · have hrole := u32Bits_listed h roleNames
    rw [if_neg hany] at hrole
    cases systemNames with
    | none => simp [bitmapUnder, hany, hrole]
    | some names => simp [bitmapUnder, hany, hrole, u32Bits_listed h names]

theorem u32Bits_bitmapUnder_none (h : InWord toBit) (names : List String) :
    u32Bits (bitmapUnder toBit names none) = numbers (Numbered toBit) "any" names := by
  rw [u32Bits_bitmapUnder h]
  split
  · rename_i hany; exact (AllowList.numbers_wild hany).symm
  · simp

theorem under_subset_bitmapUnder (h : InWord toBit) (roleNames : List String)
    (systemNames : Option (List String)) :
    under (systemNames.map (numbers (Numbered toBit) "any")) (numbers (Numbered toBit) "any" roleNames) ⊆
      u32Bits (bitmapUnder toBit roleNames systemNames) := by
  rw [u32Bits_bitmapUnder h]
  split
  · exact Set.subset_univ _
  · exact Set.Subset.rfl

-- ---------------------------------------------------------------------------
-- The ceiling
-- ---------------------------------------------------------------------------

/-- Only a wildcard role sees a difference, and only under a ceiling that
leaves a number out. -/
theorem bitmapUnder_meets_iff (h : InWord toBit) (roleNames names : List String) :
    (bitmapUnder toBit roleNames (some names) =
        bitmapUnder toBit roleNames none &&& bitmapUnder toBit names none ∧
      u32Bits (bitmapUnder toBit roleNames (some names)) ⊆ u32Bits (bitmapUnder toBit names none)) ↔
      ("any" ∈ roleNames → numbers (Numbered toBit) "any" names = Set.univ) := by
  rw [← u32Bits_inj, u32Bits_and, u32Bits_bitmapUnder_none h, u32Bits_bitmapUnder_none h,
    u32Bits_bitmapUnder h]
  by_cases hany : "any" ∈ roleNames
  · simp [hany, AllowList.numbers_wild hany, Set.univ_subset_iff, eq_comm]
  · simp [hany]

theorem numbers_eq_univ_of_zero (h : ∀ name, ¬ Numbered toBit name 0) (names : List String) :
    numbers (Numbered toBit) "any" names = Set.univ ↔ "any" ∈ names := by
  constructor
  · intro huniv
    by_contra hany
    have hz : (0 : Fin 32) ∈ numbers (Numbered toBit) "any" names := huniv ▸ Set.mem_univ _
    obtain ⟨name, -, hn⟩ := (AllowList.mem_numbers_of_not_wild hany).mp hz
    exact h name hn
  · exact AllowList.numbers_wild

theorem numbers_commands_eq_univ (names : List String) :
    numbers (Numbered commandToBit) "any" names = Set.univ ↔
      "any" ∈ names ∨ ∀ row ∈ commandNumbers, row.1 ∈ names := by
  constructor
  · intro huniv
    by_cases hany : "any" ∈ names
    · exact .inl hany
    · right
      have hself : ∀ row ∈ commandNumbers, commandToBit row.1 = some row.2 := by decide
      intro row hrow
      obtain ⟨i, hnum⟩ : ∃ i, Numbered commandToBit row.1 i :=
        ⟨_, commandToBit_inWord.numbered (hself row hrow)⟩
      -- the only name that carries this number is the row's own
      obtain ⟨own, -, -, huniq⟩ := commandToBit_numbered i
      have hi : i ∈ numbers (Numbered commandToBit) "any" names := huniv ▸ Set.mem_univ i
      obtain ⟨name, hname, hn⟩ := (AllowList.mem_numbers_of_not_wild hany).mp hi
      rw [huniq _ hnum, ← huniq name hn]
      exact hname
  · rintro (hany | hall)
    · exact AllowList.numbers_wild hany
    · refine Set.eq_univ_of_forall fun i => ?_
      obtain ⟨row, hrow, hn, -⟩ := commandToBit_numbered i
      exact .inr ⟨row.1, hall row hrow, hn⟩

/-- A system policy's own lists, read as a role. -/
def SystemPolicy.asRole (system : SystemPolicy) : Role where
  description := none
  groups := []
  commands := system.commands
  progTypes := system.progTypes
  mapTypes := system.mapTypes

/-- Under `system` the role's bitmap is the meet of its own and the ceiling's,
so no bit outside the ceiling is set. -/
def MeetsCeiling (bitmap : Policy → Role → UInt32) (roles : HashMap Role) (system : SystemPolicy)
    (role : Role) : Prop :=
  bitmap ⟨⟨some system, roles⟩⟩ role =
      bitmap ⟨⟨none, roles⟩⟩ role &&& bitmap ⟨⟨none, roles⟩⟩ system.asRole ∧
    u32Bits (bitmap ⟨⟨some system, roles⟩⟩ role) ⊆ u32Bits (bitmap ⟨⟨none, roles⟩⟩ system.asRole)

/-- A wildcard role escapes every ceiling that does not itself allow all 32
numbers. Type names leave some number out, so there only a wildcard ceiling
will do; the commands cover all 32. -/
theorem bitmaps_meet_ceiling_iff (roles : HashMap Role) (system : SystemPolicy) (role : Role) :
    (MeetsCeiling Policy.progTypesBitmap roles system role ↔
      ("any" ∈ role.progTypes → "any" ∈ system.progTypes)) ∧
    (MeetsCeiling Policy.mapTypesBitmap roles system role ↔
      ("any" ∈ role.mapTypes → "any" ∈ system.mapTypes)) ∧
    (MeetsCeiling Policy.commandsBitmap roles system role ↔
      ("any" ∈ role.commands →
        "any" ∈ system.commands ∨ ∀ row ∈ commandNumbers, row.1 ∈ system.commands)) := by
  refine ⟨?_, ?_, ?_⟩
  · have hzero : ∀ name, ¬ Numbered progTypeToBit name 0 := fun _ => not_numbered_zero (by decide)
    exact (bitmapUnder_meets_iff progTypeToBit_inWord _ _).trans
      (imp_congr_right fun _ => numbers_eq_univ_of_zero hzero _)
  · have hzero : ∀ name, ¬ Numbered mapTypeToBit name 0 := fun _ => not_numbered_zero (by decide)
    exact (bitmapUnder_meets_iff mapTypeToBit_inWord _ _).trans
      (imp_congr_right fun _ => numbers_eq_univ_of_zero hzero _)
  · exact (bitmapUnder_meets_iff commandToBit_inWord _ _).trans
      (imp_congr_right fun _ => numbers_commands_eq_univ _)

/-- `prog_types: {any: [any]}` under a ceiling that lists `kprobe` only. -/
theorem wildcard_role_exceeds_ceiling :
    ¬ MeetsCeiling Policy.progTypesBitmap ∅
      { progTypes := (∅ : HashMap (List String)).insert "kprobe" ["load", "attach"] }
      { description := none, groups := ["ebpf-admin"],
        progTypes := (∅ : HashMap (List String)).insert "any" ["any"] } := by
  rintro ⟨h, -⟩
  revert h
  decide

end BpfRbacd
