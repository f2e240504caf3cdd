import BpfRbacd.Lib.Numeral
import BpfRbacd.Namespace

/-!
# Mount data

`to_mount_data` read back: split at the commas, each piece at its equals sign,
the value as a hexadecimal number after `0x`.
-/

namespace BpfRbacd.Namespace

/-- A `u32` in hexadecimal after `0x`. -/
def readHex (value : List Char) : Option UInt32 :=
  match value with
  | '0' :: 'x' :: digits => (Numeral.readNumeral 16 UInt32.size digits).map UInt32.ofNat
  | _ => none

def readOption (piece : List Char) : Option (String × UInt32) :=
  match piece.splitOn '=' with
  | [key, value] => (readHex value).map fun n => (String.ofList key, n)
  | _ => none

def readMountData (data : String) : List (Option (String × UInt32)) :=
  (data.toList.splitOn ',').map readOption

theorem readHex_lowerHex (n : UInt32) : readHex (lowerHex n).toList = some n := by
  have htext : (lowerHex n).toList = '0' :: 'x' :: Nat.toDigits 16 n.toNat := by
    simp only [lowerHex, String.toList_append, String.toList_ofList]
    rfl
  have hread : Numeral.readNumeral 16 UInt32.size (Nat.toDigits 16 n.toNat) = some n.toNat :=
    Numeral.readNumeral_toDigits (by omega) (by omega) n.toNat_lt_size
  rw [htext, readHex, hread, Option.map_some, UInt32.ofNat_toNat]

theorem not_mem_lowerHex (n : UInt32) {c : Char} (hc : Numeral.toDigit 16 c = none) (hx : c ≠ 'x') :
    c ∉ (lowerHex n).toList := by
  have hdigits : c ∉ Nat.toDigits 16 n.toNat :=
    Numeral.not_mem_toDigits (by omega) (by omega) n.toNat hc
  have hzero : c ≠ '0' := fun h => by
    subst h
    cases hc
  simp only [lowerHex, String.toList_append, String.toList_ofList, List.mem_append, not_or]
  refine ⟨?_, hdigits⟩
  show c ∉ ['0', 'x']
  simp only [List.mem_cons, List.not_mem_nil, or_false, not_or]
  exact ⟨hzero, hx⟩

/-- `key=value` as `to_mount_data` writes it. -/
def mountOption (key : String) (n : UInt32) : List Char := key.toList ++ '=' :: (lowerHex n).toList

theorem readOption_mountOption {key : String} (hkey : '=' ∉ key.toList) (n : UInt32) :
    readOption (mountOption key n) = some (key, n) := by
  have hvalue : '=' ∉ (lowerHex n).toList := not_mem_lowerHex n rfl (by decide)
  rw [readOption, mountOption, List.splitOn_append_cons_self_of_not_mem hkey,
    List.splitOn_eq_singleton hvalue]
  simp only [readHex_lowerHex, Option.map_some, String.ofList_toList]

theorem not_mem_mountOption {key : String} (hkey : ',' ∉ key.toList) (n : UInt32) :
    ',' ∉ mountOption key n := by
  have hvalue : ',' ∉ (lowerHex n).toList := not_mem_lowerHex n rfl (by decide)
  simp only [mountOption, List.mem_append, List.mem_cons, not_or]
  exact ⟨hkey, by decide, hvalue⟩

def DelegationOpts.options (opts : DelegationOpts) : List (String × UInt32) :=
  [("delegate_cmds", opts.delegateCmds), ("delegate_progs", opts.delegateProgs),
    ("delegate_maps", opts.delegateMaps), ("delegate_attachs", opts.delegateAttachs)]

theorem toList_toMountData (opts : DelegationOpts) :
    opts.toMountData.toList =
      [','].intercalate (opts.options.map fun option => mountOption option.1 option.2) := by
  have hcmds : "delegate_cmds=".toList = "delegate_cmds".toList ++ ['='] := rfl
  have hprogs : ",delegate_progs=".toList = ',' :: "delegate_progs".toList ++ ['='] := rfl
  have hmaps : ",delegate_maps=".toList = ',' :: "delegate_maps".toList ++ ['='] := rfl
  have hattachs : ",delegate_attachs=".toList = ',' :: "delegate_attachs".toList ++ ['='] := rfl
  unfold DelegationOpts.toMountData
  simp only [String.toList_append, hcmds, hprogs, hmaps, hattachs, DelegationOpts.options,
    mountOption, List.map_cons, List.map_nil, List.intercalate_cons_cons,
    List.intercalate_singleton, List.append_assoc, List.cons_append, List.nil_append]

/-- No key of the four holds a separator. -/
theorem options_keys (opts : DelegationOpts) :
    ∀ option ∈ opts.options, ',' ∉ option.1.toList ∧ '=' ∉ option.1.toList := by
  intro option hoption
  simp only [DelegationOpts.options, List.mem_cons, List.not_mem_nil, or_false] at hoption
  rcases hoption with rfl | rfl | rfl | rfl <;> constructor <;> simp

theorem readMountData_options (opts : DelegationOpts) :
    readMountData opts.toMountData = opts.options.map some := by
  have hseparated : ∀ piece ∈ opts.options.map fun option => mountOption option.1 option.2,
      ',' ∉ piece := by
    intro piece hpiece
    obtain ⟨option, hoption, rfl⟩ := List.mem_map.mp hpiece
    exact not_mem_mountOption (options_keys opts option hoption).1 option.2
  have hsome : opts.options.map (fun option => mountOption option.1 option.2) ≠ [] :=
    List.cons_ne_nil _ _
  rw [readMountData, toList_toMountData, List.splitOn_intercalate ',' hseparated hsome,
    List.map_map]
  refine List.map_congr_left fun option hoption => ?_
  exact readOption_mountOption (options_keys opts option hoption).2 option.2

theorem options_injective {opts opts' : DelegationOpts} (h : opts.options = opts'.options) :
    opts = opts' := by
  cases opts
  cases opts'
  simp only [DelegationOpts.options, List.cons.injEq, Prod.mk.injEq, true_and, and_true] at h
  obtain ⟨rfl, rfl, rfl, rfl⟩ := h
  rfl

theorem toMountData_injective {opts opts' : DelegationOpts}
    (h : opts.toMountData = opts'.toMountData) : opts = opts' := by
  have hread := readMountData_options opts
  rw [h, readMountData_options] at hread
  have hoptions : opts'.options = opts.options :=
    (List.map_inj_right fun _ _ => Option.some.inj).mp hread
  exact options_injective hoptions.symm

/-- Split at the commas, the mount data is the four options, each under its own key. -/
theorem toMountData_faithful :
    (∀ opts : DelegationOpts, readMountData opts.toMountData =
      [some ("delegate_cmds", opts.delegateCmds), some ("delegate_progs", opts.delegateProgs),
        some ("delegate_maps", opts.delegateMaps),
        some ("delegate_attachs", opts.delegateAttachs)]) ∧
    Function.Injective DelegationOpts.toMountData :=
  ⟨readMountData_options, fun _ _ => toMountData_injective⟩

end BpfRbacd.Namespace
