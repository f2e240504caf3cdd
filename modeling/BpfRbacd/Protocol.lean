import BpfRbacd.Common
import Mathlib.Algebra.Ring.Nat

/-!
# Requests and responses of the proxy mode

`src/protocol.rs`: the messages, and the text `{:?}` prints for a request,
which the daemon quotes in a denial. Core's Unicode tables decide which
characters beyond ASCII are printed as they are; they are the parameter
`printable`.
-/

namespace BpfRbacd

abbrev RawFd := Int32

inductive Request where
  | loadProgram (progType objectPath programName : String)
  | createMap (mapType name : String) (keySize valueSize maxEntries : UInt32)
  | attach (attachType : String) (progFd : RawFd) (target : String)
  deriving DecidableEq, Repr

inductive Response where
  | success (fd : Option RawFd)
  | denied (reason : String)
  | error (message : String)
  deriving DecidableEq, Repr

section
variable (printable : Char → Bool)

def isPrintable (c : Char) : Bool :=
  if c.val < 0x80 then 0x20 ≤ c.val && c.val < 0x7f else printable c

/-- `char::escape_debug`, as the `Debug` of `str` calls it. -/
def escapeDebug (c : Char) : String :=
  if c.val = 0 then "\\0"
  else if c = '\t' then "\\t"
  else if c = '\r' then "\\r"
  else if c = '\n' then "\\n"
  else if c = '\"' then "\\\""
  else if c = '\\' then "\\\\"
  else if isPrintable printable c then c.toString
  else "\\u\x7b" ++ String.ofList (Nat.toDigits 16 c.toNat) ++ "\x7d"

def debugStr (s : String) : String :=
  "\"" ++ String.join (s.toList.map (escapeDebug printable)) ++ "\""

/-- What a derived `Debug` prints for a variant with named fields. -/
def debugStruct (name : String) (fields : List (String × String)) : String :=
  name ++ " \x7b " ++ ", ".intercalate (fields.map fun (field, value) => field ++ ": " ++ value) ++ " \x7d"

def Request.debug : Request → String
  | .loadProgram progType objectPath programName =>
    debugStruct "LoadProgram" [("prog_type", debugStr printable progType),
      ("object_path", debugStr printable objectPath), ("program_name", debugStr printable programName)]
  | .createMap mapType name keySize valueSize maxEntries =>
    debugStruct "CreateMap" [("map_type", debugStr printable mapType), ("name", debugStr printable name),
      ("key_size", toString keySize), ("value_size", toString valueSize), ("max_entries", toString maxEntries)]
  | .attach attachType progFd target =>
    debugStruct "Attach" [("attach_type", debugStr printable attachType), ("prog_fd", toString progFd),
      ("target", debugStr printable target)]

/-- An escaped character takes up to ten bytes for its own one to four. -/
theorem utf8ByteSize_debugStr (s : String) :
    (debugStr printable s).utf8ByteSize =
      2 + (s.toList.map fun c => (escapeDebug printable c).utf8ByteSize).sum := by
  have hjoin : ∀ l : List String, (String.join l).utf8ByteSize = (l.map String.utf8ByteSize).sum := by
    intro l
    induction l with
    | nil => rfl
    | cons s l ih => simp [String.join_cons, String.utf8ByteSize_append, ih]
  have hquote : "\"".utf8ByteSize = 1 := rfl
  simp only [debugStr, String.utf8ByteSize_append, hjoin, List.map_map, hquote, Function.comp_def]
  omega

theorem utf8ByteSize_debug_attach (attachType : String) (progFd : RawFd) (target : String) :
    (debugStr printable attachType).utf8ByteSize ≤
      ((Request.attach attachType progFd target).debug printable).utf8ByteSize := by
  simp only [Request.debug, debugStruct, List.map, String.intercalate_cons_cons,
    String.intercalate_singleton, String.utf8ByteSize_append]
  omega

end

example : (Request.attach "x\"dp" (-1) "é\n").debug (fun _ => true) =
    "Attach \x7b attach_type: \"x\\\"dp\", prog_fd: -1, target: \"é\\n\" \x7d" := by decide

end BpfRbacd
