import BpfRbacd.Lib.Codec
import BpfRbacd.Protocol

/-!
# The wire format

Requests and responses travel in bincode's encoding. `Bincode` is what the code
relies on of that crate; `bincode` is an instance of it, built in the crate's
documented layout: a `u32` for the constructor, little-endian numbers, a byte
before an optional value and a `u64` length before a string.
-/

namespace BpfRbacd

open Coding (Codec Format)

/-- Both codecs, and how large a response gets. No string in memory comes near
the bound of the last two. -/
structure Bincode where
  request : Codec Request
  response : Codec Response
  length_success : ∀ fd, (response.serialize (.success (some fd))).length = 9
  denied_fits : ∀ reason size, size < 2 ^ 63 →
    ((response.serialize (.denied reason)).length ≤ size ↔ 12 + reason.utf8ByteSize ≤ size)
  error_fits : ∀ message size, size < 2 ^ 63 →
    ((response.serialize (.error message)).length ≤ size ↔ 12 + message.utf8ByteSize ≤ size)

theorem Bincode.request_ne_nil (wire : Bincode) (request : Request) :
    wire.request.serialize request ≠ [] := by
  cases request with
  | loadProgram => exact wire.request.serialize_ne_nil (b := .attach "" 0 "") (by simp)
  | createMap => exact wire.request.serialize_ne_nil (b := .attach "" 0 "") (by simp)
  | attach => exact wire.request.serialize_ne_nil (b := .loadProgram "" "" "") (by simp)

-- ---------------------------------------------------------------------------
-- Requests
-- ---------------------------------------------------------------------------

def RequestFields : Fin 3 → Type
  | 0 => String × String × String
  | 1 => String × String × UInt32 × UInt32 × UInt32
  | 2 => String × Int32 × String

def requestFields : (i : Fin 3) → Format (RequestFields i)
  | 0 => .pair .string (.pair .string .string)
  | 1 => .pair .string (.pair .string (.pair .u32 (.pair .u32 .u32)))
  | 2 => .pair .string (.pair .i32 .string)

def Request.toFields : Request → Σ i, RequestFields i
  | .loadProgram progType objectPath programName => ⟨0, progType, objectPath, programName⟩
  | .createMap mapType name keySize valueSize maxEntries =>
    ⟨1, mapType, name, keySize, valueSize, maxEntries⟩
  | .attach attachType progFd target => ⟨2, attachType, progFd, target⟩

def Request.ofFields : (Σ i, RequestFields i) → Request
  | ⟨0, progType, objectPath, programName⟩ => .loadProgram progType objectPath programName
  | ⟨1, mapType, name, keySize, valueSize, maxEntries⟩ =>
    .createMap mapType name keySize valueSize maxEntries
  | ⟨2, attachType, progFd, target⟩ => .attach attachType progFd target

def requestFormat : Format Request :=
  ((Format.variant 3 (by decide)).sigma requestFields).refine Request.toFields
    (fun x => some (.ofFields x)) fun request => by cases request <;> rfl

-- ---------------------------------------------------------------------------
-- Responses
-- ---------------------------------------------------------------------------

def ResponseFields : Fin 3 → Type
  | 0 => Option RawFd
  | 1 | 2 => String

def responseFields : (i : Fin 3) → Format (ResponseFields i)
  | 0 => .option .i32
  | 1 | 2 => .string

def Response.toFields : Response → Σ i, ResponseFields i
  | .success fd => ⟨0, fd⟩
  | .denied reason => ⟨1, reason⟩
  | .error message => ⟨2, message⟩

def Response.ofFields : (Σ i, ResponseFields i) → Response
  | ⟨0, fd⟩ => .success fd
  | ⟨1, reason⟩ => .denied reason
  | ⟨2, message⟩ => .error message

def responseFormat : Format Response :=
  ((Format.variant 3 (by decide)).sigma responseFields).refine Response.toFields
    (fun x => some (.ofFields x)) fun response => by cases response <;> rfl

/-- The text of a response comes after four bytes and a length. -/
theorem text_fits (tag : List UInt8) (htag : tag.length = 4) (s : String) {size : Nat}
    (hsize : size < 2 ^ 63) :
    (tag ++ Format.string.put s).length ≤ size ↔ 12 + s.utf8ByteSize ≤ size := by
  have hle := Format.le_length_put_string s
  rw [List.length_append, htag]
  by_cases h : s.utf8ByteSize < 2 ^ 64 - 1
  · rw [Format.length_put_string h]
    omega
  · omega

def bincode : Bincode where
  request := requestFormat.codec
  response := responseFormat.codec
  length_success fd := by
    show (_ ++ (Format.option .i32).put (some fd) : List UInt8).length = 9
    rw [List.length_append, Format.length_put_some, Format.length_put_i32]
    rfl
  denied_fits reason _ hsize := text_fits _ (Format.length_put_variant ..) reason hsize
  error_fits message _ hsize := text_fits _ (Format.length_put_variant ..) message hsize

theorem length_serialize_attach {attachType target : String} (hattach : attachType.utf8ByteSize < 2 ^ 64 - 1)
    (htarget : target.utf8ByteSize < 2 ^ 64 - 1) (progFd : RawFd) :
    (bincode.request.serialize (.attach attachType progFd target)).length =
      24 + attachType.utf8ByteSize + target.utf8ByteSize := by
  show (_ ++ (Format.string.put attachType ++ (Format.i32.put progFd ++ Format.string.put target)) :
    List UInt8).length = _
  simp only [List.length_append, Format.length_put_string hattach, Format.length_put_string htarget,
    Format.length_put_i32, Format.length_put_variant]
  omega

example : bincode.request.serialize (.attach "xdp" 3 "eth0") =
    [2, 0, 0, 0, 3, 0, 0, 0, 0, 0, 0, 0, 120, 100, 112, 3, 0, 0, 0,
      4, 0, 0, 0, 0, 0, 0, 0, 101, 116, 104, 48] := by rfl

end BpfRbacd
