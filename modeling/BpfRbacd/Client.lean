import BpfRbacd.Lib.Interaction
import BpfRbacd.Protocol

/-!
# The client library

`mod client` of `src/protocol.rs`. The socket and bincode answer its calls; a
failed call answers with the text of its error. `recvmsg` answers with the part
of the buffer it filled and the control messages that came along; there is room
for one descriptor.
-/

namespace BpfRbacd.Client

open Interaction (Prog Fallible perform)

inductive ControlMessage where
  | scmRights (fds : List RawFd)
  | other

structure RecvMsg where
  bytes : List UInt8
  cmsgs : List ControlMessage

inductive Op where
  | connect (path : String)
  | serialize (request : Request)
  | writeAll (stream : RawFd) (data : List UInt8)
  | recvmsg (stream : RawFd) (size fds : Nat)
  | deserialize (bytes : List UInt8)

@[reducible] def Res : Op → Type
  | .connect _ => Except String RawFd
  | .serialize _ => Except String (List UInt8)
  | .writeAll .. => Except String Unit
  | .recvmsg .. => Except String RecvMsg
  | .deserialize _ => Except String Response

abbrev ClientM := Fallible Op Res String

def issue (op : Op) : Prog Op Res (Res op) := perform op

def orFail (x : Prog Op Res (Except String α)) : ClientM α := ExceptT.mk x

def socketPath : String := "/run/bpf-rbac.sock"

structure BpfRbacClient where
  stream : RawFd

def BpfRbacClient.connect : ClientM BpfRbacClient := do
  let stream ← orFail (issue (.connect socketPath))
  return { stream }

/-- The loop over the control messages; a later descriptor replaces an earlier one. -/
def receivedFd (cmsgs : List ControlMessage) : Option RawFd :=
  cmsgs.foldl (fun fd cmsg =>
    match cmsg with
    | .scmRights (f :: _) => some f
    | _ => fd) none

def BpfRbacClient.recvResponseWithFd (client : BpfRbacClient) : ClientM (Response × Option RawFd) := do
  let msg ← orFail (issue (.recvmsg client.stream 4096 1))
  let response ← orFail (issue (.deserialize msg.bytes))
  return (response, receivedFd msg.cmsgs)

/-- What `create_map` returns for a response and the descriptor that came with it. -/
def mapFd (response : Response) (fd : Option RawFd) : Except String RawFd :=
  match response with
  | .success (some _) =>
    match fd with
    | some f => .ok f
    | none => .error "Expected FD but none received"
  | .success none => .error "No FD in response"
  | .denied reason => .error ("Denied: " ++ reason)
  | .error message => .error ("Error: " ++ message)

def BpfRbacClient.createMap (client : BpfRbacClient) (mapType name : String)
    (keySize valueSize maxEntries : UInt32) : ClientM RawFd := do
  let request : Request := .createMap mapType name keySize valueSize maxEntries
  let bytes ← orFail (issue (.serialize request))
  orFail (issue (.writeAll client.stream bytes))
  let (response, fd) ← client.recvResponseWithFd
  orFail (pure (mapFd response fd))

end BpfRbacd.Client
