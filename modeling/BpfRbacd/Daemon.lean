import BpfRbacd.Lib.Interaction
import BpfRbacd.Policy

/-!
# The daemon

`src/main.rs`, from accepting a connection to dropping it. Calls out of the
program are operations, and the world the program runs in answers them: the
socket, the user and group database, bincode, `bpf(2)` and the log. A failed
call answers with the text its error displays, which is all the daemon uses of
it. Nothing is assumed of an answer here.

The accept loop spawns a task for a connection; `serveConnection` is one round
of it with the task run to its end.
-/

namespace BpfRbacd.Daemon

open Interaction (Prog Fallible perform)

structure UnixCredentials where
  uid : UInt32
  pid : Int32

structure User where
  name : String
  gid : UInt32

structure BpfAttr where
  mapType : UInt32
  keySize : UInt32
  valueSize : UInt32
  maxEntries : UInt32
  mapFlags : UInt32
  innerMapFd : UInt32
  numaNode : UInt32
  mapName : Vector UInt8 16
  mapIfindex : UInt32
  btfFd : UInt32
  btfKeyTypeId : UInt32
  btfValueTypeId : UInt32
  btfVmlinuxValueTypeId : UInt32
  mapExtra : UInt64

/-- `size_of::<BpfAttr>()`: twelve words, the name and the last double word. -/
def bpfAttrSize : UInt64 := 72

inductive Log where
  | clientConnected (uid : UInt32) (pid : Int32)
  | clientGroups (groups : List String)
  | clientRole (role : Option String)
  | request (request : Request)
  | operationSucceeded (fd : RawFd)
  | bpfError (e : String)
  | denied (roleName : String)
  | clientError (e : String)
  | acceptError (e : String)

inductive Op where
  | accept
  | intoStd (stream : RawFd)
  | peerCredentials (stream : RawFd)
  | userFromUid (uid : UInt32)
  | groupFromGid (gid : UInt32)
  | getgrouplist (username : String) (gid : UInt32)
  | log (line : Log)
  | setNonblocking (stream : RawFd)
  | fromStd (stream : RawFd)
  | read (stream : RawFd) (size : Nat)
  | deserialize (bytes : List UInt8)
  | bpf (cmd : Int32) (attr : BpfAttr) (size : UInt64)
  | lastOsError
  | serialize (response : Response)
  | sendmsg (stream fd : RawFd) (data : List UInt8)
  | writeAll (stream : RawFd) (data : List UInt8)
  /-- Dropping the stream. -/
  | close (stream : RawFd)

@[reducible] def Res : Op → Type
  | .accept => Except String RawFd
  | .intoStd _ | .setNonblocking _ | .fromStd _ | .writeAll .. => Except String Unit
  | .peerCredentials _ => Except String UnixCredentials
  | .userFromUid _ => Except String (Option User)
  | .groupFromGid _ => Except String (Option String)
  | .getgrouplist .. => Except String (List UInt32)
  | .log _ | .close _ => Unit
  | .read .. | .serialize _ => Except String (List UInt8)
  | .deserialize _ => Except String Request
  | .bpf .. => Int64
  | .lastOsError => String
  | .sendmsg .. => Except String UInt64

abbrev DaemonM := Fallible Op Res String

def issue (op : Op) : Prog Op Res (Res op) := perform op

def ask (op : Op) : DaemonM (Res op) := ExceptT.lift (issue op)

/-- The `?` operator on the answer of a call. -/
def orFail (x : Prog Op Res (Except String α)) : DaemonM α := ExceptT.mk x

def log (line : Log) : DaemonM Unit := ask (.log line)

-- ---------------------------------------------------------------------------
-- The client's groups
-- ---------------------------------------------------------------------------

/-- `CString::new`. -/
def cString (s : String) : Except String String :=
  match s.toUTF8.data.toList.idxOf? 0 with
  | some position => .error ("nul byte found in provided data at position: " ++ toString position)
  | none => .ok s

/-- One step of the loop over the supplementary groups; a failed lookup skips. -/
def addGroup (groups : List String) (gid : UInt32) : DaemonM (List String) := do
  match ← ask (.groupFromGid gid) with
  | .ok (some name) => return if groups.contains name then groups else groups ++ [name]
  | _ => return groups

def getUserGroups (uid : UInt32) : DaemonM (List String) := do
  let some user ← orFail (issue (.userFromUid uid)) | throw "User not found"
  let groups := match ← ask (.groupFromGid user.gid) with
    | .ok (some name) => [name]
    | _ => []
  let username ← orFail (pure (cString user.name))
  match ← ask (.getgrouplist username user.gid) with
  | .ok groupList => groupList.foldlM addGroup groups
  | .error _ => return groups

-- ---------------------------------------------------------------------------
-- Execution
-- ---------------------------------------------------------------------------

/-- The `match` of `create_bpf_map`. -/
def createMapTypes : List (String × UInt32) := [
  ("hash", 1),
  ("array", 2),
  ("perf_event_array", 4),
  ("lru_hash", 9),
  ("ringbuf", 27)]

/-- At most 15 bytes of the name, zero-filled. -/
def mapNameBytes (name : String) : Vector UInt8 16 :=
  let bytes := name.toUTF8.data.toList
  Vector.ofFn fun i => if i.val < min bytes.length 15 then bytes.getD i 0 else 0

def createBpfMap (mapType name : String) (keySize valueSize maxEntries : UInt32) : DaemonM RawFd := do
  let some mapTypeNum := createMapTypes.lookup mapType
    | throw ("Unsupported map type: " ++ mapType)
  let attr : BpfAttr := {
    mapType := mapTypeNum
    keySize, valueSize, maxEntries
    mapFlags := 0
    innerMapFd := 0
    numaNode := 0
    mapName := mapNameBytes name
    mapIfindex := 0
    btfFd := 0
    btfKeyTypeId := 0
    btfValueTypeId := 0
    btfVmlinuxValueTypeId := 0
    mapExtra := 0 }
  let fd ← ask (.bpf 0 attr bpfAttrSize)
  if fd < 0 then
    let reason ← ask .lastOsError
    throw ("BPF_MAP_CREATE failed: " ++ reason)
  else
    return fd.toInt32

def executeBpf : Request → DaemonM RawFd
  | .createMap mapType name keySize valueSize maxEntries =>
    createBpfMap mapType name keySize valueSize maxEntries
  | .loadProgram .. => throw "Program loading not implemented in demo"
  | .attach .. => throw "Attach not implemented in demo"

def sendFdWithData (stream fd : RawFd) (data : List UInt8) : DaemonM Unit := do
  let _ ← orFail (issue (.sendmsg stream fd data))

-- ---------------------------------------------------------------------------
-- A connection
-- ---------------------------------------------------------------------------

section
variable (printable : Char → Bool) (policy : Policy)

def clientGroups (stream : RawFd) : DaemonM (List String) := do
  orFail (issue (.intoStd stream))
  let cred ← orFail (issue (.peerCredentials stream))
  log (.clientConnected cred.uid cred.pid)
  let groups ← getUserGroups cred.uid
  log (.clientGroups groups)
  return groups

def readRequest (stream : RawFd) : DaemonM (Option Request) := do
  orFail (issue (.setNonblocking stream))
  orFail (issue (.fromStd stream))
  let buf ← orFail (issue (.read stream 4096))
  if buf.length = 0 then return none
  let request ← orFail (issue (.deserialize buf))
  log (.request request)
  return some request

def respond (role : Option String) (request : Request) : Prog Op Res Response :=
  match role with
  | some roleName =>
    if policy.isAllowed roleName request then do
      match ← (executeBpf request).run with
      | .ok fd =>
        let _ ← issue (.log (.operationSucceeded fd))
        return .success (some fd)
      | .error e =>
        let _ ← issue (.log (.bpfError e))
        return .error e
    else do
      let _ ← issue (.log (.denied roleName))
      return .denied ("Role '" ++ roleName ++ "' not allowed for " ++ request.debug printable)
  | none => return .denied "User not in any BPF RBAC group"

def sendResponse (stream : RawFd) (response : Response) : DaemonM Unit := do
  match response with
  | .success (some fd) =>
    let responseBytes ← orFail (issue (.serialize response))
    sendFdWithData stream fd responseBytes
  | _ =>
    let responseBytes ← orFail (issue (.serialize response))
    orFail (issue (.writeAll stream responseBytes))

/-- The body of `handle_client`. -/
def converse (stream : RawFd) : DaemonM Unit := do
  let groups ← clientGroups stream
  let role := policy.getRoleForGroups groups
  log (.clientRole role)
  let some request ← readRequest stream | return ()
  let response ← ExceptT.lift (respond printable policy role request)
  sendResponse stream response

/-- The stream is the function's own and is dropped on every way out. -/
def handleClient (stream : RawFd) : Prog Op Res (Except String Unit) := do
  let result ← (converse printable policy stream).run
  let _ ← issue (.close stream)
  return result

/-- A round of the accept loop in `main`. -/
def serveConnection : Prog Op Res Unit := do
  match ← issue .accept with
  | .ok stream =>
    match ← handleClient printable policy stream with
    | .ok () => return ()
    | .error e => issue (.log (.clientError e))
  | .error e => issue (.log (.acceptError e))

end

end BpfRbacd.Daemon
