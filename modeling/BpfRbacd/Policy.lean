import BpfRbacd.Protocol
import Mathlib.Data.List.AList

/-!
# The policy engine

`src/policy.rs`: the policy as deserialized from YAML, role resolution, the
permission checks and the bitmaps. A Rust `HashMap<String, V>` is an association
list with distinct keys; the order of its entries is the order in which one run
of the daemon happens to enumerate them. The three bitmap functions and the
two type checks repeat one body each, so each is an instance of `bitmapUnder`
or `typeOpAllowed` at its own fields and table.
-/

namespace BpfRbacd

/-- `HashMap<String, V>`, its entries in enumeration order. -/
abbrev HashMap (V : Type) := AList fun _ : String => V

structure SystemPolicy where
  commands : List String := []
  progTypes : HashMap (List String) := ∅
  mapTypes : HashMap (List String) := ∅

structure Role where
  description : Option String
  groups : List String
  commands : List String := []
  progTypes : HashMap (List String) := ∅
  mapTypes : HashMap (List String) := ∅

structure PolicyConfig where
  systemPolicy : Option SystemPolicy := none
  roles : HashMap Role

structure Policy where
  config : PolicyConfig

-- ---------------------------------------------------------------------------
-- Kernel numbers
-- ---------------------------------------------------------------------------

def progTypeNumbers : List (String × UInt32) := [
  ("socket_filter", 1),
  ("kprobe", 2), ("kretprobe", 2),
  ("sched_cls", 3),
  ("sched_act", 4),
  ("tracepoint", 5),
  ("xdp", 6),
  ("perf_event", 7),
  ("cgroup_skb", 8),
  ("cgroup_sock", 9),
  ("lwt_in", 10),
  ("lwt_out", 11),
  ("lwt_xmit", 12),
  ("sock_ops", 13),
  ("sk_skb", 14),
  ("cgroup_device", 15),
  ("sk_msg", 16),
  ("raw_tracepoint", 17),
  ("cgroup_sock_addr", 18),
  ("lwt_seg6local", 19),
  ("lirc_mode2", 20),
  ("sk_reuseport", 21),
  ("flow_dissector", 22),
  ("cgroup_sysctl", 23),
  ("raw_tracepoint_writable", 24),
  ("cgroup_sockopt", 25),
  ("tracing", 26), ("fentry", 26), ("fexit", 26),
  ("struct_ops", 27),
  ("ext", 28),
  ("lsm", 29),
  ("sk_lookup", 30),
  ("uprobe", 2), ("uretprobe", 2)]

def mapTypeNumbers : List (String × UInt32) := [
  ("hash", 1),
  ("array", 2),
  ("prog_array", 3),
  ("perf_event_array", 4),
  ("percpu_hash", 5),
  ("percpu_array", 6),
  ("stack_trace", 7),
  ("cgroup_array", 8),
  ("lru_hash", 9),
  ("lru_percpu_hash", 10),
  ("lpm_trie", 11),
  ("array_of_maps", 12),
  ("hash_of_maps", 13),
  ("devmap", 14),
  ("sockmap", 15),
  ("cpumap", 16),
  ("xskmap", 17),
  ("sockhash", 18),
  ("cgroup_storage", 19),
  ("reuseport_sockarray", 20),
  ("percpu_cgroup_storage", 21),
  ("queue", 22),
  ("stack", 23),
  ("sk_storage", 24),
  ("devmap_hash", 25),
  ("struct_ops", 26),
  ("ringbuf", 27),
  ("inode_storage", 28),
  ("task_storage", 29),
  ("bloom_filter", 30)]

def commandNumbers : List (String × UInt32) := [
  ("MAP_CREATE", 0),
  ("MAP_LOOKUP_ELEM", 1),
  ("MAP_UPDATE_ELEM", 2),
  ("MAP_DELETE_ELEM", 3),
  ("MAP_GET_NEXT_KEY", 4),
  ("PROG_LOAD", 5),
  ("OBJ_PIN", 6),
  ("OBJ_GET", 7),
  ("PROG_ATTACH", 8),
  ("PROG_DETACH", 9),
  ("PROG_TEST_RUN", 10),
  ("PROG_GET_NEXT_ID", 11),
  ("MAP_GET_NEXT_ID", 12),
  ("PROG_GET_FD_BY_ID", 13),
  ("MAP_GET_FD_BY_ID", 14),
  ("OBJ_GET_INFO_BY_FD", 15),
  ("PROG_QUERY", 16),
  ("RAW_TRACEPOINT_OPEN", 17),
  ("BTF_LOAD", 18),
  ("BTF_GET_FD_BY_ID", 19),
  ("TASK_FD_QUERY", 20),
  ("MAP_LOOKUP_AND_DELETE_ELEM", 21),
  ("MAP_FREEZE", 22),
  ("BTF_GET_NEXT_ID", 23),
  ("MAP_LOOKUP_BATCH", 24),
  ("MAP_LOOKUP_AND_DELETE_BATCH", 25),
  ("MAP_UPDATE_BATCH", 26),
  ("MAP_DELETE_BATCH", 27),
  ("LINK_CREATE", 28),
  ("LINK_UPDATE", 29),
  ("LINK_GET_FD_BY_ID", 30),
  ("LINK_GET_NEXT_ID", 31)]

def progTypeToBit (name : String) : Option UInt32 := progTypeNumbers.lookup name
def mapTypeToBit (name : String) : Option UInt32 := mapTypeNumbers.lookup name
def commandToBit (name : String) : Option UInt32 := commandNumbers.lookup name

-- ---------------------------------------------------------------------------
-- Role resolution
-- ---------------------------------------------------------------------------

/-- The inner loop of role resolution: does a group of the role occur in the
user's set of groups? -/
def Role.hasMember (role : Role) (userGroups : List String) : Bool :=
  role.groups.any fun group => userGroups.contains group

def priority : List String := ["ebpf-admin", "ebpf-net", "ebpf"]

/-- Checks well-known roles in priority order, then falls back to any
matching role, the first one met in enumeration order. -/
def Policy.getRoleForGroups (policy : Policy) (userGroups : List String) : Option String :=
  (priority.find? fun roleName =>
    match policy.config.roles.lookup roleName with
    | some role => role.hasMember userGroups
    | none => false).or
  ((policy.config.roles.entries.find? fun entry => entry.2.hasMember userGroups).map (·.1))

-- ---------------------------------------------------------------------------
-- Permission checks
-- ---------------------------------------------------------------------------

/-- `iter().any(|c| c == "any" || c == name)`. -/
def allowsName (names : List String) (name : String) : Bool :=
  names.any fun c => c == "any" || c == name

def Policy.isCommandAllowed (policy : Policy) (role : Role) (command : String) : Bool :=
  if !allowsName role.commands command then false
  else match policy.config.systemPolicy with
    | some system => allowsName system.commands command
    | none => true

/-- A wildcard entry answers alone, even when the type has its own entry. -/
def checkTypeOp (typeMap : HashMap (List String)) (typeName op : String) : Bool :=
  match typeMap.lookup "any" with
  | some ops => allowsName ops op
  | none =>
    match typeMap.lookup typeName with
    | some ops => allowsName ops op
    | none => false

/-- The common body of the two type checks. -/
def typeOpAllowed (roleTypes : HashMap (List String)) (systemTypes : Option (HashMap (List String)))
    (typeName op : String) : Bool :=
  if !checkTypeOp roleTypes typeName op then false
  else match systemTypes with
    | some types => checkTypeOp types typeName op
    | none => true

def Policy.isProgOpAllowed (policy : Policy) (role : Role) (progType operation : String) : Bool :=
  typeOpAllowed role.progTypes (policy.config.systemPolicy.map (·.progTypes)) progType operation

def Policy.isMapOpAllowed (policy : Policy) (role : Role) (mapType operation : String) : Bool :=
  typeOpAllowed role.mapTypes (policy.config.systemPolicy.map (·.mapTypes)) mapType operation

def Policy.isAllowed (policy : Policy) (roleName : String) (request : Request) : Bool :=
  match policy.config.roles.lookup roleName with
  | none => false
  | some role =>
    match request with
    | .loadProgram progType _ _ =>
      policy.isCommandAllowed role "PROG_LOAD" && policy.isProgOpAllowed role progType "load"
    | .createMap mapType _ _ _ _ =>
      policy.isCommandAllowed role "MAP_CREATE" && policy.isMapOpAllowed role mapType "create"
    | .attach attachType _ _ =>
      policy.isCommandAllowed role "PROG_ATTACH" && policy.isProgOpAllowed role attachType "attach"

-- ---------------------------------------------------------------------------
-- Bitmaps
-- ---------------------------------------------------------------------------

/-- `if let Some(bit) = .. { bitmap |= 1 << bit }`, the body of the loops. -/
def addName (toBit : String → Option UInt32) (bitmap : UInt32) (name : String) : UInt32 :=
  match toBit name with
  | some bit => bitmap ||| (1 <<< bit)
  | none => bitmap

def namesBitmap (toBit : String → Option UInt32) (names : List String) : UInt32 :=
  names.foldl (addName toBit) 0

/-- The common body of the three bitmap functions. -/
def bitmapUnder (toBit : String → Option UInt32) (roleNames : List String)
    (systemNames : Option (List String)) : UInt32 :=
  -- the wildcard of a role returns before the system policy is looked at
  if roleNames.contains "any" then 0xFFFFFFFF
  else
    let bitmap := namesBitmap toBit roleNames
    match systemNames with
    | some names => bitmap &&& (if names.contains "any" then 0xFFFFFFFF else namesBitmap toBit names)
    | none => bitmap

def Policy.progTypesBitmap (policy : Policy) (role : Role) : UInt32 :=
  bitmapUnder progTypeToBit role.progTypes.keys (policy.config.systemPolicy.map (·.progTypes.keys))

def Policy.mapTypesBitmap (policy : Policy) (role : Role) : UInt32 :=
  bitmapUnder mapTypeToBit role.mapTypes.keys (policy.config.systemPolicy.map (·.mapTypes.keys))

def Policy.commandsBitmap (policy : Policy) (role : Role) : UInt32 :=
  bitmapUnder commandToBit role.commands (policy.config.systemPolicy.map (·.commands))

end BpfRbacd
