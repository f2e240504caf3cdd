import BpfRbacd.Daemon.Serving
import BpfRbacd.Lsm.Refinement
import BpfRbacd.Namespace.MountData
import BpfRbacd.Policy.Shipped

/-!
# The two modes

A client in the initial namespace has its calls made by the daemon, one in its
own namespace makes them under the hooks and with a token of a delegated bpffs.
Both follow from the role. No call of the daemon would have been refused by the
hooks in a namespace with the entry of the role that allowed it
(`proxied_calls_pass`), and what the mount data of a delegation from the role's
bitmaps says to delegate is what the hooks let through (`delegation_matches`).

The hooks may let more through than the proxy, as a bitmap forgets names and
operations. For a role without wildcards whose types the role and the ceiling
all grant they do not (`modes_agree`), and the shipped roles but the
administrator's are such.
-/

namespace BpfRbacd

open Interaction (Threads Task reply)
open Namespace (DelegationOpts readMountData)

/-- The entry for a namespace of the role. -/
def Policy.entry (policy : Policy) (role : Role) (rest : PolicyValue) : PolicyValue :=
  { rest with
    allowedCmds := policy.commandsBitmap role
    allowedProgTypes := policy.progTypesBitmap role
    allowedMapTypes := policy.mapTypesBitmap role
    flags := 0 }

-- ---------------------------------------------------------------------------
-- A system call and its hooks
-- ---------------------------------------------------------------------------

/-- `bpf(2)` from user space: the command and the first word of the attribute. -/
structure Syscall where
  cmd : Int32
  attr : Option UInt32

/-- `security_bpf` is called on every call, the other two where a map is
created or a program loaded. -/
def Syscall.calls (syscall : Syscall) : List Call :=
  .bpf syscall.cmd ::
    if syscall.cmd = 0 then [.mapCreate syscall.attr]
    else if syscall.cmd = 5 then [.progLoad syscall.attr]
    else []

def Syscall.Passes (syscall : Syscall) (policyMap : PolicyMap) (resolver : Except Int64 UInt64) : Prop :=
  ∀ call ∈ syscall.calls, call.hook policyMap resolver = 0

section
variable {policy : Policy} {role : Role} {rest : PolicyValue} {policyMap : PolicyMap} {ns : UInt64}

theorem Syscall.passes_entry {syscall : Syscall} :
    syscall.Passes (Function.update policyMap ⟨ns⟩ (some (policy.entry role rest))) (.ok ns) ↔
      ∀ call ∈ syscall.calls, call.InBitmaps (policy.entry role rest) := by
  simp [Passes, Call.hook_entry, Policy.entry]

theorem Policy.mapTypesBitmap_of_allowed {t op : String} {n : UInt32} (hn : mapTypeToBit t = some n)
    (h : policy.isMapOpAllowed role t op = true) : inBitmap (policy.mapTypesBitmap role) n = true := by
  have hbit := inBitmap_of_typeOpAllowed mapTypeToBit_inWord hn h
  rwa [Option.map_map] at hbit

theorem Policy.progTypesBitmap_of_allowed {t op : String} {n : UInt32} (hn : progTypeToBit t = some n)
    (h : policy.isProgOpAllowed role t op = true) : inBitmap (policy.progTypesBitmap role) n = true := by
  have hbit := inBitmap_of_typeOpAllowed progTypeToBit_inWord hn h
  rwa [Option.map_map] at hbit

/-- The system call a request asks for, as far as the hooks look at it, if the
code's tables have its type. -/
def Request.syscall : Request → Option Syscall
  | .loadProgram progType _ _ => (progTypeToBit progType).map fun n => ⟨5, some n⟩
  | .createMap mapType _ _ _ _ => (mapTypeToBit mapType).map fun n => ⟨0, some n⟩
  | .attach .. => some ⟨8, none⟩

/-- The command of an allowed request has its bit. -/
theorem command_in_entry (rest : PolicyValue) {command : String} {n : UInt32}
    (hn : commandToBit command = some n)
    (h : policy.isCommandAllowed role command = true) :
    (Call.bpf n.toInt32).InBitmaps (policy.entry role rest) := by
  simpa [Call.InBitmaps, Policy.entry] using Policy.commandsBitmap_of_allowed hn h

/-- What the proxy allows a role, the hooks let through in a namespace of that role. -/
theorem request_passes {roleName : String} {request : Request} {syscall : Syscall}
    (h : policy.isAllowed roleName request = true) (hrole : policy.config.roles.lookup roleName = some role)
    (hsyscall : request.syscall = some syscall) :
    syscall.Passes (Function.update policyMap ⟨ns⟩ (some (policy.entry role rest))) (.ok ns) := by
  rw [Syscall.passes_entry]
  unfold Policy.isAllowed at h
  simp only [hrole] at h
  cases request with
  | loadProgram progType =>
    obtain ⟨hcommand, htype⟩ := Bool.and_eq_true_iff.mp h
    have hcmd := command_in_entry rest (n := 5) rfl hcommand
    obtain ⟨n, hn, rfl⟩ := Option.map_eq_some_iff.mp hsyscall
    have hbit := Policy.progTypesBitmap_of_allowed hn htype
    simpa [Syscall.calls, Call.InBitmaps, Policy.entry, hbit] using hcmd
  | createMap mapType =>
    obtain ⟨hcommand, htype⟩ := Bool.and_eq_true_iff.mp h
    have hcmd := command_in_entry rest (n := 0) rfl hcommand
    obtain ⟨n, hn, rfl⟩ := Option.map_eq_some_iff.mp hsyscall
    have hbit := Policy.mapTypesBitmap_of_allowed hn htype
    simpa [Syscall.calls, Call.InBitmaps, Policy.entry, hbit] using hcmd
  | attach attachType =>
    obtain ⟨hcommand, -⟩ := Bool.and_eq_true_iff.mp h
    have hcmd := command_in_entry rest (n := 8) rfl hcommand
    obtain rfl := Option.some.inj hsyscall
    simpa [Syscall.calls, Call.InBitmaps] using hcmd

/-- Whoever the proxy would make the call for may make it in a namespace of
their role. -/
theorem authorized_request_passes {groups : List String} {request : Request} {syscall : Syscall}
    (h : policy.Authorizes groups request) (hsyscall : request.syscall = some syscall) :
    ∃ name role, policy.getRoleForGroups groups = some name ∧ policy.config.roles.lookup name = some role ∧
      ∀ policyMap ns rest, syscall.Passes
        (Function.update policyMap ⟨ns⟩ (some (policy.entry role rest))) (.ok ns) := by
  obtain ⟨name, hname, hallowed⟩ := h
  obtain ⟨role, hrole, -⟩ := Policy.getRoleForGroups_matches hname
  exact ⟨name, role, hname, hrole, fun _ _ _ => request_passes hallowed hrole hsyscall⟩

-- ---------------------------------------------------------------------------
-- The calls of the daemon
-- ---------------------------------------------------------------------------

theorem issuedFor_syscall {request : Request} {call : Daemon.BpfCall} (h : Daemon.IssuedFor request call) :
    request.syscall = some ⟨call.cmd, some call.attr.mapType⟩ := by
  cases request with
  | createMap mapType =>
    obtain ⟨hcmd, hbit, -⟩ := h
    rw [Request.syscall, hcmd, hbit]
    rfl
  | loadProgram => exact h.elim
  | attach => exact h.elim

variable {W : Interaction.World Daemon.Op Daemon.Res} {fds : W.State} {c : Threads W RawFd Unit}
  {t : Task Daemon.Op Daemon.Res RawFd Unit} {printable : Char → Bool}

/-- Whatever call any connection has issued, in any reachable state: there is a
role with the peer in one of its groups, and in every namespace with that
role's entry the hooks would have let the call through. -/
theorem proxied_calls_pass (hreach : (Daemon.daemon printable policy).Reaches W fds c) (ht : t ∈ c.tasks)
    {history later : List (Interaction.Reply Daemon.Op Daemon.Res)} {cmd : Int32} {attr : Daemon.BpfAttr}
    {size : UInt64} {result : Int64}
    (hcall : t.history = history ++ reply (.bpf cmd attr size) result :: later) :
    ∃ name role, policy.config.roles.lookup name = some role ∧
      (∃ group ∈ role.groups, Daemon.MemberOf t.item group history) ∧
      ∀ policyMap ns rest, (⟨cmd, some attr.mapType⟩ : Syscall).Passes
        (Function.update policyMap ⟨ns⟩ (some (policy.entry role rest))) (.ok ns) := by
  obtain ⟨-, request, -, -, hissued, name, role, hrole, hallowed, hmember⟩ :=
    Daemon.task_backed hreach ht hcall
  have hsyscall := issuedFor_syscall hissued
  exact ⟨name, role, hrole, hmember, fun _ _ _ => request_passes hallowed hrole hsyscall⟩

end

theorem uprobe_load_passes :
    ∃ name role, Policy.default.getRoleForGroups ["users", "ebpf"] = some name ∧
      Policy.default.config.roles.lookup name = some role ∧
      (⟨5, some 2⟩ : Syscall).Passes
        (Function.update (fun _ => none) ⟨7⟩
          (some (Policy.default.entry role ⟨0, 0, 0, 0, 3, #v[0, 0, 0]⟩))) (.ok 7) := by
  have hauthorized :
      Policy.default.Authorizes ["users", "ebpf"] (.loadProgram "uprobe" "/tmp/probe.o" "probe") :=
    default_authorizes_iff.mpr (by simp [BuiltinGrants, TracingRequest])
  obtain ⟨name, role, hname, hrole, hpasses⟩ := authorized_request_passes hauthorized rfl
  exact ⟨name, role, hname, hrole, hpasses _ _ _⟩

theorem tracer_call_passes :
    ∃ name role, Policy.default.config.roles.lookup name = some role ∧
      (∃ group ∈ role.groups, Daemon.MemberOf 5 group (Daemon.tracerTask.history.take 14)) ∧
      ∀ policyMap ns rest, (⟨0, some 1⟩ : Syscall).Passes
        (Function.update policyMap ⟨ns⟩ (some (Policy.default.entry role rest))) (.ok ns) := by
  have hcall : Daemon.tracerTask.history = Daemon.tracerTask.history.take 14 ++
      reply (.bpf 0 Daemon.countersAttr Daemon.bpfAttrSize) 7 :: Daemon.tracerTask.history.drop 15 := rfl
  exact proxied_calls_pass Daemon.tracerServed_reached List.mem_cons_self hcall

-- ---------------------------------------------------------------------------
-- Delegated mounts
-- ---------------------------------------------------------------------------

/-- What the mount data of a bpffs says to delegate. -/
def Delegates (data key : String) (n : UInt32) : Prop :=
  ∃ bitmap, some (key, bitmap) ∈ readMountData data ∧ inBitmap bitmap n = true

/-- Delegated with the bitmaps of a role is what the hooks let through in a
namespace with the entry of the role, number by number. -/
theorem delegation_matches (policy : Policy) (role : Role) (rest : PolicyValue) (policyMap : PolicyMap)
    (ns : UInt64) (attachs n : UInt32) :
    let data := (DelegationOpts.fromBitmaps (policy.commandsBitmap role) (policy.progTypesBitmap role)
      (policy.mapTypesBitmap role) attachs).toMountData
    let managed := Function.update policyMap ⟨ns⟩ (some (policy.entry role rest))
    (Delegates data "delegate_cmds" n ↔ (Call.bpf n.toInt32).hook managed (.ok ns) = 0) ∧
    (Delegates data "delegate_progs" n ↔ (Call.progLoad (some n)).hook managed (.ok ns) = 0) ∧
    (Delegates data "delegate_maps" n ↔ (Call.mapCreate (some n)).hook managed (.ok ns) = 0) := by
  intro data managed
  have hdata := Namespace.readMountData_options (DelegationOpts.fromBitmaps (policy.commandsBitmap role)
    (policy.progTypesBitmap role) (policy.mapTypesBitmap role) attachs)
  have hhook : ∀ call : Call, call.hook managed (.ok ns) = 0 ↔ call.InBitmaps (policy.entry role rest) :=
    fun call => call.hook_entry rfl
  simp only [hhook, Delegates, data, hdata]
  simp [DelegationOpts.options, DelegationOpts.fromBitmaps, Call.InBitmaps, Policy.entry]

-- ---------------------------------------------------------------------------
-- Where the modes agree
-- ---------------------------------------------------------------------------

/-- No wildcard, and the role and the ceiling grant `op` with every type of the role. -/
structure PlainTypes (role : HashMap (List String)) (system : Option (HashMap (List String))) (op : String) :
    Prop where
  named : "any" ∉ role
  granted : ∀ entry ∈ role.entries, allowsName entry.2 op = true
  ceiling : ∀ types ∈ system, ∀ name ∈ role, checkTypeOp types name op = true

theorem checkTypeOp_of_entries {types : HashMap (List String)} {name op : String}
    (h : ∀ entry ∈ types.entries, allowsName entry.2 op = true) :
    checkTypeOp types name op = true ↔ "any" ∈ types ∨ name ∈ types := by
  apply checkTypeOp_of_ops
  intro ops hops
  obtain ⟨entry, hentry, rfl⟩ := opsFor_mem_entries hops
  exact h entry hentry

theorem PlainTypes.inBitmap_iff {toBit : String → Option UInt32} {role : HashMap (List String)}
    {system : Option (HashMap (List String))} {op : String} {n : UInt32} (h : PlainTypes role system op)
    (hword : InWord toBit) :
    inBitmap (bitmapUnder toBit role.keys (system.map AList.keys)) n = true ↔
      ∃ name, toBit name = some n ∧ typeOpAllowed role system name op = true := by
  constructor
  · intro hbit
    obtain ⟨name, hmem, hn⟩ := (inBitmap_bitmapUnder hword hbit).1.resolve_left h.named
    refine ⟨name, hn, typeOpAllowed_checks.mpr ⟨(checkTypeOp_of_entries h.granted).mpr (.inr hmem), ?_⟩⟩
    exact fun types htypes => h.ceiling types htypes name hmem
  · rintro ⟨name, hn, hallowed⟩
    exact inBitmap_of_typeOpAllowed hword hn hallowed

theorem commandToBit_injective {a b : String} {n : UInt32} (ha : commandToBit a = some n)
    (hb : commandToBit b = some n) : a = b := by
  have hrows : ∀ r ∈ commandNumbers, ∀ r' ∈ commandNumbers, r.2 = r'.2 → r.1 = r'.1 := by decide
  exact hrows (a, n) (lookup_mem ha) (b, n) (lookup_mem hb) rfl

/-- Every command has a number of its own, so no name is lost. -/
theorem Policy.commandsBitmap_iff {policy : Policy} {role : Role} {n : UInt32} (hany : "any" ∉ role.commands) :
    inBitmap (policy.commandsBitmap role) n = true ↔
      ∃ c, commandToBit c = some n ∧ policy.isCommandAllowed role c = true := by
  constructor
  · intro h
    obtain ⟨i, hi, hin⟩ := BpfRbacd.inBitmap_iff.mp h
    rw [commandsBitmap, u32Bits_bitmapUnder commandToBit_inWord, if_neg hany, AllowList.mem_under] at hi
    obtain ⟨hrole, hceiling⟩ := hi
    obtain ⟨c, hc, hnumber⟩ := (AllowList.mem_numbers_of_not_wild hany).mp hrole
    have hn := (numbered_iff hin).mp hnumber
    refine ⟨c, hn, isCommandAllowed_iff.mpr (AllowList.mem_under.mpr ⟨.inr hc, ?_⟩)⟩
    intro names hnames
    obtain ⟨commands, hcommands, rfl⟩ := Option.mem_map.mp hnames
    rcases hceiling _ (Option.mem_map.mpr ⟨commands, hcommands, rfl⟩) with hwild | ⟨c', hc', hnumber'⟩
    · exact .inl hwild
    · exact .inr (commandToBit_injective hn ((numbered_iff hin).mp hnumber') ▸ hc')
  · rintro ⟨c, hn, hallowed⟩
    exact commandsBitmap_of_allowed hn hallowed

/-- For such a role the hooks decide every number as the proxy decides its names. -/
theorem modes_agree (policy : Policy) (role : Role) (hcommands : "any" ∉ role.commands)
    (hprogs : PlainTypes role.progTypes policy.systemProgTypes "load")
    (hmaps : PlainTypes role.mapTypes policy.systemMapTypes "create")
    (rest : PolicyValue) (policyMap : PolicyMap) (ns : UInt64) (n : UInt32) :
    let managed := Function.update policyMap ⟨ns⟩ (some (policy.entry role rest))
    ((Call.bpf n.toInt32).hook managed (.ok ns) = 0 ↔
      ∃ c, commandToBit c = some n ∧ policy.isCommandAllowed role c = true) ∧
    ((Call.progLoad (some n)).hook managed (.ok ns) = 0 ↔
      ∃ t, progTypeToBit t = some n ∧ policy.isProgOpAllowed role t "load" = true) ∧
    ((Call.mapCreate (some n)).hook managed (.ok ns) = 0 ↔
      ∃ t, mapTypeToBit t = some n ∧ policy.isMapOpAllowed role t "create" = true) := by
  intro managed
  have hhook : ∀ call : Call, call.hook managed (.ok ns) = 0 ↔ call.InBitmaps (policy.entry role rest) :=
    fun call => call.hook_entry rfl
  simp only [hhook]
  refine ⟨?_, ?_, ?_⟩
  · simpa [Call.InBitmaps, Policy.entry] using Policy.commandsBitmap_iff hcommands
  · have hbit := hprogs.inBitmap_iff progTypeToBit_inWord (n := n)
    rw [Policy.systemProgTypes, Option.map_map] at hbit
    simp only [Call.InBitmaps, Policy.entry, Option.mem_some_iff, exists_eq_left']
    exact hbit
  · have hbit := hmaps.inBitmap_iff mapTypeToBit_inWord (n := n)
    rw [Policy.systemMapTypes, Option.map_map] at hbit
    simp only [Call.InBitmaps, Policy.entry, Option.mem_some_iff, exists_eq_left']
    exact hbit

theorem plainTypes_ofInserts {role ceiling : List (String × List String)} {op : String}
    (hnamed : "any" ∉ role.map (·.1)) (hwithin : role.map (·.1) ⊆ ceiling.map (·.1))
    (hgranted : ∀ entry ∈ role, allowsName entry.2 op = true)
    (hceiling : ∀ entry ∈ ceiling, allowsName entry.2 op = true) :
    PlainTypes (.ofInserts role) (some (.ofInserts ceiling)) op where
  named := by rwa [HashMap.mem_ofInserts]
  granted := HashMap.forall_ofInserts (P := fun ops => allowsName ops op = true) hgranted
  ceiling := by
    rintro types ⟨⟩ name hname
    have hentries := HashMap.forall_ofInserts (P := fun ops => allowsName ops op = true) hceiling
    refine (checkTypeOp_of_entries hentries).mpr (.inr ?_)
    rw [HashMap.mem_ofInserts] at hname ⊢
    exact hwithin hname

/-- The tracing role of the shipped policy has the number of kprobes by some name. -/
theorem shipped_kprobe_agrees :
    (Call.progLoad (some 2)).hook (Function.update (fun _ => none) ⟨7⟩
        (some (Policy.shipped.entry shippedEbpf ⟨0, 0, 0, 0, 3, #v[0, 0, 0]⟩))) (.ok 7) = 0 ↔
      ∃ t, progTypeToBit t = some 2 ∧ Policy.shipped.isProgOpAllowed shippedEbpf t "load" = true :=
  (modes_agree Policy.shipped shippedEbpf (by decide)
    (plainTypes_ofInserts (by decide) tracing_in_ceiling.1 (by decide) (by decide))
    (plainTypes_ofInserts (by decide) tracing_in_ceiling.2 (by decide) (by decide)) _ _ _ _).2.1

end BpfRbacd
