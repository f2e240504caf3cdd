import BpfRbacd.Lib.Output
import BpfRbacd.Lib.Utf8
import BpfRbacd.Protocol.Debug
import BpfRbacd.Cli
import BpfRbacd.Daemon.Attributes
import BpfRbacd.Daemon.Faults

/-!
# The client program

`main` of `src/bin/bpf-rbac.rs`, over the client library. Its standard output
can fail like everything else; an error that it returns is its result.

Together with the daemon, in a session in which anything can fail: the line of
a success is printed only for a descriptor of the map that was asked for on the
command line (`success_means_own_map`), and a command that asks for nothing
makes the daemon do nothing (`idle_command_causes_nothing`).
-/

namespace BpfRbacd.Cli

open Interaction Relation
open Client (BpfRbacClient)
open Session

instance (op : PrintOp Client.Op) : Nonempty (PrintRes Client.Res op) := by
  rcases op with op | text
  · cases op <;> exact ⟨.error ""⟩
  · exact ⟨.error ""⟩

inductive Commands where
  | createMap (args : CreateMap)
  | status

def CreateMapArgs.toMapArgs (result : CreateMapArgs) : MapArgs :=
  ⟨result.mapType, result.name, result.keySize, result.valueSize, result.maxEntries⟩

def successText (fd : RawFd) : String := "\n✓ Success! BPF map created with FD: " ++ toString fd

def main : Commands → Printing Client.Op Client.Res String Unit
  | .createMap args => do
    let result ← quietly (ExceptT.mk (pure args.resolve))
    println "Connecting to BPF RBAC daemon..."
    let client ← quietly BpfRbacClient.connect
    println "Requesting map creation:"
    println ("  Type: " ++ result.mapType)
    println ("  Name: " ++ result.name)
    println ("  Key size: " ++ toString result.keySize ++ " bytes")
    println ("  Value size: " ++ toString result.valueSize ++ " bytes")
    println ("  Max entries: " ++ toString result.maxEntries)
    let fd ← quietly
      (client.createMap result.mapType result.name result.keySize result.valueSize result.maxEntries)
    println (successText fd)
    println "\nYou can now use this FD to read/write map data."
  | .status => do
    match ← quietly (attempt BpfRbacClient.connect) with
    | .ok _ => println "✓ BPF RBAC daemon is running"
    | .error e => println ("✗ Daemon not available: " ++ e)

/-- The bytes of printed lines. -/
def textOf (lines : List String) : List UInt8 := lines.flatMap fun line => Utf8.encode (line ++ "\n").toList

-- ---------------------------------------------------------------------------
-- Alone
-- ---------------------------------------------------------------------------

/-- What is printed once the daemon is there. -/
def announcement (result : CreateMapArgs) : List String := [
  "Requesting map creation:",
  "  Type: " ++ result.mapType,
  "  Name: " ++ result.name,
  "  Key size: " ++ toString result.keySize ++ " bytes",
  "  Value size: " ++ toString result.valueSize ++ " bytes",
  "  Max entries: " ++ toString result.maxEntries]

def successLines (result : CreateMapArgs) (fd : RawFd) : List String :=
  "Connecting to BPF RBAC daemon..." :: announcement result ++
    [successText fd, "\nYou can now use this FD to read/write map data."]

/-- A success begins on a new line, and no text before it does. -/
def NewLine (text : String) : Prop := text.toList.head? = some '\n'

theorem newLine_success (fd : RawFd) : NewLine (successText fd ++ "\n") := by
  unfold NewLine successText
  generalize toString fd = text
  simp

theorem not_newLine_connecting :
    ∀ line ∈ ["Connecting to BPF RBAC daemon..."], ¬ NewLine (line ++ "\n") := by
  simp [NewLine]

theorem not_newLine_announcement (result : CreateMapArgs) :
    ∀ line ∈ announcement result, ¬ NewLine (line ++ "\n") := by
  simp [announcement, NewLine]

section
variable {W : World (PrintOp Client.Op) (PrintRes Client.Res)} {s s' : W.State} {tr : List (Event W)}
  {args : CreateMap} {r : Except (Failure String) Unit}

/-- No text begins on a new line. -/
def Modest (tr : List (Event W)) : Prop := ∀ w ∈ prints tr, ¬ NewLine w.1

/-- After the line of the success there is only the last line, if it could be printed. -/
inductive Ends : Except String Unit → List (Event W) → Except (Failure String) Unit → Prop
  | panicked {e : String} : Ends (.error e) [] (.error (printFailure e))
  | ended {m : W.State} {a : Except String Unit} :
      Ends (.ok ()) [⟨m, .print ("\nYou can now use this FD to read/write map data." ++ "\n"), a⟩]
        (a.mapError printFailure)

variable (args) in
/-- How `create-map` runs: to the line of the success, or not so far. -/
inductive Creates : List (Event W) → Except (Failure String) Unit → Prop
  | without {tr : List (Event W)} {f : Failure String} : Modest tr → Creates tr (.error f)
  | success {result : CreateMapArgs} {sock fd : RawFd} {tr after : List (Event W)} {m : W.State}
      {a : Except String Unit} {called : List (Reply Client.Op Client.Res)} {r : Except (Failure String) Unit} :
      args.resolve = .ok result →
      prints tr = ("Connecting to BPF RBAC daemon..." :: announcement result).map
        (fun line => (line ++ "\n", .ok ())) →
      inner tr = reply (.connect Client.socketPath) (.ok sock) :: called →
      Called result.toMapArgs.request called (.ok fd) → Ends a after r →
      Creates (tr ++ ⟨m, .print (successText fd ++ "\n"), a⟩ :: after) r

theorem modest_of_prints {lines : List String} (htr : prints tr = lines.map fun line => (line ++ "\n", .ok ()))
    (h : ∀ line ∈ lines, ¬ NewLine (line ++ "\n")) : Modest tr := by
  intro w hw
  rw [htr] at hw
  obtain ⟨line, hline, rfl⟩ := List.mem_map.mp hw
  exact h line hline

theorem modest_of_announced {result : CreateMapArgs}
    (htr : prints tr = ("Connecting to BPF RBAC daemon..." :: announcement result).map
      (fun line => (line ++ "\n", .ok ()))) : Modest tr := by
  refine modest_of_prints htr (List.forall_mem_cons.mpr ⟨?_, not_newLine_announcement result⟩)
  exact not_newLine_connecting _ (List.mem_singleton.mpr rfl)

theorem modest_of_prints_nil (h : prints tr = []) : Modest tr := by
  intro w hw
  rw [h] at hw
  cases hw

theorem Modest.append {t₁ t₂ : List (Event W)} (h₁ : Modest t₁) (h₂ : Modest t₂) : Modest (t₁ ++ t₂) := by
  intro w hw
  rw [prints_append] at hw
  exact (List.mem_append.mp hw).elim (h₁ w) (h₂ w)

theorem Modest.not_success (h : Modest tr) (fd : RawFd) (a : Except String Unit) :
    (successText fd ++ "\n", a) ∉ prints tr :=
  fun hline => h _ hline (newLine_success fd)

theorem modest_of_panics {lines : List String} (h : Panics lines tr r)
    (hlines : ∀ line ∈ lines, ¬ NewLine (line ++ "\n")) : Modest tr := by
  intro w hw
  obtain ⟨line, hline, htext⟩ := h.tried w hw
  rw [htext]
  exact hlines line hline

theorem connect_ok {V : World Client.Op Client.Res} {s s' : V.State} {tr : List (Event V)}
    {q : Except String BpfRbacClient} (h : Exec V BpfRbacClient.connect.run s tr q s') :
    ∃ a, tr = [⟨s, .connect Client.socketPath, a⟩] ∧ q = a.map (⟨·⟩) := by
  rcases exec_run_bind.mp h with ⟨e, hconnect, rfl⟩ | ⟨sock, _, _, _, hconnect, hret, rfl⟩
  · obtain ⟨-, rfl⟩ := exec_fallible.mp hconnect
    exact ⟨_, rfl, rfl⟩
  · obtain ⟨-, rfl⟩ := exec_fallible.mp hconnect
    obtain ⟨rfl, rfl, -⟩ := exec_run_pure.mp hret
    exact ⟨_, rfl, rfl⟩

theorem main_createMap (h : Exec W (main (.createMap args)).run s tr r s') : Creates args tr r := by
  unfold main at h
  rcases exec_quietly_bind h with ⟨e, -, hnone, rfl⟩ | ⟨result, m, t₀, t, hargs, hnone, h₁, rfl⟩
  · exact .without (modest_of_prints_nil hnone)
  obtain ⟨hinner, hresult, -⟩ := exec_pure.mp hargs
  have hmodest := modest_of_prints_nil hnone
  have h₁ : Exec W (printlns ["Connecting to BPF RBAC daemon..."] _).run m t r s' := h₁
  rcases exec_printlns h₁ with hpanics | ⟨m₁, t₁, t, hinner₁, hprints₁, h₂, rfl⟩
  · obtain ⟨e, rfl⟩ := hpanics.failed
    exact .without (hmodest.append (modest_of_panics hpanics not_newLine_connecting))
  have hmodest := hmodest.append (modest_of_prints hprints₁ not_newLine_connecting)
  rw [← List.append_assoc]
  rcases exec_quietly_bind h₂ with ⟨e, -, hnone₂, rfl⟩ | ⟨client, m₂, t₂, t, hconnect, hnone₂, h₃, rfl⟩
  · exact .without (hmodest.append (modest_of_prints_nil hnone₂))
  have hmodest := hmodest.append (modest_of_prints_nil hnone₂)
  obtain ⟨a, hinner₂, ha⟩ := connect_ok hconnect
  have h₃ : Exec W (printlns (announcement result) _).run m₂ t r s' := h₃
  rw [← List.append_assoc]
  rcases exec_printlns h₃ with hpanics | ⟨m₃, t₃, t, hinner₃, hprints₃, h₄, rfl⟩
  · obtain ⟨e, rfl⟩ := hpanics.failed
    exact .without (hmodest.append (modest_of_panics hpanics (not_newLine_announcement result)))
  have hmodest := hmodest.append (modest_of_prints hprints₃ (not_newLine_announcement result))
  rw [← List.append_assoc]
  rcases exec_quietly_bind h₄ with ⟨e, -, hnone₄, rfl⟩ | ⟨fd, m₄, t₄, t, hcall, hnone₄, h₅, rfl⟩
  · exact .without (hmodest.append (modest_of_prints_nil hnone₄))
  rw [← List.append_assoc]
  have hprinted : prints (t₀ ++ t₁ ++ t₂ ++ t₃ ++ t₄) =
      ("Connecting to BPF RBAC daemon..." :: announcement result).map (fun line => (line ++ "\n", .ok ())) := by
    simp only [prints_append, hnone, hprints₁, hnone₂, hprints₃, hnone₄, List.append_nil]
    rfl
  cases a with
  | error => cases ha
  | ok sock =>
    have hissued : inner (t₀ ++ t₁ ++ t₂ ++ t₃ ++ t₄) =
        reply (.connect Client.socketPath) (.ok sock) :: inner t₄ := by
      simp only [inner_append, hinner, hinner₁, hinner₂, hinner₃]
      rfl
    rcases exec_println_bind h₅ with ⟨e, rfl, rfl⟩ | ⟨m₅, t, h₆, rfl⟩
    · exact .success hresult.symm hprinted hissued (createMap_called hcall) .panicked
    · obtain ⟨a, rfl, rfl⟩ := exec_println h₆
      exact .success hresult.symm hprinted hissued (createMap_called hcall) .ended

theorem append_line_inj {head text text' : String} (h : head ++ text ++ "\n" = head ++ text' ++ "\n") :
    text.toList = text'.toList := by
  have hlists := congrArg String.toList h
  simp only [String.toList_append] at hlists
  exact List.append_cancel_left (List.append_cancel_right hlists)

theorem successText_inj {fd fd' : RawFd} (h : successText fd ++ "\n" = successText fd' ++ "\n") :
    fd = fd' :=
  toString_i32_inj (append_line_inj h)

theorem successText_ne_last (fd : RawFd) :
    successText fd ++ "\n" ≠ "\nYou can now use this FD to read/write map data." ++ "\n" := by
  intro h
  have hsecond : (successText fd ++ "\n").toList[1]? = some '✓' := by
    unfold successText
    generalize toString fd = text
    simp
  rw [h] at hsecond
  exact absurd hsecond (by decide)

theorem Ends.not_success {a : Except String Unit} {after : List (Event W)} (h : Ends a after r) (fd : RawFd) :
    ∀ w ∈ prints after, w.1 ≠ successText fd ++ "\n" := by
  intro w hw
  cases h with
  | panicked => cases hw
  | ended =>
    rw [List.mem_singleton.mp hw]
    exact (successText_ne_last fd).symm

theorem Ends.inner {a : Except String Unit} {after : List (Event W)} (h : Ends a after r) : inner after = [] := by
  cases h <;> rfl

/-- The line of the success comes after the call, and with its descriptor. -/
theorem Creates.announced {log rest : List (Event W)} (h : Creates args (log ++ rest) r) {fd : RawFd}
    {a : Except String Unit} (hline : (successText fd ++ "\n", a) ∈ prints log) :
    ∃ result sock called, args.resolve = .ok result ∧
      inner log = reply (.connect Client.socketPath) (.ok sock) :: called ∧
      Called result.toMapArgs.request called (.ok fd) := by
  generalize htr : log ++ rest = tr at h
  cases h with
  | without hmodest =>
    refine absurd ?_ (hmodest.not_success fd a)
    rw [← htr, prints_append]
    exact List.mem_append_left _ hline
  | @success result sock fd' before after m a' called _ hresult hprints hinner hcalled hends =>
    have hbefore := (modest_of_announced hprints).not_success fd a
    rcases List.append_eq_append_iff.mp htr with ⟨tr, rfl, -⟩ | ⟨tr, rfl, hafter⟩
    · rw [prints_append] at hbefore
      exact absurd (List.mem_append_left _ hline) hbefore
    cases tr with
    | nil =>
      rw [List.append_nil] at hline
      exact absurd hline hbefore
    | cons e tr =>
      obtain ⟨rfl, hrest⟩ := List.cons.inj hafter
      have hrest : after = tr ++ rest := hrest
      subst hrest
      have hsilent : inner tr = [] := by
        have hnone := hends.inner
        rw [inner_append] at hnone
        exact (List.append_eq_nil_iff.mp hnone).1
      have hfd : fd' = fd := by
        rw [prints_append] at hline
        rcases List.mem_append.mp hline with hline | hline
        · exact absurd hline hbefore
        rcases List.mem_cons.mp hline with hline | hline
        · exact (successText_inj (congrArg Prod.fst hline)).symm
        · have hnever := hends.not_success fd
          rw [prints_append] at hnever
          exact absurd rfl (hnever _ (List.mem_append_left _ hline))
      subst hfd
      refine ⟨result, sock, called, hresult, ?_, hcalled⟩
      rw [inner_append, hinner]
      show _ ++ inner tr = _
      rw [hsilent, List.append_nil]

/-- The text that `main` prints where it returns without an error. -/
theorem Creates.printed (h : Creates args tr (.ok ())) :
    ∃ result fd a, args.resolve = .ok result ∧ (successText fd ++ "\n", a) ∈ prints tr ∧
      prints tr = (successLines result fd).map fun line => (line ++ "\n", .ok ()) := by
  generalize hr : (.ok () : Except (Failure String) Unit) = r at h
  cases h with
  | without => cases hr
  | @success result sock fd before after m a called _ hresult hprints _ _ hends =>
    cases hends with
    | panicked => cases hr
    | @ended m' a =>
      cases a with
      | error => cases hr
      | ok =>
        refine ⟨result, fd, .ok (), hresult, ?_, ?_⟩
        · rw [prints_append]
          exact List.mem_append_right _ List.mem_cons_self
        · rw [prints_append, hprints, successLines, List.map_append]
          rfl

theorem Creates.unannounced {e : String} (h : Creates args tr (.error (.error e))) (fd : RawFd)
    (a : Except String Unit) : (successText fd ++ "\n", a) ∉ prints tr := by
  generalize hr : (.error (.error e) : Except (Failure String) Unit) = r at h
  cases h with
  | without hmodest => exact hmodest.not_success fd a
  | success _ _ _ _ hends =>
    cases hends with
    | panicked => cases hr
    | @ended _ a => cases a <;> cases hr

theorem main_rejected {e : String} (he : args.resolve = .error e)
    (h : Exec W (main (.createMap args)).run s tr r s') :
    inner tr = [] ∧ prints tr = [] ∧ r = .error (.error e) := by
  unfold main at h
  rcases exec_quietly_bind h with ⟨e', hargs, hnone, rfl⟩ | ⟨result, m, t₀, t, hargs, -⟩
  · obtain ⟨hinner, hsame, -⟩ := exec_pure.mp hargs
    rw [he] at hsame
    cases hsame
    exact ⟨hinner, hnone, rfl⟩
  · obtain ⟨-, hsame, -⟩ := exec_pure.mp hargs
    rw [he] at hsame
    cases hsame

/-- The two lines of `status`. -/
def StatusLine (line : String) : Prop :=
  line = "✓ BPF RBAC daemon is running" ∨ ∃ e, line = "✗ Daemon not available: " ++ e

theorem main_status (h : Exec W (main .status).run s tr r s') :
    attempted (inner tr) = [] ∧ ∃ line a, StatusLine line ∧ prints tr = [(line ++ "\n", a)] ∧
      r = a.mapError printFailure := by
  unfold main at h
  rcases exec_quietly_bind h with ⟨e, hconnect, -, -⟩ | ⟨answer, m, t₁, t, hconnect, hnone, h₁, rfl⟩
  · obtain ⟨_, -, he⟩ := exec_run_attempt.mp hconnect
    cases he
  obtain ⟨q, hconnect, hq⟩ := exec_run_attempt.mp hconnect
  cases hq
  obtain ⟨a, hinner, rfl⟩ := connect_ok hconnect
  rw [inner_append, prints_append, hinner, hnone]
  cases a with
  | error e =>
    obtain ⟨a, rfl, rfl⟩ := exec_println h₁
    exact ⟨rfl, _, a, .inr ⟨e, rfl⟩, rfl, rfl⟩
  | ok sock =>
    obtain ⟨a, rfl, rfl⟩ := exec_println h₁
    exact ⟨rfl, _, a, .inl rfl, rfl, rfl⟩

end

-- ---------------------------------------------------------------------------
-- With the daemon
-- ---------------------------------------------------------------------------

/-- A session and the program's standard output. -/
structure Console where
  channel : Channel
  log : List (Reply (PrintOp Client.Op) (PrintRes Client.Res))
  output : List UInt8

section
variable (wire : Bincode)

def programFault (s : Console) (op : PrintOp Client.Op) (r : PrintRes Client.Res op) (s' : Console) : Prop :=
  s'.log = s.log ++ [reply op r] ∧
    match op, r with
    | .op op, r => clientFault wire s.channel op r s'.channel ∧ s'.output = s.output
    | .print text, r => Appends (Utf8.encode text.toList) r s.output s'.output ∧ s'.channel = s.channel

def serverFault (s : Console) (op : Daemon.Op) (r : Daemon.Res op) (s' : Console) : Prop :=
  daemonFault wire s.channel op r s'.channel ∧ s'.log = s.log ∧ s'.output = s.output

/-- The daemon sees of the program only what is not printing. -/
structure Console.Honest (s : Console) : Prop where
  channel : Session.Honest wire s.channel
  issued : inner s.log = s.channel.clientLog
  shown : Poured ((prints s.log).map fun w => (Utf8.encode w.1.toList, w.2)) [] s.output

def Console.connected : Console := ⟨.connected, [], []⟩

/-- A session of the program and the daemon that serves it. -/
abbrev ProgramConfig :=
  Config (PrintOp Client.Op) (PrintRes Client.Res) Daemon.Op Daemon.Res Console (Except (Failure String) Unit)
    (Except String Unit)

def start (printable : Char → Bool) (policy : Policy) (stream : RawFd) (command : Commands) : ProgramConfig :=
  ⟨(main command).run, Daemon.handleClient printable policy stream, .connected⟩

abbrev Reaches (printable : Char → Bool) (policy : Policy) (stream : RawFd) (command : Commands)
    (c : ProgramConfig) : Prop :=
  ReflTransGen (Steps (programFault wire) (serverFault wire)) (start printable policy stream command) c

end

section
variable {wire : Bincode} {printable : Char → Bool} {policy : Policy} {stream : RawFd} {s s' : Console}
  {c : ProgramConfig} {command : Commands}

theorem console_logged :
    Logs (programFault wire) (serverFault wire) Console.log fun s => s.channel.daemonLog where
  left {s op r s'} h := by
    obtain ⟨hlog, heffect⟩ := h
    refine ⟨hlog, ?_⟩
    cases op with
    | op op => exact heffect.1.2.1
    | print text => rw [heffect.2]
  right h := ⟨h.1.1, h.2.1⟩

theorem Console.Honest.program {op : PrintOp Client.Op} {r : PrintRes Client.Res op}
    (h : programFault wire s op r s') (hs : s.Honest wire) : s'.Honest wire := by
  obtain ⟨hlog, heffect⟩ := h
  cases op with
  | op op =>
    obtain ⟨hclient, houtput⟩ := heffect
    refine ⟨hs.channel.client hclient, ?_, ?_⟩
    · rw [hlog, inner_append, hs.issued, hclient.1]
      rfl
    · rw [hlog, prints_append, houtput]
      show Poured ((prints s.log ++ []).map _) [] s.output
      rw [List.append_nil]
      exact hs.shown
  | print text =>
    obtain ⟨happends, hchannel⟩ := heffect
    refine ⟨hchannel ▸ hs.channel, ?_, ?_⟩
    · rw [hlog, inner_append, hs.issued, hchannel]
      exact List.append_nil _
    · rw [hlog, prints_append, List.map_append]
      exact hs.shown.snoc happends

theorem Console.Honest.server {op : Daemon.Op} {r : Daemon.Res op} (h : serverFault wire s op r s')
    (hs : s.Honest wire) : s'.Honest wire := by
  obtain ⟨hdaemon, hlog, houtput⟩ := h
  refine ⟨hs.channel.daemon hdaemon, ?_, ?_⟩
  · rw [hlog, hs.issued]
    exact hdaemon.2.1.symm
  · rw [hlog, houtput]
    exact hs.shown

theorem Reaches.honest (h : Reaches wire printable policy stream command c) : c.shared.Honest wire :=
  steps_invariant (fun _ _ _ _ => Console.Honest.program) (fun _ _ _ _ => Console.Honest.server) h
    ⟨connected_honest wire, rfl, rfl⟩

theorem Reaches.paths (h : Reaches wire printable policy stream command c) :
    Path (main command).run c.shared.log c.left ∧
      Path (Daemon.handleClient printable policy stream) c.shared.channel.daemonLog c.right :=
  console_logged.reach rfl rfl h

/-- The descriptor is that of the daemon's one map, and the map is the one asked
for, name included. The policy allows a role of the peer to create it. -/
def OwnMap (policy : Policy) (stream : RawFd) (s : Channel) (result : CreateMapArgs) (fd : RawFd) : Prop :=
  ∃ call, Grants policy stream s.daemonLog result.toMapArgs.request call ∧
    Daemon.createAttr result.toMapArgs.request = some call.attr ∧ s.installed = [(fd, call.result.toInt32)]

theorem own_map {s : Channel} {q : Prog Daemon.Op Daemon.Res (Except String Unit)} {result : CreateMapArgs}
    {sock fd : RawFd} {called : List (Reply Client.Op Client.Res)} (hs : Session.Honest wire s)
    (htrailing : ∀ request rest,
      wire.request.deserialize (wire.request.serialize request ++ rest) = .ok request)
    (hpath : Path (Daemon.handleClient printable policy stream) s.daemonLog q)
    (hlog : s.clientLog = reply (.connect Client.socketPath) (.ok sock) :: called)
    (hcalled : Called result.toMapArgs.request called (.ok fd)) : OwnMap policy stream s result fd := by
  obtain ⟨bytes, m, hattempted, hserialized⟩ := hcalled.once fd rfl
  obtain rfl : bytes = wire.request.serialize result.toMapArgs.request := by
    refine hs.serialized _ _ ?_
    rw [hlog]
    exact List.mem_cons_of_mem _ hserialized
  have hfirst : wire.request.serialize result.toMapArgs.request <+: s.piped := by
    have hwrites : attempted s.clientLog = [(wire.request.serialize result.toMapArgs.request, .ok ())] := by
      rw [hlog]
      exact hattempted
    exact hs.first_piped hwrites (by simp)
  have hread_first : ∀ {request}, Daemon.ReadFrom stream request s.daemonLog →
      request = result.toMapArgs.request := by
    intro request hread
    obtain ⟨bytes, -, hbytes, hdecodes⟩ := hs.read_piped hpath hread
    exact eq_of_deserialize_prefix htrailing hbytes hdecodes hfirst
  have hgot : fd ∈ gotten s.clientLog := by
    rw [hlog]
    show fd ∈ gotten called
    rw [(hcalled.ok fd rfl).2]
    exact List.mem_singleton.mpr rfl
  obtain ⟨request, call, hread, hgrants, hinstalled⟩ := hs.installed_map hpath hgot
  obtain rfl := hread_first hread
  refine ⟨call, hgrants, ?_, hinstalled⟩
  have hcall : call ∈ Daemon.bpfCalls s.daemonLog := by
    rw [hgrants.only]
    exact List.mem_singleton.mpr rfl
  obtain ⟨before, m, after, hsplit⟩ := Daemon.exists_of_mem_bpfCalls hcall
  obtain ⟨rest, r, hrun⟩ := hpath.completes
  rw [hsplit, List.append_assoc, List.cons_append] at hrun
  obtain ⟨request, hissued, -, -, hattr⟩ := Daemon.handleClient_callsFor hrun id id nofun
  rwa [hread_first (hissued.mono (hsplit ▸ List.subset_append_left _ _))] at hattr

/-- Whatever fails, and however the two interleave: once `create-map` has tried
to print the line of a success, its descriptor is that of the daemon's one map.
That map is the one the command line asks for, and the policy allows a role of
the peer to create it. An end without an error has printed the whole text of a
success, an error that `main` returns none of its line. -/
theorem success_means_own_map (wire : Bincode)
    (htrailing : ∀ request rest,
      wire.request.deserialize (wire.request.serialize request ++ rest) = .ok request)
    (printable : Char → Bool) (policy : Policy) (stream : RawFd) (args : CreateMap) (c : ProgramConfig)
    (hreach : Reaches wire printable policy stream (.createMap args) c) :
    (∀ fd a, (successText fd ++ "\n", a) ∈ prints c.shared.log →
      ∃ result, args.resolve = .ok result ∧ OwnMap policy stream c.shared.channel result fd) ∧
      (c.left = .ret (.ok ()) → ∃ result fd, args.resolve = .ok result ∧
        c.shared.output = textOf (successLines result fd) ∧ OwnMap policy stream c.shared.channel result fd) ∧
      ∀ e, c.left = .ret (.error (.error e)) → ∀ fd a, (successText fd ++ "\n", a) ∉ prints c.shared.log := by
  obtain ⟨hprogram, hdaemon⟩ := hreach.paths
  have hhonest := hreach.honest
  have hown : ∀ fd a, (successText fd ++ "\n", a) ∈ prints c.shared.log →
      ∃ result, args.resolve = .ok result ∧ OwnMap policy stream c.shared.channel result fd := by
    intro fd a hline
    obtain ⟨rest, r, hrun⟩ := hprogram.completes
    obtain ⟨result, sock, called, hresult, hissued, hcalled⟩ := (main_createMap hrun).announced hline
    rw [hhonest.issued] at hissued
    exact ⟨result, hresult, own_map hhonest.channel htrailing hdaemon hissued hcalled⟩
  refine ⟨hown, fun hret => ?_, fun e hret => ?_⟩
  · rw [hret] at hprogram
    obtain ⟨result, fd, a, hresult, hline, hprints⟩ := (main_createMap hprogram.returned).printed
    obtain ⟨result', hresult', hmap⟩ := hown fd a hline
    obtain rfl : result = result' := Except.ok.inj (hresult.symm.trans hresult')
    refine ⟨result, fd, hresult, ?_, hmap⟩
    have hshown := hhonest.shown.ok
    rw [hprints] at hshown
    rw [hshown (by simp), textOf, List.nil_append, List.map_map, List.flatMap_map]
    rfl
  · rw [hret] at hprogram
    exact (main_createMap hprogram.returned).unannounced

-- ---------------------------------------------------------------------------
-- Commands that ask for nothing
-- ---------------------------------------------------------------------------

/-- `status`, and arguments that are rejected. -/
def Commands.Idle : Commands → Prop
  | .createMap args => ∃ e, args.resolve = .error e
  | .status => True

/-- What an idle command reports. -/
def Commands.Reports (r : Except (Failure String) Unit) (output : List UInt8) : Commands → Prop
  | .createMap args => (∃ e, args.resolve = .error e ∧ r = .error (.error e)) ∧ output = []
  | .status => ∃ line, StatusLine line ∧
      (r = .ok () ∧ output = textOf [line] ∨ (∃ e, r = .error (printFailure e)) ∧ output <+: textOf [line])

theorem Commands.Idle.attempted {W : World (PrintOp Client.Op) (PrintRes Client.Res)} {m m' : W.State}
    {tr : List (Event W)} {command : Commands} {r : Except (Failure String) Unit} (h : command.Idle)
    (hrun : Exec W (main command).run m tr r m') : Session.attempted (inner tr) = [] := by
  cases command with
  | status => exact (main_status hrun).1
  | createMap args =>
    obtain ⟨e, he⟩ := h
    rw [(main_rejected he hrun).1]
    rfl

theorem Commands.Idle.reports {W : World (PrintOp Client.Op) (PrintRes Client.Res)} {m m' : W.State}
    {tr : List (Event W)} {command : Commands} {r : Except (Failure String) Unit} {output : List UInt8}
    (h : command.Idle) (hrun : Exec W (main command).run m tr r m')
    (hshown : Poured ((prints tr).map fun w => (Utf8.encode w.1.toList, w.2)) [] output) :
    command.Reports r output := by
  cases command with
  | status =>
    obtain ⟨-, line, a, hline, hprints, rfl⟩ := main_status hrun
    rw [hprints] at hshown
    have happends := poured_singleton.mp hshown
    have htext : textOf [line] = Utf8.encode (line ++ "\n").toList := by simp [textOf]
    refine ⟨line, hline, ?_⟩
    rw [htext]
    cases a with
    | ok => exact .inl ⟨rfl, happends⟩
    | error e =>
      obtain ⟨part, hpart, rfl⟩ := happends
      exact .inr ⟨⟨e, rfl⟩, hpart⟩
  | createMap args =>
    obtain ⟨e, he⟩ := h
    obtain ⟨-, hnone, rfl⟩ := main_rejected he hrun
    rw [hnone] at hshown
    exact ⟨⟨e, he, rfl⟩, hshown⟩

/-- What the daemon does for a client that sends nothing. -/
def WaitsOn (stream : RawFd) (op : Daemon.Op) : Prop := op.Identifying ∨ op.Reading ∨ op = .close stream

theorem waits_of_piped_nil {s : Channel} {q : Prog Daemon.Op Daemon.Res (Except String Unit)}
    (hs : Session.Honest wire s) (hpath : Path (Daemon.handleClient printable policy stream) s.daemonLog q)
    (hnone : s.piped = []) : ∀ e ∈ s.daemonLog, WaitsOn stream e.op := by
  intro e he
  by_contra hother
  obtain ⟨hidentifying, hrest⟩ := not_or.mp hother
  obtain ⟨hreading, hclose⟩ := not_or.mp hrest
  obtain ⟨before, after, hlog⟩ := List.append_of_mem he
  obtain ⟨rest, r, hrun⟩ := hpath.completes
  rw [hlog, List.append_assoc, List.cons_append] at hrun
  obtain ⟨request, hread, -⟩ := Daemon.handleClient_callsFor hrun hidentifying hreading hclose
  obtain ⟨bytes, hsome, hbytes, -⟩ := hs.read_piped hpath (hread.mono (hlog ▸ List.subset_append_left _ _))
  rw [hnone] at hbytes
  exact hsome (List.prefix_nil.mp hbytes)

theorem not_waits_sendmsg {sock fd : RawFd} {data : List UInt8} : ¬ WaitsOn stream (.sendmsg sock fd data) := by
  simp [WaitsOn, Daemon.Op.Identifying, Daemon.Op.Reading]

theorem not_waits_writeAll {sock : RawFd} {data : List UInt8} : ¬ WaitsOn stream (.writeAll sock data) := by
  simp [WaitsOn, Daemon.Op.Identifying, Daemon.Op.Reading]

/-- `status` and rejected arguments make the daemon identify the peer and read,
and nothing else: no call is made and nothing is sent, at any time. -/
theorem idle_command_causes_nothing (wire : Bincode) (printable : Char → Bool) (policy : Policy)
    (stream : RawFd) (command : Commands) (hidle : command.Idle) (c : ProgramConfig)
    (hreach : Reaches wire printable policy stream command c) :
    attempted c.shared.channel.clientLog = [] ∧ c.shared.channel.piped = [] ∧
      (∀ e ∈ c.shared.channel.daemonLog, WaitsOn stream e.op) ∧ c.shared.channel.installed = [] ∧
      ∀ r, c.left = .ret r → command.Reports r c.shared.output := by
  obtain ⟨hprogram, hdaemon⟩ := hreach.paths
  have hhonest := hreach.honest
  have hnone : attempted c.shared.channel.clientLog = [] := by
    obtain ⟨rest, r, hrun⟩ := hprogram.completes
    have hattempted := hidle.attempted hrun
    rw [inner_append, attempted_append] at hattempted
    rw [← hhonest.issued]
    exact (List.append_eq_nil_iff.mp hattempted).1
  have hpiped : c.shared.channel.piped = [] := by
    have hpoured := hhonest.channel.poured
    rw [hnone] at hpoured
    exact hpoured
  have hwaits := waits_of_piped_nil hhonest.channel hdaemon hpiped
  refine ⟨hnone, hpiped, hwaits, ?_, fun r hret => ?_⟩
  · have hsent : sent c.shared.channel.daemonLog = [] := by
      refine sent_nil fun e he hdelivers => ?_
      exact hdelivers.outside (fun _ _ _ => not_waits_sendmsg) (fun _ _ => not_waits_writeAll) (hwaits e he)
    have hprefix := hhonest.channel.sent
    rw [hsent, List.prefix_nil, List.map_eq_nil_iff] at hprefix
    exact hprefix
  · rw [hret] at hprogram
    exact hidle.reports hprogram.returned hhonest.shown

end

-- ---------------------------------------------------------------------------
-- Two sessions
-- ---------------------------------------------------------------------------

def hashFlags : CreateMap := ⟨some "hash", some "counters", some 4, some 8, none, []⟩

/-- Printing succeeds. -/
def hastyProgram (s : Console) : (op : PrintOp Client.Op) → PrintRes Client.Res op × Console
  | .op op =>
    let (r, channel) := hastyClient s.channel op
    (r, ⟨channel, s.log ++ [reply (.op op) r], s.output⟩)
  | .print text =>
    (.ok (), ⟨s.channel, s.log ++ [reply (.print text) (.ok ())], s.output ++ Utf8.encode text.toList⟩)

def hastyServer (s : Console) (op : Daemon.Op) : Daemon.Res op × Console :=
  let (r, channel) := hastyDaemon s.channel op
  (r, ⟨channel, s.log, s.output⟩)

def played (command : Commands) (schedule : List Bool) : ProgramConfig :=
  (start (fun _ => true) Policy.default 5 command).play hastyProgram hastyServer schedule

theorem played_reached (command : Commands) (schedule : List Bool) :
    Reaches bincode (fun _ => true) Policy.default 5 command (played command schedule) := by
  refine play_reaches (fun s op => ?_) (fun s op => ?_) _ _
  · cases op with
    | op op => exact ⟨rfl, hastyClient_fault s.channel op, rfl⟩
    | print text => exact ⟨rfl, rfl, rfl⟩
  · exact ⟨hastyDaemon_fault s.channel op, rfl, rfl⟩

/-- The client connects and writes, the daemon serves it, and the client receives. -/
def hashSession : ProgramConfig :=
  played (.createMap hashFlags) (List.replicate 10 true ++ List.replicate 30 false ++ List.replicate 4 true)

theorem hashSession_left : hashSession.left = .ret (.ok ()) := Prog.result?_eq_some.mp (by decide +kernel)

theorem hash_map_own : ∃ (result : CreateMapArgs) (fd : RawFd), hashFlags.resolve = .ok result ∧
    hashSession.shared.output = textOf (successLines result fd) ∧
    OwnMap Policy.default 5 hashSession.shared.channel result fd :=
  (success_means_own_map bincode requestFormat.deserialize_append (fun _ => true) Policy.default 5 hashFlags
    hashSession (played_reached _ _)).2.1 hashSession_left

/-- The daemon reads before the client has connected. -/
def statusSession : ProgramConfig := played .status (List.replicate 20 false ++ [true, true])

theorem statusSession_left : statusSession.left = .ret (.ok ()) := Prog.result?_eq_some.mp (by decide +kernel)

theorem status_session_quiet : statusSession.shared.channel.installed = [] ∧
    Commands.status.Reports (.ok ()) statusSession.shared.output := by
  obtain ⟨-, -, -, hinstalled, hreports⟩ :=
    idle_command_causes_nothing bincode (fun _ => true) Policy.default 5 .status trivial statusSession
      (played_reached _ _)
  exact ⟨hinstalled, hreports _ statusSession_left⟩

end BpfRbacd.Cli
