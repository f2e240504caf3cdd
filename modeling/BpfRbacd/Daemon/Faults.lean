import BpfRbacd.Lib.Logged
import BpfRbacd.Lib.Output
import BpfRbacd.Daemon.Serving
import BpfRbacd.Daemon.Session

/-!
# A session in which anything can fail

The two parties of a session again, where any operation may fail or be answered
in any way, as long as bytes and descriptors are not made up: a read returns
what the client wrote, as much of it as it likes, and a descriptor reaches the
client only if the daemon sent it. A write that fails may have left a part.

At most one call of the client gets a descriptor, and the map is one that the
policy allows the peer (`descriptor_of_first_written`). Its request is what the
written bytes begin with: the first request that was written, if no part of
another came before it. That need not be the request of the call that returns
the descriptor: nothing ties a response to its request.
-/

namespace BpfRbacd.Session

open Interaction Relation
open Daemon (BpfCall IssuedFor handleClient bpfCalls MemberOf ReadFrom)
open Client (BpfRbacClient receivedFd)

-- ---------------------------------------------------------------------------
-- The socket
-- ---------------------------------------------------------------------------

/-- What each party did, the bytes that the client's writes left, and the client's
descriptors beside the daemon's they came from. -/
structure Channel where
  clientLog : List (Reply Client.Op Client.Res)
  daemonLog : List (Reply Daemon.Op Daemon.Res)
  piped : List UInt8
  installed : List (RawFd × RawFd)

def Channel.connected : Channel := ⟨[], [], [], []⟩

section
variable {W : World Client.Op Client.Res} {V : World Daemon.Op Daemon.Res}

/-- What the client tried to write, and what became of it. -/
def attempted (tr : List (Event W)) : List (List UInt8 × Except String Unit) :=
  tr.filterMap fun
    | ⟨_, .writeAll _ data, r⟩ => some (data, r)
    | _ => none

/-- What the client wrote without an error, write by write. -/
def written (tr : List (Event W)) : List (List UInt8) :=
  tr.filterMap fun
    | ⟨_, .writeAll _ data, .ok _⟩ => some data
    | _ => none

/-- The descriptors that came with messages. -/
def gotten (tr : List (Event W)) : List RawFd :=
  tr.filterMap fun
    | ⟨_, .recvmsg .., .ok msg⟩ => receivedFd msg.cmsgs
    | _ => none

/-- The descriptors that went with messages. -/
def sent (tr : List (Event V)) : List RawFd :=
  tr.filterMap fun
    | ⟨_, .sendmsg _ fd _, .ok _⟩ => some fd
    | _ => none

/-- What the daemon has read. -/
def taken (tr : List (Event V)) : List UInt8 :=
  (tr.filterMap fun
    | ⟨_, .read .., .ok data⟩ => some data
    | _ => none).flatten

theorem attempted_append (t₁ t₂ : List (Event W)) : attempted (t₁ ++ t₂) = attempted t₁ ++ attempted t₂ :=
  List.filterMap_append

theorem written_append (t₁ t₂ : List (Event W)) : written (t₁ ++ t₂) = written t₁ ++ written t₂ :=
  List.filterMap_append

theorem gotten_append (t₁ t₂ : List (Event W)) : gotten (t₁ ++ t₂) = gotten t₁ ++ gotten t₂ :=
  List.filterMap_append

theorem sent_append (t₁ t₂ : List (Event V)) : sent (t₁ ++ t₂) = sent t₁ ++ sent t₂ :=
  List.filterMap_append

end

/-- What an operation of the client adds to the bytes. -/
def Pipes (op : Client.Op) (r : Client.Res op) (piped piped' : List UInt8) : Prop :=
  match op, r with
  | .writeAll _ data, r => Appends data r piped piped'
  | _, _ => piped' = piped

theorem Pipes.grows {op : Client.Op} {r : Client.Res op} {piped piped' : List UInt8}
    (h : Pipes op r piped piped') : piped <+: piped' := by
  cases op with
  | writeAll => exact Appends.grows h
  | connect | serialize | recvmsg | deserialize => exact Eq.subst (Eq.symm h) (List.prefix_refl _)

theorem Pipes.poured {op : Client.Op} {r : Client.Res op} {piped piped' : List UInt8}
    {log : List (Reply Client.Op Client.Res)} (h : Pipes op r piped piped')
    (hlog : Poured (attempted log) [] piped) :
    Poured (attempted (log ++ [reply op r])) [] piped' := by
  rw [attempted_append]
  cases op with
  | writeAll => exact hlog.snoc h
  | connect | serialize | recvmsg | deserialize =>
    obtain rfl : piped' = piped := h
    show Poured (attempted log ++ []) [] piped'
    rwa [List.append_nil]

section
variable (wire : Bincode)

def clientFault (s : Channel) (op : Client.Op) (r : Client.Res op) (s' : Channel) : Prop :=
  s'.clientLog = s.clientLog ++ [reply op r] ∧ s'.daemonLog = s.daemonLog ∧ Pipes op r s.piped s'.piped ∧
    match op, r with
    | .serialize request, .ok bytes => bytes = wire.request.serialize request ∧ s'.installed = s.installed
    | .recvmsg .., .ok msg =>
      match receivedFd msg.cmsgs with
      | some f => ∃ fd, (sent s.daemonLog)[s.installed.length]? = some fd ∧
          s'.installed = s.installed ++ [(f, fd)]
      | none => s'.installed = s.installed
    | _, _ => s'.installed = s.installed

def daemonFault (s : Channel) (op : Daemon.Op) (r : Daemon.Res op) (s' : Channel) : Prop :=
  s'.daemonLog = s.daemonLog ++ [reply op r] ∧ s'.clientLog = s.clientLog ∧ s'.piped = s.piped ∧
    s'.installed = s.installed ∧
    match op, r with
    | .read .., .ok data => data <+: s.piped.drop (taken s.daemonLog).length
    | .deserialize bytes, r => r = wire.request.deserialize bytes
    | _, _ => True

theorem faults_logged : Logs (clientFault wire) (daemonFault wire) Channel.clientLog Channel.daemonLog where
  left h := ⟨h.1, h.2.1⟩
  right h := ⟨h.1, h.2.1⟩

/-- What the logs of a session are worth. -/
structure Honest (s : Channel) : Prop where
  serialized : ∀ request bytes, reply (.serialize request) (.ok bytes) ∈ s.clientLog →
    bytes = wire.request.serialize request
  read : ∀ before stream size data after,
    s.daemonLog = before ++ reply (.read stream size) (.ok data) :: after →
    data <+: s.piped.drop (taken before).length
  poured : Poured (attempted s.clientLog) [] s.piped
  decoded : ∀ bytes request, reply (.deserialize bytes) (.ok request) ∈ s.daemonLog →
    wire.request.deserialize bytes = .ok request
  gotten : s.installed.map (·.1) = gotten s.clientLog
  sent : s.installed.map (·.2) <+: sent s.daemonLog

theorem connected_honest : Honest wire .connected where
  serialized := by simp [Channel.connected]
  read := by simp [Channel.connected]
  poured := rfl
  decoded := by simp [Channel.connected]
  gotten := rfl
  sent := List.nil_prefix

end

section
variable {wire : Bincode} {s s' : Channel}

theorem prefix_concat_of_getElem? {α : Type} {l m : List α} {a : α} (h : l <+: m) (ha : m[l.length]? = some a) :
    l ++ [a] <+: m := by
  obtain ⟨rest, rfl⟩ := h
  rw [List.getElem?_append_right (Nat.le_refl _), Nat.sub_self] at ha
  cases rest with
  | nil => cases ha
  | cons b rest =>
    cases ha
    exact ⟨rest, by simp⟩

theorem clientFault_installed {op : Client.Op} {r : Client.Res op} (h : clientFault wire s op r s')
    (hsent : s.installed.map (·.2) <+: sent s.daemonLog) :
    s'.installed.map (·.1) = s.installed.map (·.1) ++ gotten [reply op r] ∧
      s'.installed.map (·.2) <+: sent s.daemonLog := by
  obtain ⟨-, -, -, heffect⟩ := h
  have hsame : s'.installed = s.installed → gotten [reply op r] = [] →
      s'.installed.map (·.1) = s.installed.map (·.1) ++ gotten [reply op r] ∧
        s'.installed.map (·.2) <+: sent s.daemonLog := by
    intro hinstalled hnone
    rw [hinstalled, hnone, List.append_nil]
    exact ⟨rfl, hsent⟩
  cases op with
  | recvmsg stream size fds =>
    cases r with
    | error => exact hsame heffect rfl
    | ok msg =>
      have hgotten : gotten [reply (.recvmsg stream size fds) (.ok msg)] = (receivedFd msg.cmsgs).toList := by
        cases hfd : receivedFd msg.cmsgs <;> simp [gotten, reply, hfd]
      cases hfd : receivedFd msg.cmsgs with
      | none =>
        simp only [hfd] at heffect
        exact hsame heffect (by rw [hgotten, hfd]; rfl)
      | some f =>
        simp only [hfd] at heffect
        obtain ⟨fd, hget, hinstalled⟩ := heffect
        rw [hinstalled, hgotten, hfd, List.map_append, List.map_append]
        refine ⟨rfl, prefix_concat_of_getElem? hsent ?_⟩
        rwa [List.length_map]
  | serialize =>
    cases r with
    | error => exact hsame heffect rfl
    | ok => exact hsame heffect.2 rfl
  | connect | writeAll | deserialize => exact hsame heffect rfl

theorem Honest.client {op : Client.Op} {r : Client.Res op} (h : clientFault wire s op r s')
    (hs : Honest wire s) :
    Honest wire s' := by
  have hinstalled := clientFault_installed h hs.sent
  obtain ⟨hclient, hdaemon, hpipes, heffect⟩ := h
  constructor
  · intro request bytes hmem
    rw [hclient, List.mem_append, List.mem_singleton] at hmem
    rcases hmem with hmem | hlast
    · exact hs.serialized _ _ hmem
    · cases hlast
      exact heffect.1
  · intro before stream size data after hlog
    rw [hdaemon] at hlog
    exact (hs.read _ _ _ _ _ hlog).trans (hpipes.grows.drop _)
  · rw [hclient]
    exact hpipes.poured hs.poured
  · intro bytes request hmem
    exact hs.decoded _ _ (hdaemon ▸ hmem)
  · rw [hinstalled.1, hclient, gotten_append, hs.gotten]
  · rw [hdaemon]
    exact hinstalled.2

theorem Honest.daemon {op : Daemon.Op} {r : Daemon.Res op} (h : daemonFault wire s op r s')
    (hs : Honest wire s) : Honest wire s' := by
  obtain ⟨hdaemon, hclient, hpiped, hinstalled, heffect⟩ := h
  constructor
  · intro request bytes hmem
    exact hs.serialized _ _ (hclient ▸ hmem)
  · intro before stream size data after hlog
    rw [hpiped]
    rw [hdaemon] at hlog
    rcases List.eq_nil_or_concat after with rfl | ⟨after, e, rfl⟩
    · obtain ⟨rfl, hlast⟩ := List.append_inj' hlog rfl
      cases hlast
      exact heffect
    · rw [List.concat_eq_append, ← List.cons_append, ← List.append_assoc] at hlog
      exact hs.read _ _ _ _ _ (List.append_inj' hlog rfl).1
  · rw [hclient, hpiped]
    exact hs.poured
  · intro bytes request hmem
    rw [hdaemon, List.mem_append, List.mem_singleton] at hmem
    rcases hmem with hmem | hlast
    · exact hs.decoded _ _ hmem
    · cases hlast
      exact heffect.symm
  · rw [hinstalled, hclient]
    exact hs.gotten
  · rw [hinstalled, hdaemon, sent_append]
    exact hs.sent.trans (List.prefix_append _ _)

end

-- ---------------------------------------------------------------------------
-- The daemon
-- ---------------------------------------------------------------------------

def IsRead : Daemon.Op → Prop
  | .read .. => True
  | _ => False

section
variable {printable : Char → Bool} {policy : Policy} {stream : RawFd}

theorem readRequest_once : (Daemon.readRequest stream).run.AtMostOne IsRead := by
  unfold Daemon.readRequest
  refine atMostOne_run_bind (uses_perform id) fun _ => ?_
  refine atMostOne_run_bind (uses_perform id) fun _ => ?_
  refine Prog.AtMostOne.run_bind atMostOne_perform fun buf => ?_
  split
  · exact uses_pure
  · refine uses_run_bind (uses_perform id) fun request => ?_
    exact uses_run_bind (Daemon.uses_ask id) fun _ => uses_pure

theorem handleClient_once : (handleClient printable policy stream).AtMostOne IsRead := by
  refine Prog.AtMostOne.bind ?_ fun _ => uses_bind (uses_perform id) fun _ => uses_pure
  refine atMostOne_run_bind (uses_mono ?_ Daemon.uses_clientGroups) fun groups => ?_
  · intro op hop
    cases op with
    | read => exact absurd hop id
    | _ => exact id
  refine atMostOne_run_bind (Daemon.uses_ask id) fun _ => ?_
  refine readRequest_once.run_bind fun request => ?_
  cases request with
  | none => exact uses_pure
  | some request =>
    refine uses_run_bind (uses_bind (uses_mono ?_ (Daemon.uses_respond _)) fun _ => uses_pure) fun response =>
      uses_mono ?_ (Daemon.uses_sendResponse response)
    · intro op hop
      cases op with
      | read => exact absurd hop id
      | _ => exact id
    · intro op hop
      cases op with
      | read => exact absurd hop id
      | _ => exact id

/-- Why a descriptor was sent: it is that of the only call, for a request that
was read and that the policy allows a role of the peer. -/
structure Grants (policy : Policy) (stream : RawFd) (log : List (Reply Daemon.Op Daemon.Res))
    (request : Request) (call : BpfCall) : Prop where
  only : bpfCalls log = [call]
  issued : IssuedFor request call
  role : ∃ name role, policy.config.roles.lookup name = some role ∧ policy.isAllowed name request = true ∧
    ∃ group ∈ role.groups, MemberOf stream group log

theorem sent_nil {V : World Daemon.Op Daemon.Res} {tr : List (Event V)} (h : ∀ e ∈ tr, ¬ e.op.Delivers) :
    sent tr = [] := by
  refine List.filterMap_eq_nil_iff.mpr fun e he => ?_
  obtain ⟨s, op, r⟩ := e
  cases op with
  | sendmsg => exact absurd trivial (h _ he)
  | _ => rfl

theorem exists_of_mem_sent {V : World Daemon.Op Daemon.Res} {tr : List (Event V)} {fd : RawFd}
    (h : fd ∈ sent tr) :
    ∃ before m sock data n after, tr = before ++ ⟨m, .sendmsg sock fd data, .ok n⟩ :: after := by
  obtain ⟨⟨m, op, r⟩, he, hfd⟩ := List.mem_filterMap.mp h
  obtain ⟨before, after, rfl⟩ := List.append_of_mem he
  cases op with
  | sendmsg sock fd' data =>
    cases r with
    | error => cases hfd
    | ok n =>
      cases hfd
      exact ⟨before, m, sock, data, n, after, rfl⟩
  | _ => cases hfd

/-- Only one descriptor is sent, with its reason. -/
theorem daemon_sends {log : List (Reply Daemon.Op Daemon.Res)}
    {q : Prog Daemon.Op Daemon.Res (Except String Unit)}
    (h : Path (handleClient printable policy stream) log q) {fd : RawFd} (hfd : fd ∈ sent log) :
    sent log = [fd] ∧ ∃ request call, ReadFrom stream request log ∧ Grants policy stream log request call ∧
      fd = call.result.toInt32 := by
  obtain ⟨rest, r, hrun⟩ := h.completes
  obtain ⟨before, m, sock, data, n, after, rfl⟩ := exists_of_mem_sent hfd
  rw [List.append_assoc, List.cons_append] at hrun
  obtain ⟨hfirst, groups, request, response, data', -, hmembers, -, hread, hresponds, -, hop⟩ :=
    Daemon.handleClient_delivers hrun trivial
  have hlast : ∀ e ∈ after, ¬ e.op.Delivers := by
    intro e he hdelivers
    obtain ⟨between, later, rfl⟩ := List.append_of_mem he
    rw [List.append_assoc, List.cons_append, ← List.cons_append, ← List.append_assoc] at hrun
    have hanswers := Daemon.handleClient_delivers hrun hdelivers
    exact hanswers.first ⟨m, .sendmsg sock fd data, .ok n⟩ (by simp) trivial
  rw [(Daemon.delivery_eq_sendmsg hop).2] at hresponds
  obtain ⟨hauthorized, call, hcalls, hissued, -, hresult⟩ := hresponds.success
  obtain ⟨name, role, hrole, hallowed, group, hgroup, hmem⟩ := Daemon.Policy.Authorizes.role hauthorized
  have hsub : before ⊆ before ++ ⟨m, .sendmsg sock fd data, .ok n⟩ :: after := List.subset_append_left _ _
  refine ⟨?_, request, call, hread.mono hsub,
    ⟨?_, hissued, name, role, hrole, hallowed, group, hgroup, ?_⟩, hresult⟩
  · show sent (before ++ ([⟨m, .sendmsg sock fd data, .ok n⟩] ++ after)) = [fd]
    rw [sent_append, sent_append, sent_nil hfirst, sent_nil hlast]
    rfl
  · have hlength := Daemon.handleClient_length_le hrun
    rw [← List.cons_append, Daemon.bpfCalls_append, Daemon.bpfCalls_append, hcalls] at hlength
    rw [Daemon.bpfCalls_append, hcalls]
    cases hafter : bpfCalls (⟨m, .sendmsg sock fd data, .ok n⟩ :: after) with
    | nil => rfl
    | cons => simp [hafter] at hlength
  · exact (hmembers group hmem).mono hsub

end

-- ---------------------------------------------------------------------------
-- The client
-- ---------------------------------------------------------------------------

section
variable {W : World Client.Op Client.Res} {s s' : W.State} {tr : List (Event W)} {client : BpfRbacClient}

/-- The bytes of the first write are a serialized request. -/
def FirstWritten (request : Request) (tr : List (Event W)) : Prop :=
  ∃ bytes, (written tr).head? = some bytes ∧ ∃ m, (⟨m, .serialize request, .ok bytes⟩ : Event W) ∈ tr

/-- A call that returns a descriptor has written its request, once, and got the descriptor. -/
structure Called (request : Request) (tr : List (Event W)) (r : Except String RawFd) : Prop where
  wrote : written tr ≠ [] → FirstWritten request tr
  ok : ∀ f, r = .ok f → written tr ≠ [] ∧ gotten tr = [f]
  once : ∀ f, r = .ok f → ∃ bytes m, attempted tr = [(bytes, .ok ())] ∧
    (⟨m, .serialize request, .ok bytes⟩ : Event W) ∈ tr

theorem exec_fallible {op : Client.Op} {a : Client.Res op} :
    Exec W (Client.issue op) s tr a s' ↔ W.answer s op a s' ∧ tr = [⟨s, op, a⟩] := exec_perform

theorem mapFd_ok {response : Response} {fd : Option RawFd} {f : RawFd}
    (h : Client.mapFd response fd = .ok f) : fd = some f := by
  unfold Client.mapFd at h
  split at h
  · split at h
    · cases h
      rfl
    · cases h
  · cases h
  · cases h
  · cases h

theorem recv_gotten {q : Except String (Response × Option RawFd)}
    (h : Exec W client.recvResponseWithFd.run s tr q s') :
    attempted tr = [] ∧ ∀ p, q = .ok p → gotten tr = p.2.toList := by
  unfold BpfRbacClient.recvResponseWithFd at h
  rcases exec_run_bind.mp h with ⟨e, hrecv, rfl⟩ | ⟨msg, _, _, _, hrecv, h₁, rfl⟩
  · obtain ⟨-, rfl⟩ := exec_fallible.mp hrecv
    exact ⟨rfl, nofun⟩
  obtain ⟨-, rfl⟩ := exec_fallible.mp hrecv
  rcases exec_run_bind.mp h₁ with ⟨e, hdec, rfl⟩ | ⟨response, _, _, _, hdec, h₂, rfl⟩
  · obtain ⟨-, rfl⟩ := exec_fallible.mp hdec
    exact ⟨rfl, nofun⟩
  obtain ⟨-, rfl⟩ := exec_fallible.mp hdec
  obtain ⟨rfl, rfl, -⟩ := exec_run_pure.mp h₂
  refine ⟨rfl, ?_⟩
  rintro _ ⟨⟩
  cases hfd : receivedFd msg.cmsgs <;> simp [gotten, hfd]

theorem createMap_called {args : MapArgs} {r : Except String RawFd}
    (h : Exec W (client.createMap args.mapType args.name args.keySize args.valueSize args.maxEntries).run
      s tr r s') : Called args.request tr r := by
  unfold BpfRbacClient.createMap at h
  rcases exec_run_bind.mp h with ⟨e, hser, rfl⟩ | ⟨bytes, m₁, _, _, hser, h₁, rfl⟩
  · obtain ⟨-, rfl⟩ := exec_fallible.mp hser
    exact ⟨fun hwrote => absurd rfl hwrote, nofun, nofun⟩
  obtain ⟨-, rfl⟩ := exec_fallible.mp hser
  rcases exec_run_bind.mp h₁ with ⟨e, hwrite, rfl⟩ | ⟨_, m₂, _, t, hwrite, h₂, rfl⟩
  · obtain ⟨-, rfl⟩ := exec_fallible.mp hwrite
    exact ⟨fun hwrote => absurd rfl hwrote, nofun, nofun⟩
  obtain ⟨-, rfl⟩ := exec_fallible.mp hwrite
  rcases exec_run_bind.mp h₂ with ⟨e, hrecv, rfl⟩ | ⟨⟨response, fd⟩, _, t', _, hrecv, h₃, rfl⟩
  · exact ⟨fun _ => ⟨bytes, rfl, s, by simp [MapArgs.request]⟩, nofun, nofun⟩
  obtain ⟨rfl, hfd, -⟩ := exec_pure.mp h₃
  obtain ⟨hnone, hgotten⟩ := recv_gotten hrecv
  rw [List.append_nil]
  refine ⟨fun _ => ⟨bytes, rfl, s, by simp [MapArgs.request]⟩, ?_,
    fun _ _ => ⟨bytes, s, ?_, by simp [MapArgs.request]⟩⟩
  · rintro f rfl
    refine ⟨List.cons_ne_nil _ _, ?_⟩
    show gotten t' = [f]
    rw [hgotten _ rfl, mapFd_ok hfd.symm]
    rfl
  · exact congrArg (List.cons _) hnone

/-- All calls of a client: each descriptor returned was received, and some
request was written by then. -/
structure CalledAll (requests : List MapArgs) (tr : List (Event W)) (results : List (Except String RawFd)) :
    Prop where
  received : (results.filterMap Except.toOption).Sublist (gotten tr)
  first : ∀ (i : Nat) (f : RawFd), results[i]? = some (.ok f) →
    ∃ (j : Nat) (args : MapArgs), j ≤ i ∧ requests[j]? = some args ∧ FirstWritten args.request tr

theorem createMaps_called {requests : List MapArgs} {results : List (Except String RawFd)}
    (h : Exec W (createMaps client requests) s tr results s') : CalledAll requests tr results := by
  induction requests generalizing s tr results with
  | nil =>
    obtain ⟨rfl, rfl, -⟩ := exec_pure.mp h
    exact ⟨List.nil_sublist _, by simp⟩
  | cons args requests ih =>
    obtain ⟨r, m, t₁, _, hcall, hrest, rfl⟩ := exec_bind.mp h
    obtain ⟨later, m', t₂, _, hlater, hret, rfl⟩ := exec_bind.mp hrest
    obtain ⟨rfl, rfl, rfl⟩ := exec_pure.mp hret
    rw [List.append_nil]
    have hcalled := createMap_called hcall
    obtain ⟨hreceived, hfirst⟩ := ih hlater
    constructor
    · rw [gotten_append]
      cases r with
      | error => exact hreceived.trans (List.sublist_append_right _ _)
      | ok f =>
        rw [(hcalled.ok f rfl).2]
        exact hreceived.cons_cons f
    · intro i f hi
      by_cases hwrote : written t₁ = []
      -- the call wrote nothing, so it failed and the first write is a later one
      · cases i with
        | zero =>
          cases hi
          exact absurd hwrote (hcalled.ok f rfl).1
        | succ i =>
          obtain ⟨j, args', hj, hargs, bytes, hhead, n, hser⟩ := hfirst i _ hi
          refine ⟨j + 1, args', Nat.succ_le_succ hj, hargs, bytes, ?_, n, by simp [hser]⟩
          rw [written_append, hwrote]
          exact hhead
      · obtain ⟨bytes, hhead, n, hser⟩ := hcalled.wrote hwrote
        refine ⟨0, args, Nat.zero_le i, rfl, bytes, ?_, n, by simp [hser]⟩
        rw [written_append, List.head?_append_of_ne_nil _ hwrote]
        exact hhead

end

-- ---------------------------------------------------------------------------
-- Both
-- ---------------------------------------------------------------------------

section
variable {wire : Bincode} {printable : Char → Bool} {policy : Policy} {stream : RawFd}

theorem taken_nil {V : World Daemon.Op Daemon.Res} {tr : List (Event V)} (h : ∀ e ∈ tr, ¬ IsRead e.op) :
    taken tr = [] := by
  refine List.flatten_eq_nil_iff.mpr fun data hdata => ?_
  obtain ⟨⟨m, op, r⟩, he, hread⟩ := List.mem_filterMap.mp hdata
  cases op with
  | read => exact absurd trivial (h _ he)
  | _ => cases hread

theorem Honest.first_written {s : Channel} {request : Request} (hs : Honest wire s)
    (h : FirstWritten request s.clientLog) :
    (written s.clientLog).head? = some (wire.request.serialize request) := by
  obtain ⟨bytes, hhead, _, hser⟩ := h
  rw [hhead, hs.serialized _ _ hser]

/-- Writes that all succeeded leave the first of them at the beginning. -/
theorem Honest.first_piped {s : Channel} {data : List UInt8} {ws : List (List UInt8 × Except String Unit)}
    (hs : Honest wire s) (hwrites : attempted s.clientLog = (data, .ok ()) :: ws)
    (hok : ∀ w ∈ ws, w.2 = .ok ()) : data <+: s.piped := by
  have hpoured := hs.poured.ok (hwrites ▸ List.forall_mem_cons.mpr ⟨rfl, hok⟩)
  rw [hpoured, hwrites, List.flatMap_cons, List.nil_append]
  exact List.prefix_append _ _

/-- The daemon reads once, from the beginning. -/
theorem Honest.read_piped {s : Channel} {request : Request}
    {q : Prog Daemon.Op Daemon.Res (Except String Unit)} (hs : Honest wire s)
    (hpath : Path (handleClient printable policy stream) s.daemonLog q)
    (hread : ReadFrom stream request s.daemonLog) :
    ∃ bytes, bytes ≠ [] ∧ bytes <+: s.piped ∧ wire.request.deserialize bytes = .ok request := by
  obtain ⟨bytes, hsome, ⟨m, hmem⟩, m', hdecoded⟩ := hread
  obtain ⟨before, after, hlog⟩ := List.append_of_mem hmem
  obtain ⟨rest, r, hrun⟩ := hpath.completes
  rw [hlog, List.append_assoc, List.cons_append] at hrun
  have hnone := taken_nil (handleClient_once.first hrun trivial)
  have hbytes := hs.read _ _ _ _ _ hlog
  rw [hnone, List.length_nil, List.drop_zero] at hbytes
  exact ⟨bytes, hsome, hbytes, hs.decoded _ _ hdecoded⟩

/-- Only one request can be read from bytes that begin with one. -/
theorem eq_of_deserialize_prefix {bytes piped : List UInt8} {request first : Request}
    (htrailing : ∀ request rest,
      wire.request.deserialize (wire.request.serialize request ++ rest) = .ok request)
    (hbytes : bytes <+: piped) (hdecodes : wire.request.deserialize bytes = .ok request)
    (hfirst : wire.request.serialize first <+: piped) : request = first := by
  obtain ⟨more, rfl⟩ := hfirst
  rcases Coding.append_split hbytes with ⟨hpre, hne⟩ | ⟨tail, rfl, -⟩
  · obtain ⟨e, he⟩ := wire.request.deserialize_short first bytes hpre hne
    rw [hdecodes] at he
    cases he
  · rw [htrailing] at hdecodes
    cases hdecodes
    rfl

theorem eq_of_filterMap_length {α β : Type} {g : α → Option β} {l : List α} (h : (l.filterMap g).length ≤ 1)
    {i k : Nat} {a b : α} (hi : l[i]? = some a) (hk : l[k]? = some b) (ha : (g a).isSome) (hb : (g b).isSome) :
    i = k := by
  induction l generalizing i k with
  | nil => cases hi
  | cons x l ih =>
    have hmore : ∀ {j : Nat} {c : α}, l[j]? = some c → (g c).isSome → 0 < (l.filterMap g).length := by
      intro j c hj hc
      obtain ⟨y, hy⟩ := Option.isSome_iff_exists.mp hc
      exact List.length_pos_of_mem (List.mem_filterMap.mpr ⟨c, List.mem_of_getElem? hj, hy⟩)
    rw [List.filterMap_cons] at h
    cases i with
    | zero =>
      cases k with
      | zero => rfl
      | succ k =>
        cases hi
        obtain ⟨y, hy⟩ := Option.isSome_iff_exists.mp ha
        have hpos := hmore hk hb
        simp only [hy, List.length_cons] at h
        omega
    | succ i =>
      cases k with
      | zero =>
        cases hk
        obtain ⟨y, hy⟩ := Option.isSome_iff_exists.mp hb
        have hpos := hmore hi ha
        simp only [hy, List.length_cons] at h
        omega
      | succ k =>
        refine congrArg Nat.succ (ih ?_ hi hk)
        split at h
        · exact h
        · exact Nat.le_of_succ_le h

theorem eq_singleton_of_mem {α : Type} {a : α} {l : List α} (hlength : l.length ≤ 1) (h : a ∈ l) : l = [a] := by
  rcases l with _ | ⟨x, _ | ⟨y, l⟩⟩
  · cases h
  · rw [List.mem_singleton.mp h]
  · simp at hlength

/-- A descriptor the client got is that of the daemon's one map. -/
theorem Honest.installed_map {s : Channel} {q : Prog Daemon.Op Daemon.Res (Except String Unit)} {f : RawFd}
    (hs : Honest wire s) (hpath : Path (handleClient printable policy stream) s.daemonLog q)
    (hf : f ∈ Session.gotten s.clientLog) :
    ∃ request call, ReadFrom stream request s.daemonLog ∧ Grants policy stream s.daemonLog request call ∧
      s.installed = [(f, call.result.toInt32)] := by
  rw [← hs.gotten] at hf
  obtain ⟨⟨f', fd⟩, hinstalled, hsame⟩ := List.mem_map.mp hf
  obtain rfl : f' = f := hsame
  have hsent : fd ∈ Session.sent s.daemonLog := hs.sent.subset (List.mem_map.mpr ⟨_, hinstalled, rfl⟩)
  obtain ⟨honly, request, call, hread, hgrants, rfl⟩ := daemon_sends hpath hsent
  have hlength : s.installed.length ≤ 1 := by
    simpa [honly] using hs.sent.length_le
  exact ⟨request, call, hread, hgrants, eq_singleton_of_mem hlength hinstalled⟩

/-- Whatever fails, and however the two interleave: at most one call of a
client returns a descriptor. It is that of the daemon's one map, created for
the request that the written bytes begin with, which the policy allows a role
of the peer. That is the first request written without an error, if the bytes
begin with it. -/
theorem descriptor_of_first_written (wire : Bincode)
    (htrailing : ∀ request rest,
      wire.request.deserialize (wire.request.serialize request ++ rest) = .ok request)
    (printable : Char → Bool) (policy : Policy) (stream : RawFd) (client : BpfRbacClient)
    (requests : List MapArgs)
    (c : Config Client.Op Client.Res Daemon.Op Daemon.Res Channel (List (Except String RawFd))
      (Except String Unit))
    (hreach : ReflTransGen (Steps (clientFault wire) (daemonFault wire))
      ⟨createMaps client requests, handleClient printable policy stream, .connected⟩ c)
    (results : List (Except String RawFd)) (hret : c.left = .ret results)
    (i : Nat) (f : RawFd) (hi : results[i]? = some (.ok f)) :
    (∀ k g, results[k]? = some (.ok g) → k = i) ∧
      ∃ (bytes : List UInt8) (request : Request) (call : BpfCall), bytes ≠ [] ∧ bytes <+: c.shared.piped ∧
        wire.request.deserialize bytes = .ok request ∧
        Grants policy stream c.shared.daemonLog request call ∧
        c.shared.installed = [(f, call.result.toInt32)] ∧
        ∃ (j : Nat) (args : MapArgs), j ≤ i ∧ requests[j]? = some args ∧
          (written c.shared.clientLog).head? = some (wire.request.serialize args.request) ∧
          (wire.request.serialize args.request <+: c.shared.piped → request = args.request) := by
  obtain ⟨hclient, hdaemon⟩ := (faults_logged wire).reach rfl rfl hreach
  rw [hret] at hclient
  obtain ⟨hreceived, hfirst⟩ := createMaps_called hclient.returned
  have hhonest : Honest wire c.shared :=
    steps_invariant (fun _ _ _ _ => Honest.client) (fun _ _ _ _ => Honest.daemon) hreach (connected_honest wire)
  have hmem : f ∈ results.filterMap Except.toOption :=
    List.mem_filterMap.mpr ⟨_, List.mem_of_getElem? hi, rfl⟩
  obtain ⟨request, call, hread, hgrants, hinstalled⟩ := hhonest.installed_map hdaemon (hreceived.subset hmem)
  constructor
  · intro k g hk
    refine eq_of_filterMap_length (Nat.le_trans hreceived.length_le ?_) hk hi rfl rfl
    rw [← hhonest.gotten, hinstalled]
    exact Nat.le_refl 1
  · obtain ⟨bytes, hsome, hbytes, hdecodes⟩ := hhonest.read_piped hdaemon hread
    obtain ⟨j, args, hj, hargs, hwritten⟩ := hfirst i _ hi
    exact ⟨bytes, request, call, hsome, hbytes, hdecodes, hgrants, hinstalled, j, args, hj, hargs,
      hhonest.first_written hwritten, eq_of_deserialize_prefix htrailing hbytes hdecodes⟩

end

-- ---------------------------------------------------------------------------
-- A call that fails too early
-- ---------------------------------------------------------------------------

/-- The descriptor that is waiting for the client. -/
def waiting (s : Channel) : Option RawFd := (sent s.daemonLog)[s.installed.length]?

/-- The client does not wait for the daemon. -/
def hastyAnswer (s : Channel) : (op : Client.Op) → Client.Res op
  | .connect _ => .ok 3
  | .serialize request => .ok (bincode.request.serialize request)
  | .writeAll .. => .ok ()
  | .recvmsg .. =>
    match waiting s with
    | some fd => .ok ⟨bincode.response.serialize (.success (some fd)), [.scmRights [9]]⟩
    | none => .error "Interrupted system call"
  | .deserialize bytes => bincode.response.deserialize bytes

def hastyClient (s : Channel) (op : Client.Op) : Client.Res op × Channel :=
  let installed :=
    match op, waiting s with
    | .recvmsg .., some fd => s.installed ++ [(9, fd)]
    | _, _ => s.installed
  let piped :=
    match op with
    | .writeAll _ data => s.piped ++ data
    | _ => s.piped
  (hastyAnswer s op, ⟨s.clientLog ++ [reply op (hastyAnswer s op)], s.daemonLog, piped, installed⟩)

def hastyHost (s : Channel) : (op : Daemon.Op) → Daemon.Res op
  | .read _ size => .ok ((s.piped.drop (taken s.daemonLog).length).take size)
  | .deserialize bytes => bincode.request.deserialize bytes
  | .serialize response => .ok (bincode.response.serialize response)
  | op => Daemon.hashMapClient op

def hastyDaemon (s : Channel) (op : Daemon.Op) : Daemon.Res op × Channel :=
  (hastyHost s op, ⟨s.clientLog, s.daemonLog ++ [reply op (hastyHost s op)], s.piped, s.installed⟩)

theorem hastyClient_fault (s : Channel) (op : Client.Op) :
    clientFault bincode s op (hastyClient s op).1 (hastyClient s op).2 := by
  refine ⟨rfl, rfl, by cases op <;> rfl, ?_⟩
  cases op with
  | recvmsg =>
    cases hwaiting : waiting s with
    | some fd =>
      simp only [hastyClient, hastyAnswer, hwaiting]
      exact ⟨fd, hwaiting, rfl⟩
    | none => simp only [hastyClient, hastyAnswer, hwaiting]
  | serialize => exact ⟨rfl, rfl⟩
  | connect | writeAll | deserialize => rfl

theorem hastyDaemon_fault (s : Channel) (op : Daemon.Op) :
    daemonFault bincode s op (hastyDaemon s op).1 (hastyDaemon s op).2 := by
  refine ⟨rfl, rfl, rfl, rfl, ?_⟩
  cases op with
  | read => exact List.take_prefix _ _
  | deserialize => rfl
  | _ => trivial

/-- The first call is interrupted, the second one waits for the daemon. -/
def hastySession :
    Config Client.Op Client.Res Daemon.Op Daemon.Res Channel (List (Except String RawFd))
      (Except String Unit) :=
  Config.play hastyClient hastyDaemon
    ⟨createMaps ⟨3⟩ hashMapCalls, handleClient (fun _ => true) Policy.default 5, .connected⟩
    (List.replicate 5 true ++ List.replicate 30 false ++ List.replicate 2 true)

theorem hasty_results : hastySession.left = .ret [.error "Interrupted system call", .ok 9] :=
  Prog.result?_eq_some.mp (by decide +kernel)

theorem hasty_written : (written hastySession.shared.clientLog).head? =
      some (bincode.request.serialize (.createMap "hash" "counters" 4 8 1024)) ∧
    bincode.request.serialize (.createMap "hash" "counters" 4 8 1024) <+: hastySession.shared.piped := by
  decide +kernel

/-- The second call returns the descriptor of the first call's map. -/
theorem second_call_gets_first_map :
    hastySession.left = .ret [.error "Interrupted system call", .ok 9] ∧
      ∃ call,
        Grants Policy.default 5 hastySession.shared.daemonLog (.createMap "hash" "counters" 4 8 1024) call ∧
        hastySession.shared.installed = [(9, call.result.toInt32)] := by
  obtain ⟨-, bytes, request, call, -, -, -, hgrants, hinstalled, j, args, -, -, hhead, hfirst⟩ :=
    descriptor_of_first_written bincode requestFormat.deserialize_append (fun _ => true) Policy.default 5 ⟨3⟩
      hashMapCalls hastySession (play_reaches hastyClient_fault hastyDaemon_fault _ _) _ hasty_results 1 9 rfl
  rw [hasty_written.1] at hhead
  have hrequest : Request.createMap "hash" "counters" 4 8 1024 = args.request :=
    bincode.request.serialize_injective (Option.some.inj hhead)
  rw [← hrequest] at hfirst
  rw [← hfirst hasty_written.2]
  exact ⟨hasty_results, call, hgrants, hinstalled⟩

end BpfRbacd.Session
