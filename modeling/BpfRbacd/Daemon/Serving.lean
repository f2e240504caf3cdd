import BpfRbacd.Lib.Service
import BpfRbacd.Daemon.Descriptors
import BpfRbacd.Daemon.Groups

/-!
# Many connections

`main` accepts connections in a loop and spawns a task for each, so the tasks
and the loop interleave in any way. Everything here is about every reachable
state of that service.

A task's history begins a run of its own `handle_client`. From it: whoever is
behind a `bpf(2)` call was put in a group of the role that allows it
(`calls_authorized`), and a connection reads and answers on its own stream only
(`answers_stay_own`).
-/

namespace BpfRbacd.Daemon

open Interaction

instance (op : Op) : Nonempty (Res op) := by
  cases op <;> exact ⟨default⟩

/-- A round of the accept loop: the stream of a new connection, if there is one. -/
def acceptConnection : Prog Op Res (Option RawFd) := do
  match ← issue .accept with
  | .ok stream => return some stream
  | .error e =>
    issue (.log (.acceptError e))
    return none

section
variable (printable : Char → Bool) (policy : Policy)

/-- The spawned task. -/
def serveClient (stream : RawFd) : Prog Op Res Unit := do
  match ← handleClient printable policy stream with
  | .ok () => return ()
  | .error e => issue (.log (.clientError e))

def daemon : Service Op Res RawFd Unit := ⟨acceptConnection, serveClient printable policy⟩

theorem serveConnection_eq :
    serveConnection printable policy = (daemon printable policy).sequential () := by
  show Prog.call Op.accept _ = Prog.call Op.accept _
  congr 1
  funext accepted
  cases accepted <;> rfl

end

-- ---------------------------------------------------------------------------
-- Before a call
-- ---------------------------------------------------------------------------

section
variable {W : World Op Res} {s s' : W.State} {tr before after : List (Event W)} {printable : Char → Bool}
  {policy : Policy}

theorem prefix_of_notMem {α : Type} {x : α} {before after first rest : List α}
    (h : before ++ x :: after = first ++ rest) (hx : x ∉ first) : first <+: before := by
  have hpre : before ++ [x] <+: first ++ rest := ⟨after, by simp [← h]⟩
  rcases List.prefix_or_prefix_of_prefix hpre (List.prefix_append first rest) with hlong | hshort
  · exact absurd (hlong.subset (by simp)) hx
  · rcases List.prefix_concat_iff.mp hshort with rfl | hshort
    · exact absurd (by simp) hx
    · exact hshort

/-- The request was read from the stream. -/
def ReadFrom (stream : RawFd) (request : Request) (tr : List (Event W)) : Prop :=
  ∃ bytes, bytes ≠ [] ∧ (∃ m, (⟨m, .read stream 4096, .ok bytes⟩ : Event W) ∈ tr) ∧
    ∃ m, (⟨m, .deserialize bytes, .ok request⟩ : Event W) ∈ tr

theorem ReadFrom.mono {t t' : List (Event W)} {request : Request} (h : ReadFrom stream request t)
    (hsub : t ⊆ t') : ReadFrom stream request t' := by
  obtain ⟨bytes, hsome, ⟨m, hread⟩, m', hdecoded⟩ := h
  exact ⟨bytes, hsome, ⟨m, hsub hread⟩, m', hsub hdecoded⟩

theorem readRequest_from {request : Request}
    (h : Exec W (readRequest stream).run s tr (.ok (some request)) s') : ReadFrom stream request tr := by
  unfold readRequest at h
  rcases exec_run_bind.mp h with ⟨_, -, he⟩ | ⟨_, _, t₁, _, _, h₁, rfl⟩
  · cases he
  rcases exec_run_bind.mp h₁ with ⟨_, -, he⟩ | ⟨_, s₂, t₂, _, _, h₂, rfl⟩
  · cases he
  rcases exec_run_bind.mp h₂ with ⟨_, -, he⟩ | ⟨bytes, m, _, _, hread, h₃, rfl⟩
  · cases he
  obtain ⟨-, rfl⟩ := exec_issue.mp hread
  split at h₃
  · obtain ⟨-, hnone, -⟩ := exec_run_pure.mp h₃
    cases hnone
  · next hlength =>
    rcases exec_run_bind.mp h₃ with ⟨_, -, he⟩ | ⟨decoded, m', _, _, hdecode, h₄, rfl⟩
    · cases he
    obtain ⟨-, rfl⟩ := exec_issue.mp hdecode
    obtain ⟨_, _, -, h₅, rfl⟩ := exec_log_bind h₄
    obtain ⟨-, hsame, -⟩ := exec_run_pure.mp h₅
    cases hsame
    exact ⟨bytes, mt List.length_eq_zero_iff.mpr hlength, ⟨s₂, by simp⟩, m, by simp⟩

/-- The events that found the peer's groups and read the request. -/
structure Heard (stream : RawFd) (groups : List String) (request : Request) (lead : List (Event W)) : Prop where
  shows : observed lead = [.groups groups, .decoded request]
  members : ∀ name ∈ groups, MemberOf stream name lead
  read : ReadFrom stream request lead
  ops : ∀ e ∈ lead, e.op.Identifying ∨ e.op.Reading

variable (printable policy) in
/-- The run after the request is read: deciding, sending the response and dropping the stream. -/
inductive Settles (stream : RawFd) (groups : List String) (request : Request) : List (Event W) → Prop
  | mk {s₁ s₂ s₃ : W.State} {response : Response} {deciding sending : List (Event W)} {r : Except String Unit} :
      Exec W (respond printable policy (policy.getRoleForGroups groups) request) s₁ deciding response s₂ →
      Exec W (sendResponse stream response).run s₂ sending r s₃ →
      Settles stream groups request (deciding ++ (sending ++ [⟨s₃, .close stream, ()⟩]))

theorem Settles.responds {groups : List String} {request : Request}
    (h : Settles printable policy stream groups request tr) :
    ∃ calls response, Responds printable policy (policy.getRoleForGroups groups) request calls response ∧
      bpfCalls tr = calls := by
  cases h with
  | mk hrespond hsend =>
    obtain ⟨calls, hresponds, hobs⟩ := respond_observed hrespond
    refine ⟨calls, _, hresponds, ?_⟩
    unfold bpfCalls
    rw [observed_append, hobs, observed_close, sendResponse_observed hsend]
    simp [List.filterMap_map]

/-- An event that identifies nobody, reads nothing and does not close comes
after the request was read. -/
theorem handleClient_late {x : Event W} {r : Except String Unit}
    (h : Exec W (handleClient printable policy stream) s (before ++ x :: after) r s')
    (hidentifying : ¬ x.op.Identifying) (hreading : ¬ x.op.Reading) (hclose : x.op ≠ .close stream) :
    ∃ lead rest groups request, before = lead ++ rest ∧ Heard stream groups request lead ∧
      Settles printable policy stream groups request (rest ++ x :: after) := by
  obtain ⟨m, t, hconverses, -, htr⟩ := handleClient_parts h
  have hx : x ∈ t := by
    have hmem : x ∈ t ++ [⟨m, .close stream, ()⟩] := htr ▸ by simp
    rcases List.mem_append.mp hmem with hx | hx
    · exact hx
    · cases List.mem_singleton.mp hx
      exact absurd rfl hclose
  cases hconverses with
  | unidentified hgroups => exact absurd (exec_uses uses_clientGroups hgroups x hx) hidentifying
  | unread hgroups _ hread _ =>
    simp only [List.mem_append, List.mem_cons] at hx
    rcases hx with hx | rfl | hx
    · exact absurd (exec_uses uses_clientGroups hgroups x hx) hidentifying
    · exact absurd trivial hidentifying
    · exact absurd (exec_uses uses_readRequest hread x hx) hreading
  | @answered s₁ _ _ _ _ first second deciding sending groups request _ _ hgroups _ hread hrespond hsend =>
    have hsplit : before ++ x :: after =
        (first ++ ⟨s₁, .log (.clientRole (policy.getRoleForGroups groups)), ()⟩ :: second) ++
          (deciding ++ (sending ++ [⟨m, .close stream, ()⟩])) := htr.trans (by simp)
    have hops : ∀ e ∈ first ++ ⟨s₁, .log (.clientRole (policy.getRoleForGroups groups)), ()⟩ :: second,
        e.op.Identifying ∨ e.op.Reading := by
      simp only [List.forall_mem_append, List.forall_mem_cons]
      exact ⟨fun e he => .inl (exec_uses uses_clientGroups hgroups e he), .inl trivial,
        fun e he => .inr (exec_uses uses_readRequest hread e he)⟩
    have hout : x ∉ first ++ ⟨s₁, .log (.clientRole (policy.getRoleForGroups groups)), ()⟩ :: second :=
      fun hmem => (hops x hmem).elim hidentifying hreading
    obtain ⟨rest, rfl⟩ := prefix_of_notMem hsplit hout
    refine ⟨_, rest, groups, request, rfl, ⟨?_, ?_, ?_, hops⟩, ?_⟩
    · rw [observed_append, observed_cons_silent (by trivial), clientGroups_shows hgroups,
        readRequest_shows hread]
      rfl
    · intro name hname
      exact (clientGroups_member hgroups hname).mono (List.subset_append_left _ _)
    · exact (readRequest_from hread).mono fun e he => by simp [he]
    · rw [List.append_assoc] at hsplit
      rw [List.append_cancel_left hsplit]
      exact .mk hrespond hsend

/-- Before its only call a connection read a request, and its peer is in a
group of a role that allows it. -/
structure Backed (policy : Policy) (stream : RawFd) (before : List (Event W)) (call : BpfCall) : Prop where
  first : bpfCalls before = []
  request : ∃ request, ReadFrom stream request before ∧ Supported request ∧ IssuedFor request call ∧
    ∃ name role, policy.config.roles.lookup name = some role ∧ policy.isAllowed name request = true ∧
      ∃ group ∈ role.groups, MemberOf stream group before

theorem Policy.Authorizes.role {policy : Policy} {groups : List String} {request : Request}
    (h : policy.Authorizes groups request) :
    ∃ name role, policy.config.roles.lookup name = some role ∧ policy.isAllowed name request = true ∧
      ∃ group ∈ role.groups, group ∈ groups := by
  obtain ⟨name, hname, hallowed⟩ := h
  obtain ⟨role, hrole, hmember⟩ := Policy.getRoleForGroups_matches hname
  exact ⟨name, role, hrole, hallowed, Role.hasMember_iff.mp hmember⟩

theorem handleClient_backed {m : W.State} {cmd : Int32} {attr : BpfAttr} {size : UInt64} {result : Int64}
    {r : Except String Unit}
    (h : Exec W (handleClient printable policy stream) s
      (before ++ ⟨m, .bpf cmd attr size, result⟩ :: after) r s') :
    Backed policy stream before ⟨cmd, attr, size, result⟩ := by
  obtain ⟨lead, rest, groups, request, hbefore, hheard, hsettles⟩ := handleClient_late h id id nofun
  have hlead : bpfCalls lead = [] := by simp [bpfCalls, hheard.shows]
  have hfirst : bpfCalls before = bpfCalls rest := by simp [hbefore, bpfCalls_append, hlead]
  have hsub : lead ⊆ before := hbefore ▸ List.subset_append_left lead rest
  obtain ⟨calls, _, hresponds, hcalls⟩ := hsettles.responds
  have hsplit : calls = bpfCalls rest ++ ⟨cmd, attr, size, result⟩ :: bpfCalls after := by
    rw [← hcalls]
    exact bpfCalls_append ..
  rcases hresponds.outcome with ⟨-, hnil, -⟩ | ⟨hauthorized, _, hexecutes, -⟩
  · simp [hsplit] at hnil
  · have hlength := hexecutes.length_le
    rw [hsplit] at hlength hexecutes
    obtain ⟨name, role, hrole, hallowed, group, hgroup, hmem⟩ := Policy.Authorizes.role hauthorized
    refine ⟨?_, request, hheard.read.mono hsub, hexecutes.calls_iff.mp (by simp),
      hexecutes.issuedFor _ (by simp),
      name, role, hrole, hallowed, group, hgroup, (hheard.members group hmem).mono hsub⟩
    · rw [hfirst]
      cases hrest : bpfCalls rest with
      | nil => rfl
      | cons => simp [hrest] at hlength

/-- Sending the response, not preparing it. -/
def Op.Delivers : Op → Prop
  | .sendmsg .. | .writeAll .. => True
  | _ => False

/-- How a response goes out: the descriptor of a new map goes with it. -/
def delivery (stream : RawFd) (data : List UInt8) : Response → Op
  | .success (some fd) => .sendmsg stream fd data
  | _ => .writeAll stream data

theorem delivery_eq_sendmsg {sock fd : RawFd} {data data' : List UInt8} {response : Response}
    (h : Op.sendmsg sock fd data = delivery stream data' response) :
    sock = stream ∧ response = .success (some fd) := by
  unfold delivery at h
  split at h
  · cases h
    exact ⟨rfl, rfl⟩
  · cases h

/-- Behind a success stand the authorization and the one call. -/
theorem Responds.success {groups : List String} {request : Request} {calls : List BpfCall} {fd : RawFd}
    (h : Responds printable policy (policy.getRoleForGroups groups) request calls (.success (some fd))) :
    policy.Authorizes groups request ∧ ∃ call, calls = [call] ∧ IssuedFor request call ∧ 0 ≤ call.result ∧
      fd = call.result.toInt32 := by
  rcases h.outcome with ⟨-, -, _, hdenied⟩ | ⟨hauthorized, r, hexec, hr⟩
  · cases hdenied
  · refine ⟨hauthorized, ?_⟩
    rcases hr with ⟨_, rfl, hsame⟩ | ⟨_, -, herror⟩
    · cases hsame
      cases hexec with
      | created _ hissued hresult => exact ⟨_, rfl, hissued, hresult, rfl⟩
    · cases herror

theorem sendResponse_ok {response : Response} {r : Except String Unit}
    (h : Exec W (sendResponse stream response).run s tr r s') :
    (∃ e, tr = [⟨s, .serialize response, .error e⟩]) ∨
      ∃ data x, tr = [⟨s, .serialize response, .ok data⟩, x] ∧ x.op = delivery stream data response := by
  unfold sendResponse at h
  split at h
  · rcases exec_run_bind.mp h with ⟨e, hfail, rfl⟩ | ⟨data, m, _, t, hserialize, h₁, rfl⟩
    · obtain ⟨-, rfl⟩ := exec_issue.mp hfail
      exact .inl ⟨e, rfl⟩
    obtain ⟨-, rfl⟩ := exec_issue.mp hserialize
    rcases exec_run_bind.mp h₁ with ⟨e, hfail, rfl⟩ | ⟨_, _, _, _, hsend, h₂, rfl⟩
    · obtain ⟨-, rfl⟩ := exec_issue.mp hfail
      exact .inr ⟨data, _, rfl, rfl⟩
    · obtain ⟨-, rfl⟩ := exec_issue.mp hsend
      obtain ⟨rfl, -, -⟩ := exec_run_pure.mp h₂
      exact .inr ⟨data, _, rfl, rfl⟩
  · next hother =>
    rcases exec_run_bind.mp h with ⟨e, hfail, rfl⟩ | ⟨data, m, _, t, hserialize, h₁, rfl⟩
    · obtain ⟨-, rfl⟩ := exec_issue.mp hfail
      exact .inl ⟨e, rfl⟩
    obtain ⟨-, rfl⟩ := exec_issue.mp hserialize
    obtain ⟨-, rfl⟩ := exec_issue.mp h₁
    refine .inr ⟨data, _, rfl, ?_⟩
    unfold delivery
    split
    · exact absurd rfl (hother _)
    · rfl

/-- What goes out is the answer to the connection's request, and the first of it. -/
structure Answers (printable : Char → Bool) (policy : Policy) (stream : RawFd) (before : List (Event W))
    (op : Op) : Prop where
  first : ∀ e ∈ before, ¬ e.op.Delivers
  response : ∃ groups request response data,
    .groups groups ∈ observed before ∧ (∀ name ∈ groups, MemberOf stream name before) ∧
    .decoded request ∈ observed before ∧ ReadFrom stream request before ∧
    Responds printable policy (policy.getRoleForGroups groups) request (bpfCalls before) response ∧
    (∃ m, (⟨m, .serialize response, .ok data⟩ : Event W) ∈ before) ∧ op = delivery stream data response

theorem Op.Delivers.outside {P : Op → Prop} (hsendmsg : ∀ stream fd data, ¬ P (.sendmsg stream fd data))
    (hwriteAll : ∀ stream data, ¬ P (.writeAll stream data)) {op : Op} (h : op.Delivers) : ¬ P op := by
  cases op with
  | sendmsg => exact hsendmsg _ _ _
  | writeAll => exact hwriteAll _ _
  | _ => exact absurd h id

theorem handleClient_delivers {x : Event W} {r : Except String Unit}
    (h : Exec W (handleClient printable policy stream) s (before ++ x :: after) r s')
    (hx : x.op.Delivers) : Answers printable policy stream before x.op := by
  have hidentifying : ¬ x.op.Identifying := hx.outside (fun _ _ _ => id) (fun _ _ => id)
  have hreading : ¬ x.op.Reading := hx.outside (fun _ _ _ => id) (fun _ _ => id)
  have hexecuting : ¬ x.op.Executing := hx.outside (fun _ _ _ => id) (fun _ _ => id)
  have hclose : ¬ ∃ stream, x.op = .close stream := by
    rintro ⟨_, heq⟩
    rw [heq] at hx
    exact hx
  have hserialize : ¬ ∃ response, x.op = .serialize response := by
    rintro ⟨_, heq⟩
    rw [heq] at hx
    exact hx
  obtain ⟨lead, rest, groups, request, rfl, hheard, hsettles⟩ :=
    handleClient_late h hidentifying hreading fun heq => hclose ⟨_, heq⟩
  generalize htr : rest ++ x :: after = tr at hsettles
  cases hsettles with
  | @mk s₁ s₂ s₃ response deciding sending _ hrespond hsend =>
    have hout : x ∉ deciding := fun hmem => hexecuting (exec_uses (uses_respond _) hrespond x hmem)
    obtain ⟨preparing, rfl⟩ := prefix_of_notMem htr hout
    have hsending : preparing ++ x :: after = sending ++ [⟨s₃, .close stream, ()⟩] := by simpa using htr
    have hmem : x ∈ sending := by
      have hx : x ∈ sending ++ [⟨s₃, .close stream, ()⟩] := hsending ▸ by simp
      rcases List.mem_append.mp hx with hx | hx
      · exact hx
      · cases List.mem_singleton.mp hx
        exact absurd ⟨_, rfl⟩ hclose
    rcases sendResponse_ok hsend with ⟨e, rfl⟩ | ⟨data, y, rfl, hy⟩
    · cases List.mem_singleton.mp hmem
      exact absurd ⟨_, rfl⟩ hserialize
    · have hprepared : preparing = [⟨s₂, .serialize response, .ok data⟩] ∧ x = y := by
        rcases preparing with _ | ⟨a, _ | ⟨b, rest⟩⟩ <;> simp at hsending
        · exact absurd ⟨response, by rw [hsending.1]⟩ hserialize
        · exact ⟨by rw [hsending.1], hsending.2.1⟩
        · have hlast : x ∈ [(⟨s₃, .close stream, ()⟩ : Event W)] := hsending.2.2 ▸ by simp
          cases List.mem_singleton.mp hlast
          exact absurd ⟨_, rfl⟩ hclose
      obtain ⟨rfl, rfl⟩ := hprepared
      obtain ⟨calls, hresponds, hobs⟩ := respond_observed hrespond
      have hcalls : bpfCalls (lead ++ (deciding ++ [⟨s₂, .serialize response, .ok data⟩])) = calls := by
        have hbuilt : observed [(⟨s₂, .serialize response, .ok data⟩ : Event W)] = [.built response] := rfl
        simp [bpfCalls, hheard.shows, hobs, hbuilt, List.filterMap_map]
      have hsub : lead ⊆ lead ++ (deciding ++ [⟨s₂, .serialize response, .ok data⟩]) :=
        List.subset_append_left _ _
      refine ⟨?_, groups, request, response, data, ?_, ?_, ?_, ?_, hcalls ▸ hresponds, ⟨s₂, by simp⟩, hy⟩
      · simp only [List.forall_mem_append, List.forall_mem_singleton]
        refine ⟨fun e he hsent => ?_, fun e he hsent => ?_, id⟩
        · apply (hheard.ops e he).elim
          · exact hsent.outside (fun _ _ _ => id) (fun _ _ => id)
          · exact hsent.outside (fun _ _ _ => id) (fun _ _ => id)
        · apply hsent.outside (P := Op.Executing) (fun _ _ _ => id) (fun _ _ => id)
          exact exec_uses (uses_respond _) hrespond e he
      · simp [hheard.shows]
      · exact fun name hname => (hheard.members name hname).mono hsub
      · simp [hheard.shows]
      · exact hheard.read.mono hsub

end

-- ---------------------------------------------------------------------------
-- The tasks of the service
-- ---------------------------------------------------------------------------

section
variable {W : World Op Res} {s s' : W.State} {tr before after : List (Event W)} {printable : Char → Bool}
  {policy : Policy}

/-- A task is the run of its `handle_client`, and a line in the log if that failed. -/
theorem serveClient_ok {a : Unit} (h : Exec W (serveClient printable policy stream) s tr a s') :
    ∃ m t logs r, Exec W (handleClient printable policy stream) s t r m ∧ tr = t ++ logs ∧
      ∀ e ∈ logs, ∃ message, e.op = .log (.clientError message) := by
  obtain ⟨r, m, t, logs, hclient, hrest, rfl⟩ := exec_bind.mp h
  refine ⟨m, t, logs, r, hclient, rfl, ?_⟩
  cases r with
  | ok =>
    obtain ⟨rfl, -⟩ := exec_pure.mp hrest
    simp
  | error message =>
    obtain ⟨-, rfl⟩ := exec_issue.mp hrest
    simp

theorem serveClient_length_le {a : Unit} (h : Exec W (serveClient printable policy stream) s tr a s') :
    (bpfCalls tr).length ≤ 1 := by
  obtain ⟨m, t, logs, r, hclient, rfl, hlogs⟩ := serveClient_ok h
  have hnone : observed logs = [] := by
    refine List.filterMap_eq_nil_iff.mpr fun e he => observe_silent ?_
    obtain ⟨message, hlog⟩ := hlogs e he
    rw [hlog]
    trivial
  rw [bpfCalls_append, bpfCalls, bpfCalls, hnone, List.filterMap_nil, List.append_nil]
  exact handleClient_length_le hclient

/-- The part up to a given event that is not logged at the end. -/
theorem serveClient_before {x : Event W} {a : Unit} (hx : ∀ line, x.op ≠ .log line)
    (h : Exec W (serveClient printable policy stream) s (before ++ x :: after) a s') :
    ∃ m r after', Exec W (handleClient printable policy stream) s (before ++ x :: after') r m := by
  obtain ⟨m, t, logs, r, hclient, htr, hlogs⟩ := serveClient_ok h
  have hout : x ∉ logs := by
    intro hmem
    obtain ⟨message, hlog⟩ := hlogs x hmem
    exact hx _ hlog
  rcases List.append_eq_append_iff.mp htr with ⟨rest, rfl, hrest⟩ | ⟨rest, rfl, rfl⟩
  · cases rest with
    | nil =>
      rw [List.nil_append] at hrest
      exact absurd (by simp [← hrest]) hout
    | cons y rest =>
      obtain ⟨rfl, -⟩ := List.cons.inj hrest
      exact ⟨m, r, rest, hclient⟩
  · exact absurd (by simp) hout

-- ---------------------------------------------------------------------------
-- A task and its own stream
-- ---------------------------------------------------------------------------

/-- Where the operation is on a stream, it is on this one. -/
def Op.On (stream : RawFd) : Op → Prop
  | .accept => False
  | .intoStd fd | .peerCredentials fd | .setNonblocking fd | .fromStd fd | .read fd _ | .sendmsg fd _ _
  | .writeAll fd _ | .close fd => fd = stream
  | _ => True

theorem Op.Lookup.on {op : Op} (h : op.Lookup) : op.On stream := by
  cases op <;> trivial

theorem Op.Executing.on {op : Op} (h : op.Executing) : op.On stream := by
  cases op <;> trivial

theorem clientGroups_on : (clientGroups stream).run.Uses (Op.On stream) := by
  unfold clientGroups
  refine uses_run_bind (uses_perform rfl) fun _ => ?_
  refine uses_run_bind (uses_perform rfl) fun cred => ?_
  refine uses_run_bind (uses_ask trivial) fun _ => ?_
  refine uses_run_bind (uses_mono (fun _ => Op.Lookup.on) uses_getUserGroups) fun groups => ?_
  exact uses_run_bind (uses_ask trivial) fun _ => uses_pure

theorem readRequest_on : (readRequest stream).run.Uses (Op.On stream) := by
  unfold readRequest
  refine uses_run_bind (uses_perform rfl) fun _ => ?_
  refine uses_run_bind (uses_perform rfl) fun _ => ?_
  refine uses_run_bind (uses_perform rfl) fun buf => ?_
  split
  · exact uses_pure
  · refine uses_run_bind (uses_perform trivial) fun request => ?_
    exact uses_run_bind (uses_ask trivial) fun _ => uses_pure

theorem sendResponse_on (response : Response) : (sendResponse stream response).run.Uses (Op.On stream) := by
  unfold sendResponse
  split
  · refine uses_run_bind (uses_perform trivial) fun bytes => ?_
    exact uses_run_bind (uses_perform rfl) fun _ => uses_pure
  · exact uses_run_bind (uses_perform trivial) fun bytes => uses_perform rfl

theorem serveClient_on : (serveClient printable policy stream).Uses (Op.On stream) := by
  refine uses_bind ?_ fun r => ?_
  · refine uses_bind ?_ fun result => uses_bind (uses_perform rfl) fun _ => uses_pure
    refine uses_run_bind clientGroups_on fun groups => ?_
    refine uses_run_bind (uses_ask trivial) fun _ => ?_
    refine uses_run_bind readRequest_on fun request => ?_
    cases request with
    | none => exact uses_pure
    | some request =>
      refine uses_run_bind ?_ fun response => sendResponse_on response
      exact uses_bind (uses_mono (fun _ => Op.Executing.on) (uses_respond _)) fun _ => uses_pure
  · cases r with
    | ok => exact uses_pure
    | error => exact uses_perform trivial

-- ---------------------------------------------------------------------------
-- Every reachable state
-- ---------------------------------------------------------------------------

variable {fds : W.State} {c : Threads W RawFd Unit} {t : Task Op Res RawFd Unit}

theorem task_backed (hreach : (daemon printable policy).Reaches W fds c) (ht : t ∈ c.tasks)
    {history later : List (Reply Op Res)} {cmd : Int32} {attr : BpfAttr} {size : UInt64} {result : Int64}
    (hcall : t.history = history ++ reply (.bpf cmd attr size) result :: later) :
    Backed policy t.item history ⟨cmd, attr, size, result⟩ := by
  obtain ⟨rest, a, hrun⟩ := hreach.task ht
  rw [hcall, List.append_assoc, List.cons_append] at hrun
  obtain ⟨_, _, _, hclient⟩ := serveClient_before (fun line => Op.noConfusion) hrun
  exact handleClient_backed hclient

/-- In every reachable state: each call of a task was its only one, and it was
issued for a request read from its own stream that the policy allows a role of
its own peer. -/
theorem calls_authorized (hreach : (daemon printable policy).Reaches W fds c) :
    ∀ t ∈ c.tasks, ∀ history later cmd attr size result,
      t.history = history ++ reply (.bpf cmd attr size) result :: later →
      bpfCalls t.history = [⟨cmd, attr, size, result⟩] ∧
        Backed policy t.item history ⟨cmd, attr, size, result⟩ := by
  intro t ht history later cmd attr size result hcall
  have hbacked := task_backed hreach ht hcall
  refine ⟨?_, hbacked⟩
  obtain ⟨rest, a, hrun⟩ := hreach.task ht
  have hlength := serveClient_length_le hrun
  have hcalls : bpfCalls t.history = ⟨cmd, attr, size, result⟩ :: bpfCalls later := by
    rw [hcall, bpfCalls_append, hbacked.first]
    rfl
  rw [bpfCalls_append, hcalls] at hlength
  cases hlater : bpfCalls later with
  | nil => rw [hcalls, hlater]
  | cons => simp [hlater] at hlength

/-- In every reachable state a connection has used no other stream, and has
sent nothing or the one answer to its own request. -/
theorem answers_stay_own (hreach : (daemon printable policy).Reaches W fds c) (ht : t ∈ c.tasks) :
    (∀ e ∈ t.history, e.op.On t.item) ∧
      ∀ history x later, t.history = history ++ x :: later → x.op.Delivers →
        Answers printable policy t.item history x.op := by
  constructor
  · exact (((Service.reach_traced hreach).history t ht).uses serveClient_on).2
  · intro history x later hsent hx
    obtain ⟨rest, a, hrun⟩ := hreach.task ht
    rw [hsent, List.append_assoc, List.cons_append] at hrun
    have hlog : ∀ line, x.op ≠ .log line := by
      intro line heq
      rw [heq] at hx
      exact hx
    obtain ⟨_, _, _, hclient⟩ := serveClient_before hlog hrun
    exact handleClient_delivers hclient hx

end

-- ---------------------------------------------------------------------------
-- One client served
-- ---------------------------------------------------------------------------

/-- The client of `hashMapClient` has been served. -/
def tracerServed : Threads (answering hashMapClient) RawFd Unit :=
  let round := acceptConnection.play (W := answering hashMapClient) (fun _ op => (hashMapClient op, ())) ()
  let task := (serveClient (fun _ => true) Policy.default 5).play (W := answering hashMapClient)
    (fun _ op => (hashMapClient op, ())) ()
  ⟨(), [], acceptConnection, [⟨5, round.1.map Event.reply, task.1.map Event.reply, .ret ()⟩]⟩

theorem tracerServed_reached :
    (daemon (fun _ => true) Policy.default).Reaches (answering hashMapClient) () tracerServed := by
  have hround := exec_play (W := answering hashMapClient) (fun _ op => (hashMapClient op, ()))
    (fun _ _ => rfl) acceptConnection ()
  have htask := exec_play (W := answering hashMapClient) (fun _ op => (hashMapClient op, ()))
    (fun _ _ => rfl) (serveClient (fun _ => true) Policy.default 5) ()
  exact Service.serve (S := daemon (fun _ => true) Policy.default) [] hround htask

def tracerTask : Task Op Res RawFd Unit := tracerServed.tasks.headD ⟨0, [], [], .ret ()⟩

def countersAttr : BpfAttr := ⟨1, 4, 8, 1024, 0, 0, 0, mapNameBytes "counters", 0, 0, 0, 0, 0, 0⟩

theorem tracer_call_backed :
    bpfCalls tracerTask.history = [⟨0, countersAttr, bpfAttrSize, 7⟩] ∧
      Backed Policy.default 5 (tracerTask.history.take 14) ⟨0, countersAttr, bpfAttrSize, 7⟩ := by
  have hcall : tracerTask.history = tracerTask.history.take 14 ++
      reply (.bpf 0 countersAttr bpfAttrSize) 7 :: tracerTask.history.drop 15 := rfl
  exact calls_authorized tracerServed_reached tracerTask List.mem_cons_self _ _ _ _ _ _ hcall

theorem tracer_answered :
    ∃ data, Answers (fun _ => true) Policy.default 5 (tracerTask.history.take 17) (.sendmsg 5 7 data) := by
  have hsent : tracerTask.history = tracerTask.history.take 17 ++
      reply (.sendmsg 5 7 [0]) (.ok 1) :: tracerTask.history.drop 18 := rfl
  have hown := answers_stay_own tracerServed_reached (t := tracerTask) List.mem_cons_self
  exact ⟨[0], hown.2 _ _ _ hsent trivial⟩

end BpfRbacd.Daemon
