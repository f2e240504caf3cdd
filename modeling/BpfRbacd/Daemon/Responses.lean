import BpfRbacd.Bincode
import BpfRbacd.Client
import BpfRbacd.Daemon.Mediation

/-!
# How a response arrives

The daemon writes a response of any size; the client makes one `recvmsg` into
4096 bytes. `ReplyFits` says of the policy, the request and the error of a
failed `bpf(2)` when that is enough.
-/

namespace BpfRbacd.Daemon

open Interaction

-- ---------------------------------------------------------------------------
-- The two ends of the socket
-- ---------------------------------------------------------------------------

/-- The daemon's end; the state is what it has written. A failed `write_all`
may have written a part. -/
def wireEffect (wire : Bincode) (sent : List UInt8) : (op : Op) → Res op → List UInt8 → Prop
  | .read _ size, .ok bytes, sent' => bytes.length ≤ size ∧ sent' = sent
  | .deserialize bytes, r, sent' => r = wire.request.deserialize bytes ∧ sent' = sent
  | .serialize response, r, sent' => r = .ok (wire.response.serialize response) ∧ sent' = sent
  | .sendmsg _ _ data, .ok n, sent' => n.toNat = data.length ∧ sent' = sent ++ data
  | .writeAll _ data, .ok (), sent' => sent' = sent ++ data
  | .writeAll _ data, .error _, sent' => ∃ part, part <+: data ∧ sent' = sent ++ part
  | _, _, sent' => sent' = sent

def wireWorld (wire : Bincode) : World Op Res where
  State := List UInt8
  answer := wireEffect wire

/-- The client's end; the state is what it has not received yet. -/
def receiveEffect (wire : Bincode) (unread : List UInt8) :
    (op : Client.Op) → Client.Res op → List UInt8 → Prop
  | .recvmsg _ size _, r, unread' =>
    ∃ cmsgs, r = .ok ⟨unread.take size, cmsgs⟩ ∧ unread' = unread.drop size
  | .deserialize bytes, r, unread' => r = wire.response.deserialize bytes ∧ unread' = unread
  | _, _, unread' => unread' = unread

def receiveWorld (wire : Bincode) : World Client.Op Client.Res where
  State := List UInt8
  answer := receiveEffect wire

/-- What the kernel said of the failed calls of a run. -/
def osErrors {W : World Op Res} (tr : List (Event W)) : List String :=
  tr.filterMap fun
    | ⟨_, .lastOsError, reason⟩ => some reason
    | _ => none

def ExecutionFits (request : Request) (osErrors : List String) : Prop :=
  match request with
  | .createMap mapType .. =>
    match createMapTypes.lookup mapType with
    | some _ => ∀ reason ∈ osErrors, 35 + reason.utf8ByteSize ≤ 4096
    | none => 34 + mapType.utf8ByteSize ≤ 4096
  | _ => True

/-- The response fits into one receive of the client. -/
def ReplyFits (printable : Char → Bool) (policy : Policy) (groups : List String) (request : Request)
    (osErrors : List String) : Prop :=
  match policy.getRoleForGroups groups with
  | none => True
  | some roleName =>
    if policy.isAllowed roleName request then ExecutionFits request osErrors
    else 36 + roleName.utf8ByteSize + (request.debug printable).utf8ByteSize ≤ 4096

variable {W : World Op Res} {s s' : W.State} {tr : List (Event W)} {wire : Bincode}

@[simp] theorem osErrors_log (t : List (Event W)) :
    osErrors (⟨s, .log line, ()⟩ :: t) = osErrors t := rfl

@[simp] theorem osErrors_close : osErrors [(⟨s, .close stream, ()⟩ : Event W)] = [] := rfl

@[simp] theorem osErrors_append (t₁ t₂ : List (Event W)) :
    osErrors (t₁ ++ t₂) = osErrors t₁ ++ osErrors t₂ := List.filterMap_append

-- ---------------------------------------------------------------------------
-- How long a response is
-- ---------------------------------------------------------------------------

theorem success_fits (fd : RawFd) : (wire.response.serialize (.success (some fd))).length ≤ 4096 := by
  rw [wire.length_success]
  decide

theorem denied_fits {reason : String} :
    (wire.response.serialize (.denied reason)).length ≤ 4096 ↔ 12 + reason.utf8ByteSize ≤ 4096 :=
  wire.denied_fits reason 4096 (by decide)

theorem error_fits {message : String} :
    (wire.response.serialize (.error message)).length ≤ 4096 ↔ 12 + message.utf8ByteSize ≤ 4096 :=
  wire.error_fits message 4096 (by decide)

theorem createBpfMap_fits {r : Except String RawFd}
    (h : Exec W (createBpfMap mapType name keySize valueSize maxEntries).run s tr r s') :
    (wire.response.serialize (executed r)).length ≤ 4096 ↔
      ExecutionFits (.createMap mapType name keySize valueSize maxEntries) (osErrors tr) := by
  unfold createBpfMap at h
  unfold ExecutionFits
  cases hnum : createMapTypes.lookup mapType with
  | none =>
    simp only [hnum] at h ⊢
    obtain ⟨-, rfl, -⟩ := exec_run_throw.mp h
    have htext : "Unsupported map type: ".utf8ByteSize = 22 := rfl
    simp only [executed, error_fits, String.utf8ByteSize_append]
    omega
  | some n =>
    simp only [hnum] at h ⊢
    obtain ⟨fd, _, t, -, h₁, rfl⟩ := exec_ask_bind h
    split at h₁
    · obtain ⟨reason, _, _, -, h₂, rfl⟩ := exec_ask_bind h₁
      obtain ⟨rfl, rfl, -⟩ := exec_run_throw.mp h₂
      show _ ↔ ∀ text ∈ [reason], 35 + text.utf8ByteSize ≤ 4096
      have htext : "BPF_MAP_CREATE failed: ".utf8ByteSize = 23 := rfl
      simp only [executed, error_fits, String.utf8ByteSize_append, List.forall_mem_singleton]
      omega
    · obtain ⟨rfl, rfl, -⟩ := exec_run_pure.mp h₁
      show _ ↔ ∀ text ∈ ([] : List String), 35 + text.utf8ByteSize ≤ 4096
      simp [executed, success_fits]

theorem executeBpf_fits {r : Except String RawFd} (h : Exec W (executeBpf request).run s tr r s') :
    (wire.response.serialize (executed r)).length ≤ 4096 ↔ ExecutionFits request (osErrors tr) := by
  cases request with
  | createMap => exact createBpfMap_fits h
  | loadProgram =>
    obtain ⟨-, rfl, -⟩ := exec_run_throw.mp h
    exact iff_of_true (error_fits.mpr (by decide)) trivial
  | attach =>
    obtain ⟨-, rfl, -⟩ := exec_run_throw.mp h
    exact iff_of_true (error_fits.mpr (by decide)) trivial

section
variable {printable : Char → Bool} {policy : Policy} {groups : List String}

theorem respond_fits {response : Response}
    (h : Exec W (respond printable policy (policy.getRoleForGroups groups) request) s tr response s') :
    (wire.response.serialize response).length ≤ 4096 ↔
      ReplyFits printable policy groups request (osErrors tr) := by
  unfold ReplyFits
  cases hrole : policy.getRoleForGroups groups with
  | none =>
    rw [hrole] at h
    obtain ⟨-, rfl, -⟩ := exec_pure.mp h
    exact iff_of_true (denied_fits.mpr (by decide)) trivial
  | some roleName =>
    rw [hrole] at h
    unfold respond at h
    cases hallowed : policy.isAllowed roleName request with
    | false =>
      simp only [hallowed, Bool.false_eq_true, if_false] at h ⊢
      obtain ⟨rfl, -⟩ := exec_log_pure h
      have htext : "Role '".utf8ByteSize + "' not allowed for ".utf8ByteSize = 24 := rfl
      simp only [denied_fits, String.utf8ByteSize_append]
      omega
    | true =>
      simp only [hallowed, if_true] at h ⊢
      obtain ⟨r, _, t₁, t₂, hexec, h₁, rfl⟩ := exec_bind.mp h
      have hlog : osErrors t₂ = [] ∧ response = executed r := by
        cases r with
        | ok fd =>
          obtain ⟨rfl, rfl⟩ := exec_log_pure h₁
          exact ⟨rfl, rfl⟩
        | error e =>
          obtain ⟨rfl, rfl⟩ := exec_log_pure h₁
          exact ⟨rfl, rfl⟩
      rw [hlog.2, executeBpf_fits hexec, osErrors_append, hlog.1, List.append_nil]

end

-- ---------------------------------------------------------------------------
-- What the daemon sends
-- ---------------------------------------------------------------------------

theorem osErrors_eq_nil {P : Op → Prop} {p : Prog Op Res α} (hp : p.Uses P) (hP : ¬ P .lastOsError)
    (h : Exec W p s tr a s') : osErrors tr = [] := by
  refine List.filterMap_eq_nil_iff.mpr fun e he => ?_
  have hop := exec_uses hp h e he
  obtain ⟨_, op, _⟩ := e
  cases op with
  | lastOsError => exact absurd hop hP
  | _ => rfl

section
variable {sent sent' : List UInt8} {tr : List (Event (wireWorld wire))}

theorem exec_unsent {P : Op → Prop} {p : Prog Op Res α} (hp : p.Uses P)
    (hsendmsg : ∀ stream fd data, ¬ P (.sendmsg stream fd data))
    (hwriteAll : ∀ stream data, ¬ P (.writeAll stream data))
    (h : Exec (wireWorld wire) p sent tr a sent') : sent' = sent := by
  refine exec_keeps (fun s op r m hop hanswer => ?_) hp h
  cases op with
  | sendmsg stream fd data => exact absurd hop (hsendmsg stream fd data)
  | writeAll stream data => exact absurd hop (hwriteAll stream data)
  | read stream size =>
    cases r with
    | ok bytes => exact hanswer.2
    | error e => exact hanswer
  | deserialize bytes => exact hanswer.2
  | serialize response => exact hanswer.2
  | _ => exact hanswer

theorem sendResponse_sends {response : Response}
    (h : Exec (wireWorld wire) (sendResponse stream response).run sent tr (.ok ()) sent') :
    sent' = sent ++ wire.response.serialize response := by
  unfold sendResponse at h
  split at h
  · rcases exec_run_bind.mp h with ⟨e, -, he⟩ | ⟨bytes, _, _, _, hser, h₁, rfl⟩
    · cases he
    obtain ⟨⟨hbytes, rfl⟩, -⟩ := exec_issue.mp hser
    cases hbytes
    rcases exec_run_bind.mp h₁ with ⟨e, -, he⟩ | ⟨n, _, _, _, hsend, h₂, rfl⟩
    · cases he
    obtain ⟨⟨-, rfl⟩, -⟩ := exec_issue.mp hsend
    obtain ⟨-, -, rfl⟩ := exec_run_pure.mp h₂
    rfl
  · rcases exec_run_bind.mp h with ⟨e, -, he⟩ | ⟨bytes, _, _, _, hser, h₁, rfl⟩
    · cases he
    obtain ⟨⟨hbytes, rfl⟩, -⟩ := exec_issue.mp hser
    cases hbytes
    obtain ⟨hsend, -⟩ := exec_issue.mp h₁
    exact hsend

variable {printable : Char → Bool} {policy : Policy} {groups : List String} {request : Request}

theorem handleClient_sends
    (h : Exec (wireWorld wire) (handleClient printable policy stream) sent tr (.ok ()) sent')
    (hgroups : .groups groups ∈ observed tr) (hrequest : .decoded request ∈ observed tr) :
    ∃ response, responses tr = [response] ∧ sent' = sent ++ wire.response.serialize response ∧
      ((wire.response.serialize response).length ≤ 4096 ↔
        ReplyFits printable policy groups request (osErrors tr)) := by
  obtain ⟨m, t, hconverses, hclose, rfl⟩ := handleClient_parts h
  rw [observed_close] at hgroups hrequest
  cases hconverses with
  | unread hclient _ hread hnone =>
    rw [unread_observed hclient hread hnone] at hrequest
    simp at hrequest
  | @answered s₁ s₂ s₃ s₄ _ t₁ t₂ t₃ t₄ g q response _ hclient hlog hread hrespond hsend =>
    obtain ⟨calls, -, hobs⟩ := answered_observed hclient hread hrespond hsend
    rw [hobs] at hgroups hrequest
    obtain rfl : groups = g := by simpa using hgroups
    obtain rfl : request = q := by simpa using hrequest
    have h₁ : s₁ = sent := exec_unsent uses_clientGroups (fun _ _ _ => id) (fun _ _ => id) hclient
    have h₂ : s₂ = s₁ := hlog
    have h₃ : s₃ = s₂ := exec_unsent uses_readRequest (fun _ _ _ => id) (fun _ _ => id) hread
    have h₄ : s₄ = s₃ := exec_unsent (uses_respond _) (fun _ _ _ => id) (fun _ _ => id) hrespond
    have hsent : m = (show List UInt8 from s₄) ++ wire.response.serialize response := sendResponse_sends hsend
    have hend : sent' = m := hclose
    refine ⟨response, ?_, ?_, ?_⟩
    · unfold responses
      rw [observed_close, hobs]
      simp [List.filterMap_map]
    · rw [hend, hsent, h₄, h₃, h₂, h₁]
    · have herrors : osErrors (t₁ ++ ⟨s₁, .log (.clientRole (policy.getRoleForGroups groups)), ()⟩ ::
          (t₂ ++ (t₃ ++ t₄)) ++ [⟨m, .close stream, ()⟩]) = osErrors t₃ := by
        simp [osErrors_eq_nil uses_clientGroups id hclient, osErrors_eq_nil uses_readRequest id hread,
          osErrors_eq_nil (uses_sendResponse response) id hsend]
      rw [herrors]
      exact respond_fits hrespond

end

-- ---------------------------------------------------------------------------
-- What the client receives
-- ---------------------------------------------------------------------------

section
variable {unread unread' : List UInt8} {tr' : List (Event (receiveWorld wire))}
  {client : Client.BpfRbacClient} {result : Except String (Response × Option RawFd)}

theorem recvResponseWithFd_decodes
    (h : Exec (receiveWorld wire) client.recvResponseWithFd.run unread tr' result unread') :
    ∃ fd, result = (wire.response.deserialize (unread.take 4096)).map fun response => (response, fd) := by
  unfold Client.BpfRbacClient.recvResponseWithFd at h
  rcases exec_run_bind.mp h with ⟨e, hrecv, -⟩ | ⟨msg, _, _, _, hrecv, h₁, rfl⟩
  · obtain ⟨⟨_, hmsg, -⟩, -⟩ := exec_perform.mp hrecv
    cases hmsg
  obtain ⟨⟨cmsgs, hmsg, -⟩, -⟩ := exec_perform.mp hrecv
  cases hmsg
  refine ⟨Client.receivedFd cmsgs, ?_⟩
  rcases exec_run_bind.mp h₁ with ⟨e, hdec, rfl⟩ | ⟨response, _, _, _, hdec, h₂, rfl⟩
  · obtain ⟨⟨hcodec, -⟩, -⟩ := exec_perform.mp hdec
    rw [← hcodec]
    rfl
  · obtain ⟨⟨hcodec, -⟩, -⟩ := exec_perform.mp hdec
    obtain ⟨-, rfl, -⟩ := exec_run_pure.mp h₂
    rw [← hcodec]
    rfl

theorem recvResponseWithFd_iff {response : Response}
    (h : Exec (receiveWorld wire) client.recvResponseWithFd.run (wire.response.serialize response) tr'
      result unread') :
    (∃ fd, result = .ok (response, fd)) ↔ (wire.response.serialize response).length ≤ 4096 := by
  obtain ⟨fd, rfl⟩ := recvResponseWithFd_decodes h
  rw [← wire.response.deserialize_take response 4096]
  cases wire.response.deserialize ((wire.response.serialize response).take 4096) with
  | error e => simp [Except.map]
  | ok response' => simp [Except.map]

variable {printable : Char → Bool} {policy : Policy} {groups : List String} {request : Request}
  {sent : List UInt8} {tr : List (Event (wireWorld wire))}

/-- The client gets the response the daemon built exactly when it fits. -/
theorem response_survives_iff
    (h : Exec (wireWorld wire) (handleClient printable policy stream) ([] : List UInt8) tr (.ok ()) sent)
    (hgroups : .groups groups ∈ observed tr) (hrequest : .decoded request ∈ observed tr)
    (hrecv : Exec (receiveWorld wire) client.recvResponseWithFd.run sent tr' result unread') :
    ∃ response, responses tr = [response] ∧
      ((∃ fd, result = .ok (response, fd)) ↔
        ReplyFits printable policy groups request (osErrors tr)) := by
  obtain ⟨response, hbuilt, rfl, hfits⟩ := handleClient_sends h hgroups hrequest
  exact ⟨response, hbuilt, (recvResponseWithFd_iff hrecv).trans hfits⟩

end

-- ---------------------------------------------------------------------------
-- A response that fits, and one that does not
-- ---------------------------------------------------------------------------

/-- `hashMapClient` sending `request`. -/
def exchange (request : Request) (sent : List UInt8) : (op : Op) → Res op × List UInt8
  | .read _ size =>
    let bytes := bincode.request.serialize request
    if bytes.length ≤ size then (.ok bytes, sent) else (.error "Interrupted system call", sent)
  | .deserialize bytes => (bincode.request.deserialize bytes, sent)
  | .serialize response => (.ok (bincode.response.serialize response), sent)
  | .sendmsg _ _ data =>
    if data.length < 2 ^ 64 then (.ok (UInt64.ofNat data.length), sent ++ data)
    else (.error "Message too long", sent)
  | .writeAll _ data => (.ok (), sent ++ data)
  | op => (hashMapClient op, sent)

theorem exchange_effect (request : Request) (sent : List UInt8) (op : Op) :
    wireEffect bincode sent op (exchange request sent op).1 (exchange request sent op).2 := by
  cases op with
  | read stream size =>
    by_cases hsize : (bincode.request.serialize request).length ≤ size
    · simp [exchange, wireEffect, hsize]
    · simp [exchange, wireEffect, hsize]
  | sendmsg stream fd data =>
    by_cases hsize : data.length < 2 ^ 64
    · simp only [exchange, if_pos hsize]
      exact ⟨UInt64.toNat_ofNat_of_lt' hsize, rfl⟩
    · simp only [exchange, if_neg hsize]
      rfl
  | deserialize bytes => exact ⟨rfl, rfl⟩
  | serialize response => exact ⟨rfl, rfl⟩
  | _ => rfl

def exchangeRun (request : Request) : List (Event (wireWorld bincode)) × Except String Unit × List UInt8 :=
  (handleClient (fun _ => true) Policy.default 5).play (exchange request) []

theorem exec_exchangeRun (request : Request) :
    Exec (wireWorld bincode) (handleClient (fun _ => true) Policy.default 5) ([] : List UInt8)
      (exchangeRun request).1 (exchangeRun request).2.1 (exchangeRun request).2.2 :=
  exec_play (W := wireWorld bincode) (exchange request) (exchange_effect request) _ _

def receive (unread : List UInt8) : (op : Client.Op) → Client.Res op × List UInt8
  | .connect _ => (.ok 3, unread)
  | .serialize request => (.ok (bincode.request.serialize request), unread)
  | .writeAll .. => (.ok (), unread)
  | .recvmsg _ size _ => (.ok ⟨unread.take size, [.scmRights [9]]⟩, unread.drop size)
  | .deserialize bytes => (bincode.response.deserialize bytes, unread)

theorem receive_effect (unread : List UInt8) (op : Client.Op) :
    receiveEffect bincode unread op (receive unread op).1 (receive unread op).2 := by
  cases op with
  | recvmsg => exact ⟨_, rfl, rfl⟩
  | deserialize => exact ⟨rfl, rfl⟩
  | _ => rfl

def receiveRun (unread : List UInt8) :
    List (Event (receiveWorld bincode)) × Except String (Response × Option RawFd) × List UInt8 :=
  (Client.BpfRbacClient.mk 3).recvResponseWithFd.run.play receive unread

theorem exec_receiveRun (unread : List UInt8) :
    Exec (receiveWorld bincode) (Client.BpfRbacClient.mk 3).recvResponseWithFd.run unread
      (receiveRun unread).1 (receiveRun unread).2.1 (receiveRun unread).2.2 :=
  exec_play (W := receiveWorld bincode) receive receive_effect _ _

theorem hash_map_response_survives :
    ∃ response, responses (exchangeRun hashMapRequest).1 = [response] ∧
      ∃ fd, (receiveRun (exchangeRun hashMapRequest).2.2).2.1 = .ok (response, fd) := by
  have hgroups : .groups ["ebpf"] ∈ observed (exchangeRun hashMapRequest).1 := List.mem_cons_self
  have hrequest : .decoded hashMapRequest ∈ observed (exchangeRun hashMapRequest).1 :=
    List.mem_cons_of_mem _ List.mem_cons_self
  obtain ⟨response, hbuilt, hiff⟩ :=
    response_survives_iff (exec_exchangeRun hashMapRequest) hgroups hrequest (exec_receiveRun _)
  refine ⟨response, hbuilt, hiff.mpr ?_⟩
  show ∀ reason ∈ osErrors (exchangeRun hashMapRequest).1, 35 + reason.utf8ByteSize ≤ 4096
  have herrors : osErrors (exchangeRun hashMapRequest).1 = [] := rfl
  simp [herrors]

theorem exec_readRequest (hsize : (wire.request.serialize request).length ≤ 4096) :
    Exec (wireWorld wire) (readRequest stream).run ([] : List UInt8)
      ([⟨[], .setNonblocking stream, .ok ()⟩, ⟨[], .fromStd stream, .ok ()⟩] ++
        ([⟨[], .read stream 4096, .ok (wire.request.serialize request)⟩] ++
          [⟨[], .deserialize (wire.request.serialize request), .ok request⟩, ⟨[], .log (.request request), ()⟩]))
      (.ok (some request)) ([] : List UInt8) := by
  have hne : (wire.request.serialize request).length ≠ 0 := by
    simpa using wire.request_ne_nil request
  have hread : Exec (wireWorld wire) (orFail (issue (.read stream 4096))).run ([] : List UInt8)
      [⟨[], .read stream 4096, .ok (wire.request.serialize request)⟩]
      (.ok (wire.request.serialize request)) ([] : List UInt8) := exec_issue.mpr ⟨⟨hsize, rfl⟩, rfl⟩
  refine .call rfl (.call rfl ?_)
  refine exec_run_bind.mpr (.inr ⟨_, _, _, _, hread, ?_, rfl⟩)
  rw [if_neg hne]
  exact .call ⟨(wire.request.deserialize_serialize request).symm, rfl⟩ (.call rfl .ret)

theorem exec_handleClient {W : World Op Res} {s s₁ s₂ s₃ s₄ m s' : W.State}
    {t₁ t₂ t₃ t₄ : List (Event W)} {printable : Char → Bool} {policy : Policy} {groups : List String}
    {request : Request} {response : Response} {r : Except String Unit}
    (hgroups : Exec W (clientGroups stream).run s t₁ (.ok groups) s₁)
    (hlog : W.answer s₁ (.log (.clientRole (policy.getRoleForGroups groups))) () s₂)
    (hread : Exec W (readRequest stream).run s₂ t₂ (.ok (some request)) s₃)
    (hrespond : Exec W (respond printable policy (policy.getRoleForGroups groups) request) s₃ t₃ response s₄)
    (hsend : Exec W (sendResponse stream response).run s₄ t₄ r m)
    (hclose : W.answer m (.close stream) () s') :
    Exec W (handleClient printable policy stream) s
      (t₁ ++ ⟨s₁, .log (.clientRole (policy.getRoleForGroups groups)), ()⟩ :: (t₂ ++ (t₃ ++ t₄)) ++
        [⟨m, .close stream, ()⟩]) r s' := by
  refine exec_bind.mpr ⟨r, m, _, _, ?_, .call hclose .ret, rfl⟩
  refine exec_run_bind.mpr (.inr ⟨groups, s₁, t₁, _, hgroups, .call hlog ?_, rfl⟩)
  refine exec_run_bind.mpr (.inr ⟨some request, s₃, t₂, _, hread, ?_, rfl⟩)
  exact exec_run_bind.mpr (.inr ⟨response, s₄, t₃, t₄, exec_run_lift.mpr ⟨response, hrespond, rfl⟩, hsend, rfl⟩)

/-- A request that fits and is refused gets as far as the reply. -/
theorem exec_denied (hsize : (bincode.request.serialize request).length ≤ 4096)
    (hno : Policy.default.isAllowed "ebpf" request = false) :
    ∃ tr sent, Exec (wireWorld bincode) (handleClient (fun _ => true) Policy.default 5)
        ([] : List UInt8) tr (.ok ()) sent ∧
      .groups ["ebpf"] ∈ observed tr ∧ .decoded request ∈ observed tr := by
  have hclient : ∃ t, Exec (wireWorld bincode) (clientGroups 5).run ([] : List UInt8) t
      (.ok ["ebpf"]) ([] : List UInt8) :=
    ⟨_, exec_play (W := wireWorld bincode) (exchange request) (exchange_effect request) _ _⟩
  obtain ⟨t₁, hclient⟩ := hclient
  have hrole : Policy.default.getRoleForGroups ["ebpf"] = some "ebpf" := rfl
  have hrespond : Exec (wireWorld bincode)
      (respond (fun _ => true) Policy.default (Policy.default.getRoleForGroups ["ebpf"]) request)
      ([] : List UInt8) [⟨[], .log (.denied "ebpf"), ()⟩]
      (.denied ("Role 'ebpf' not allowed for " ++ request.debug fun _ => true)) ([] : List UInt8) := by
    simp only [hrole, respond, hno]
    exact .call rfl .ret
  have hsend : ∃ t sent, Exec (wireWorld bincode) (sendResponse 5 (.denied ("Role 'ebpf' not allowed for " ++
      request.debug fun _ => true))).run ([] : List UInt8) t (.ok ()) sent :=
    ⟨_, _, exec_play (W := wireWorld bincode) (exchange request) (exchange_effect request) _ _⟩
  obtain ⟨t₄, sent, hsend⟩ := hsend
  obtain ⟨calls, -, hobs⟩ := answered_observed hclient (exec_readRequest hsize) hrespond hsend
  have hrun := exec_handleClient hclient rfl (exec_readRequest hsize) hrespond hsend rfl
  refine ⟨_, _, hrun, ?_, ?_⟩
  · rw [observed_close, hobs]
    simp
  · rw [observed_close, hobs]
    simp

theorem utf8ByteSize_ofList (l : List Char) :
    (String.ofList l).utf8ByteSize = (l.map Char.utf8Size).sum := by
  induction l with
  | nil => rfl
  | cons c l ih => simp [String.ofList_cons, String.utf8ByteSize_append, ih]

/-- A thousand control characters, one byte each and five as the daemon quotes them. -/
def controlRequest : Request := .attach (String.ofList (List.replicate 1000 '\x01')) 3 "eth0"

theorem controlRequest_fits : (bincode.request.serialize controlRequest).length ≤ 4096 := by
  have hbytes : (String.ofList (List.replicate 1000 '\x01')).utf8ByteSize = 1000 := by
    rw [utf8ByteSize_ofList, List.map_replicate, List.sum_replicate_nat]
    rfl
  have htarget : "eth0".utf8ByteSize = 4 := rfl
  rw [controlRequest, length_serialize_attach (by omega) (by omega)]
  omega

theorem controlRequest_debug (printable : Char → Bool) :
    5002 ≤ (controlRequest.debug printable).utf8ByteSize := by
  have hescape : (escapeDebug printable '\x01').utf8ByteSize = 5 := rfl
  refine Nat.le_trans (Nat.le_of_eq ?_) (utf8ByteSize_debug_attach ..)
  rw [utf8ByteSize_debugStr, String.toList_ofList, List.map_replicate, List.sum_replicate_nat, hescape]

theorem long_denial_lost :
    ∃ tr sent, Exec (wireWorld bincode) (handleClient (fun _ => true) Policy.default 5)
        ([] : List UInt8) tr (.ok ()) sent ∧
      .groups ["ebpf"] ∈ observed tr ∧ .decoded controlRequest ∈ observed tr ∧
      ∃ response, responses tr = [response] ∧ ∃ tr' result unread',
        Exec (receiveWorld bincode) (Client.BpfRbacClient.mk 3).recvResponseWithFd.run sent tr' result
          unread' ∧ ¬ ∃ fd, result = .ok (response, fd) := by
  have hno : Policy.default.isAllowed "ebpf" controlRequest = false :=
    Bool.eq_false_iff.mpr ((default_isAllowed_ebpf controlRequest).not.mpr id)
  obtain ⟨tr, sent, hrun, hgroups, hrequest⟩ := exec_denied controlRequest_fits hno
  obtain ⟨response, hbuilt, rfl, hfits⟩ := handleClient_sends hrun hgroups hrequest
  refine ⟨tr, _, hrun, hgroups, hrequest, response, hbuilt, _, _, _, exec_receiveRun _, ?_⟩
  rw [List.nil_append, recvResponseWithFd_iff (exec_receiveRun _), hfits]
  have hrole : Policy.default.getRoleForGroups ["ebpf"] = some "ebpf" := rfl
  have hlong := controlRequest_debug fun _ => true
  simp only [ReplyFits, hrole, hno, Bool.false_eq_true, if_false]
  omega

end BpfRbacd.Daemon
