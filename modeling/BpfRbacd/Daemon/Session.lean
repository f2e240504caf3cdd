import BpfRbacd.Lib.RelyGuarantee
import BpfRbacd.Bincode
import BpfRbacd.Client
import BpfRbacd.Daemon.Mediation

/-!
# A session on one connection

The client makes one `create_map` call after the other on its connection while
`handle_client` serves it, in any order of their steps. The socket delivers
every message whole, every `bpf(2)` call succeeds, and `host` answers the
daemon's other calls.

The daemon reads one request and drops the connection after its answer. So the
first call gets its descriptor and every later one an error.
-/

namespace BpfRbacd.Session

open Interaction Relation
open Daemon (BpfCall Supported IssuedFor Executes handleClient clientGroups)
open Client (BpfRbacClient)

/-- A connection: what was sent each way, how much of it was received, and
whether the daemon still has its end. `calls` are the daemon's, `installed` are
the client's descriptors beside the daemon's they came from. -/
structure Link where
  asked : List (List UInt8)
  taken : Nat
  answered : List (List UInt8 × Option RawFd)
  received : Nat
  daemonOpen : Bool
  calls : List BpfCall
  installed : List (RawFd × RawFd)

def Link.connected : Link := ⟨[], 0, [], 0, true, [], []⟩

section
variable (wire : Bincode) (host : (op : Daemon.Op) → Daemon.Res op)

def daemonEffect (s : Link) (op : Daemon.Op) (r : Daemon.Res op) (s' : Link) : Prop :=
  match op, r with
  | .read _ size, r =>
    ∃ data, s.asked[s.taken]? = some data ∧ r = .ok (data.take size) ∧ s' = { s with taken := s.taken + 1 }
  | .deserialize bytes, r => r = wire.request.deserialize bytes ∧ s' = s
  | .bpf cmd attr size, r => 0 ≤ r ∧ s' = { s with calls := s.calls ++ [⟨cmd, attr, size, r⟩] }
  | .serialize response, r => r = .ok (wire.response.serialize response) ∧ s' = s
  | .sendmsg _ fd data, r => (∃ n, r = .ok n) ∧ s' = { s with answered := s.answered ++ [(data, some fd)] }
  | .writeAll _ data, r => r = .ok () ∧ s' = { s with answered := s.answered ++ [(data, none)] }
  | .close _, _ => s' = { s with daemonOpen := false }
  | op, r => r = host op ∧ s' = s

/-- Writing fails once the daemon has closed its end. Receiving then gives
nothing or an error, and waits before. -/
def clientEffect (s : Link) (op : Client.Op) (r : Client.Res op) (s' : Link) : Prop :=
  match op, r with
  | .connect _, _ => False
  | .serialize request, r => r = .ok (wire.request.serialize request) ∧ s' = s
  | .writeAll _ data, r =>
    if s.daemonOpen then r = .ok () ∧ s' = { s with asked := s.asked ++ [data] }
    else (∃ e, r = .error e) ∧ s' = s
  | .recvmsg _ size _, r =>
    match s.answered[s.received]? with
    | some (data, none) => r = .ok ⟨data.take size, []⟩ ∧ s' = { s with received := s.received + 1 }
    | some (data, some fd) => ∃ f, r = .ok ⟨data.take size, [.scmRights [f]]⟩ ∧
        s' = { s with received := s.received + 1, installed := s.installed ++ [(f, fd)] }
    | none => s.daemonOpen = false ∧ (r = .ok ⟨[], []⟩ ∨ ∃ e, r = .error e) ∧ s' = s
  | .deserialize bytes, r => r = wire.response.deserialize bytes ∧ s' = s

end

structure MapArgs where
  mapType : String
  name : String
  keySize : UInt32
  valueSize : UInt32
  maxEntries : UInt32

def MapArgs.request (args : MapArgs) : Request :=
  .createMap args.mapType args.name args.keySize args.valueSize args.maxEntries

/-- One call after the other, whatever the earlier ones returned. -/
def createMaps (client : BpfRbacClient) :
    List MapArgs → Prog Client.Op Client.Res (List (Except String RawFd))
  | [] => pure []
  | args :: requests => do
    let result ← (client.createMap args.mapType args.name args.keySize args.valueSize args.maxEntries).run
    let results ← createMaps client requests
    return result :: results

-- ---------------------------------------------------------------------------
-- The contracts
-- ---------------------------------------------------------------------------

section
variable (wire : Bincode) (request : Request)

/-- The daemon's message for the outcome of a request. -/
def message : Except String RawFd → List UInt8 × Option RawFd
  | .ok fd => (wire.response.serialize (.success (some fd)), some fd)
  | .error e => (wire.response.serialize (.error e), none)

/-- `m` answers the request, the daemon having made `calls`. -/
def Answers (calls : List BpfCall) (m : List UInt8 × Option RawFd) : Prop :=
  ∃ r, Executes request calls r ∧ (∀ call ∈ calls, 0 ≤ call.result) ∧ m = message wire r

/-- The first request is `request`, and it alone is answered. -/
structure Consistent (s : Link) : Prop where
  first : ∀ data ∈ s.asked.head?, data = wire.request.serialize request
  answers : (s.answered = [] ∧ s.daemonOpen = true) ∨
    (s.asked ≠ [] ∧ ∃ m, s.answered = [m] ∧ Answers wire request s.calls m)

structure DaemonMoves (s s' : Link) : Prop where
  asked : s'.asked = s.asked
  received : s'.received = s.received
  installed : s'.installed = s.installed
  answered : s.answered ≠ [] → s'.answered = s.answered
  calls : s.answered ≠ [] → s'.calls = s.calls
  consistent : Consistent wire request s → Consistent wire request s'

structure ClientMoves (s s' : Link) : Prop where
  asked : s.asked ≠ [] → s'.asked ≠ []
  taken : s'.taken = s.taken
  answered : s'.answered = s.answered
  daemonOpen : s'.daemonOpen = s.daemonOpen
  calls : s'.calls = s.calls
  consistent : Consistent wire request s → Consistent wire request s'

theorem DaemonMoves.refl (s : Link) : DaemonMoves wire request s s :=
  ⟨rfl, rfl, rfl, fun _ => rfl, fun _ => rfl, id⟩

theorem ClientMoves.refl (s : Link) : ClientMoves wire request s s := ⟨id, rfl, rfl, rfl, rfl, id⟩

variable {wire request} {s₁ s₂ s₃ : Link}

theorem DaemonMoves.trans (h : DaemonMoves wire request s₁ s₂) (h' : DaemonMoves wire request s₂ s₃) :
    DaemonMoves wire request s₁ s₃ where
  asked := h'.asked.trans h.asked
  received := h'.received.trans h.received
  installed := h'.installed.trans h.installed
  answered hne := (h'.answered (h.answered hne ▸ hne)).trans (h.answered hne)
  calls hne := (h'.calls (h.answered hne ▸ hne)).trans (h.calls hne)
  consistent hs := h'.consistent (h.consistent hs)

theorem ClientMoves.trans (h : ClientMoves wire request s₁ s₂) (h' : ClientMoves wire request s₂ s₃) :
    ClientMoves wire request s₁ s₃ where
  asked hne := h'.asked (h.asked hne)
  taken := h'.taken.trans h.taken
  answered := h'.answered.trans h.answered
  daemonOpen := h'.daemonOpen.trans h.daemonOpen
  calls := h'.calls.trans h.calls
  consistent hs := h'.consistent (h.consistent hs)

variable (wire request)

/-- The client waits for an answer, and only for a daemon that is there. -/
def clientContract : Contract Link where
  rely := DaemonMoves wire request
  guarantee := ClientMoves wire request
  waits s := s.asked ≠ [] ∧ s.daemonOpen = true
  rely_refl := DaemonMoves.refl wire request
  rely_trans := DaemonMoves.trans

/-- The daemon waits for the first request. -/
def daemonContract : Contract Link where
  rely := ClientMoves wire request
  guarantee := DaemonMoves wire request
  waits s := s.asked = []
  rely_refl := ClientMoves.refl wire request
  rely_trans := ClientMoves.trans

end

-- ---------------------------------------------------------------------------
-- The daemon
-- ---------------------------------------------------------------------------

def Hosted : Daemon.Op → Prop
  | .read .. | .deserialize _ | .bpf .. | .serialize _ | .sendmsg .. | .writeAll .. | .close _ => False
  | _ => True

theorem Hosted.of_identifying {op : Daemon.Op} (h : op.Identifying) : Hosted op := by
  cases op with
  | intoStd => trivial
  | peerCredentials => trivial
  | userFromUid => trivial
  | groupFromGid => trivial
  | getgrouplist => trivial
  | log => trivial
  | _ => exact absurd h id

/-- A daemon that knows its client and whose policy allows the requests. -/
structure Admits (host : (op : Daemon.Op) → Daemon.Res op) (policy : Policy) (stream : RawFd)
    (groups : List String) (requests : List MapArgs) : Prop where
  identified : (clientGroups stream).run.eval host = .ok groups
  nonblocking : host (.setNonblocking stream) = .ok ()
  wrapped : host (.fromStd stream) = .ok ()
  authorized : ∀ args ∈ requests, policy.Authorizes groups args.request

section
variable {wire : Bincode} {host : (op : Daemon.Op) → Daemon.Res op} {request : Request} {s m : Link}

variable (wire host request) in
abbrev DaemonMeets (p : Prog Daemon.Op Daemon.Res α) (post : α → Link → Prop) (s : Link) : Prop :=
  p.Meets (daemonEffect wire host) (daemonContract wire request) post s

theorem daemonEffect_hosted {op : Daemon.Op} (hop : Hosted op) (s : Link) (r : Daemon.Res op) (s' : Link) :
    daemonEffect wire host s op r s' ↔ r = host op ∧ s' = s := by
  cases op with
  | read => exact absurd hop id
  | deserialize => exact absurd hop id
  | bpf => exact absurd hop id
  | serialize => exact absurd hop id
  | sendmsg => exact absurd hop id
  | writeAll => exact absurd hop id
  | close => exact absurd hop id
  | _ => exact Iff.rfl

theorem meets_hosted {p : Prog Daemon.Op Daemon.Res α} {post : α → Link → Prop} (hp : p.Uses Hosted)
    (hpost : ∀ m, ClientMoves wire request s m → post (p.eval host) m) :
    DaemonMeets wire host request p post s :=
  meets_host hp (fun _ hop => daemonEffect_hosted hop) (DaemonMoves.refl wire request) hpost

theorem meets_hosted_bind {x : Daemon.DaemonM β} {f : β → Daemon.DaemonM α} {b : β}
    {post : Except String α → Link → Prop} (hx : x.run.Uses Hosted) (hb : x.run.eval host = .ok b)
    (hf : ∀ m, ClientMoves wire request s m → DaemonMeets wire host request (f b).run post m) :
    DaemonMeets wire host request (x >>= f).run post s := by
  refine meets_run_bind (meets_hosted hx fun m hm => ?_)
  rw [hb]
  exact hf m hm

variable (wire request) in
/-- The daemon has taken `n` requests and made some calls, and not answered. -/
structure Working (n : Nat) (made : List BpfCall) (s : Link) : Prop where
  consistent : Consistent wire request s
  taken : s.taken = n
  asked : n ≠ 0 → s.asked ≠ []
  calls : s.calls = made
  answered : s.answered = []

theorem Working.move {n : Nat} {made : List BpfCall} (h : Working wire request n made s)
    (hm : ClientMoves wire request s m) : Working wire request n made m where
  consistent := hm.consistent h.consistent
  taken := hm.taken.trans h.taken
  asked hne := hm.asked (h.asked hne)
  calls := hm.calls.trans h.calls
  answered := hm.answered.trans h.answered

theorem DaemonMoves.take (s : Link) : DaemonMoves wire request s { s with taken := s.taken + 1 } where
  asked := rfl
  received := rfl
  installed := rfl
  answered _ := rfl
  calls _ := rfl
  consistent h := ⟨h.first, h.answers⟩

/-- The first message is the request. -/
theorem Working.take {data : List UInt8} (h : Working wire request 0 [] s)
    (hdata : s.asked[s.taken]? = some data) :
    data = wire.request.serialize request ∧ Working wire request 1 [] { s with taken := s.taken + 1 } := by
  rw [h.taken, ← List.head?_eq_getElem?] at hdata
  refine ⟨h.consistent.first data hdata, (DaemonMoves.take s).consistent h.consistent, ?_, fun _ => ?_,
    h.calls, h.answered⟩
  · show s.taken + 1 = 1
    rw [h.taken]
  · intro hnil
    have hnone : s.asked = [] := hnil
    rw [hnone] at hdata
    cases hdata

theorem readRequest_meets {policy : Policy} {stream : RawFd} {groups : List String}
    {requests : List MapArgs} (hadmits : Admits host policy stream groups requests)
    (hfits : (wire.request.serialize request).length ≤ 4096) (h : Working wire request 0 [] s) :
    DaemonMeets wire host request (Daemon.readRequest stream).run
      (fun r m => r = .ok (some request) ∧ Working wire request 1 [] m) s := by
  unfold Daemon.readRequest
  refine meets_hosted_bind (b := ()) (uses_perform trivial) hadmits.nonblocking fun s₁ h₁ => ?_
  refine meets_hosted_bind (b := ()) (uses_perform trivial) hadmits.wrapped fun s₂ h₂ => ?_
  refine meets_run_bind (meets_perform fun s₃ h₃ => ?_)
  have h : Working wire request 0 [] s₃ := ((h.move h₁).move h₂).move h₃
  constructor
  · cases hasked : s₃.asked with
    | nil => exact .inr hasked
    | cons data rest => exact .inl ⟨_, _, data, by simp [h.taken, hasked], rfl, rfl⟩
  rintro r s₄ ⟨data, hdata, rfl, rfl⟩
  obtain ⟨rfl, htaken⟩ := h.take hdata
  refine ⟨.take s₃, fun s₅ h₅ => ?_⟩
  rw [List.take_of_length_le hfits]
  show DaemonMeets wire host request (if _ then _ else _ : Daemon.DaemonM _).run _ s₅
  rw [if_neg (by simpa using wire.request_ne_nil request)]
  refine meets_settled (r := Except.ok request) ?_ (DaemonMoves.refl wire request) fun s₆ h₆ => ?_
  · intro s q s'
    show q = wire.request.deserialize _ ∧ _ ↔ _
    rw [wire.request.deserialize_serialize]
  refine meets_hosted_bind (b := ()) (Daemon.uses_ask trivial) rfl fun s₇ h₇ => ?_
  exact meets_pure fun m hm => ⟨rfl, (((htaken.move h₅).move h₆).move h₇).move hm⟩

theorem Working.call {n : Nat} {made : List BpfCall} (h : Working wire request n made s) (call : BpfCall) :
    DaemonMoves wire request s { s with calls := s.calls ++ [call] } ∧
      Working wire request n (made ++ [call]) { s with calls := s.calls ++ [call] } := by
  have hopen : s.daemonOpen = true := by
    rcases h.consistent.answers with ⟨-, hopen⟩ | ⟨-, m, hm, -⟩
    · exact hopen
    · rw [h.answered] at hm
      cases hm
  have hconsistent : Consistent wire request { s with calls := s.calls ++ [call] } :=
    ⟨h.consistent.first, .inl ⟨h.answered, hopen⟩⟩
  constructor
  · exact ⟨rfl, rfl, rfl, fun _ => rfl, fun hne => absurd h.answered hne, fun _ => hconsistent⟩
  · exact ⟨hconsistent, h.taken, h.asked, by rw [h.calls], h.answered⟩

variable (wire request) in
/-- The request has been executed, with outcome `r`. -/
def Executed (r : Except String RawFd) (s : Link) : Prop :=
  ∃ calls, Executes request calls r ∧ (∀ call ∈ calls, 0 ≤ call.result) ∧ Working wire request 1 calls s

theorem Executed.move {r : Except String RawFd} (h : Executed wire request r s)
    (hm : ClientMoves wire request s m) : Executed wire request r m := by
  obtain ⟨calls, hexecutes, hres, hworking⟩ := h
  exact ⟨calls, hexecutes, hres, hworking.move hm⟩

theorem createBpfMap_meets {mapType name : String} {keySize valueSize maxEntries : UInt32}
    (hrequest : request = .createMap mapType name keySize valueSize maxEntries)
    (h : Working wire request 1 [] s) :
    DaemonMeets wire host request (Daemon.createBpfMap mapType name keySize valueSize maxEntries).run
      (Executed wire request) s := by
  unfold Daemon.createBpfMap
  cases hnum : Daemon.createMapTypes.lookup mapType with
  | none =>
    refine meets_pure fun m hm => ⟨[], .unsupported ?_, by simp, h.move hm⟩
    simp [hrequest, Supported, hnum]
  | some n =>
    refine meets_run_bind fun m hm => ⟨.inl ⟨(0 : Int64), _, Int64.le_refl 0, rfl⟩, ?_⟩
    rintro fd s' ⟨hres, rfl⟩
    obtain ⟨hmoves, hworking⟩ := (h.move hm).call ⟨0, _, Daemon.bpfAttrSize, fd⟩
    refine ⟨hmoves, fun s₂ h₂ => ?_⟩
    show DaemonMeets wire host request (if fd < 0 then _ else _ : Daemon.DaemonM RawFd).run _ s₂
    rw [if_neg (Int64.not_lt.mpr hres)]
    refine meets_pure fun s₃ h₃ => ⟨[_], ?_, ?_, (hworking.move h₂).move h₃⟩
    · rw [hrequest]
      exact @Executes.created _ ⟨0, _, Daemon.bpfAttrSize, fd⟩ (by simp [Supported, hnum])
        ⟨rfl, Daemon.mapTypeToBit_of_create hnum, rfl, rfl, rfl⟩ hres
    · simpa using hres

theorem executeBpf_meets (h : Working wire request 1 [] s) :
    DaemonMeets wire host request (Daemon.executeBpf request).run (Executed wire request) s := by
  cases hrequest : request with
  | createMap mapType name keySize valueSize maxEntries =>
    rw [hrequest] at h
    exact createBpfMap_meets rfl h
  | loadProgram =>
    rw [hrequest] at h
    exact meets_pure fun m hm => ⟨[], .unsupported id, by simp, h.move hm⟩
  | attach =>
    rw [hrequest] at h
    exact meets_pure fun m hm => ⟨[], .unsupported id, by simp, h.move hm⟩

theorem respond_meets {printable : Char → Bool} {policy : Policy} {groups : List String}
    (hauthorized : policy.Authorizes groups request) (h : Working wire request 1 [] s) :
    DaemonMeets wire host request
      (Daemon.respond printable policy (policy.getRoleForGroups groups) request)
      (fun response m => ∃ r, response = Daemon.executed r ∧ Executed wire request r m) s := by
  obtain ⟨roleName, hrole, hallowed⟩ := hauthorized
  rw [hrole]
  simp only [Daemon.respond, hallowed, if_true]
  refine meets_bind ((executeBpf_meets h).mono fun r m hr => ?_)
  cases r with
  | ok fd =>
    refine meets_bind (meets_hosted (uses_perform trivial) fun m₁ h₁ => ?_)
    exact meets_pure fun m₂ h₂ => ⟨.ok fd, rfl, (hr.move h₁).move h₂⟩
  | error e =>
    refine meets_bind (meets_hosted (uses_perform trivial) fun m₁ h₁ => ?_)
    exact meets_pure fun m₂ h₂ => ⟨.error e, rfl, (hr.move h₁).move h₂⟩

variable (wire request) in
def Sent (s : Link) : Prop := Consistent wire request s ∧ s.answered ≠ []

theorem Sent.move (h : Sent wire request s) (hm : ClientMoves wire request s m) : Sent wire request m :=
  ⟨hm.consistent h.1, hm.answered ▸ h.2⟩

theorem Executed.answer {r : Except String RawFd} (h : Executed wire request r s) :
    DaemonMoves wire request s { s with answered := s.answered ++ [message wire r] } ∧
      Sent wire request { s with answered := s.answered ++ [message wire r] } := by
  obtain ⟨calls, hexecutes, hres, hworking⟩ := h
  have hconsistent : Consistent wire request { s with answered := s.answered ++ [message wire r] } := by
    refine ⟨hworking.consistent.first, .inr ⟨hworking.asked (by decide), message wire r, ?_, r, ?_, ?_, rfl⟩⟩
    · rw [hworking.answered]
      rfl
    · exact hworking.calls ▸ hexecutes
    · exact hworking.calls ▸ hres
  have hnone := hworking.answered
  exact ⟨⟨rfl, rfl, rfl, fun hne => absurd hnone hne, fun hne => absurd hnone hne, fun _ => hconsistent⟩,
    hconsistent, by simp⟩

theorem sendResponse_meets {stream : RawFd} {r : Except String RawFd} (h : Executed wire request r s) :
    DaemonMeets wire host request (Daemon.sendResponse stream (Daemon.executed r)).run
      (fun _ m => Sent wire request m) s := by
  cases r with
  | ok fd =>
    refine meets_settled (fun _ _ _ => Iff.rfl) (DaemonMoves.refl wire request) fun s₁ h₁ => ?_
    refine meets_run_bind fun s₂ h₂ => ⟨.inl ⟨Except.ok 0, _, ⟨_, rfl⟩, rfl⟩, ?_⟩
    rintro _ _ ⟨⟨n, rfl⟩, rfl⟩
    obtain ⟨hmoves, hsent⟩ := ((h.move h₁).move h₂).answer
    exact ⟨hmoves, fun s₃ h₃ => meets_pure fun s₄ h₄ => (hsent.move h₃).move h₄⟩
  | error e =>
    refine meets_settled (fun _ _ _ => Iff.rfl) (DaemonMoves.refl wire request) fun s₁ h₁ => ?_
    refine meets_perform fun s₂ h₂ => ⟨.inl ⟨Except.ok (), _, rfl, rfl⟩, ?_⟩
    rintro _ _ ⟨rfl, rfl⟩
    obtain ⟨hmoves, hsent⟩ := ((h.move h₁).move h₂).answer
    exact ⟨hmoves, fun s₃ h₃ => hsent.move h₃⟩

theorem converse_meets {printable : Char → Bool} {policy : Policy} {stream : RawFd}
    {groups : List String} {requests : List MapArgs} (hadmits : Admits host policy stream groups requests)
    (hauthorized : policy.Authorizes groups request)
    (hfits : (wire.request.serialize request).length ≤ 4096) (h : Working wire request 0 [] s) :
    DaemonMeets wire host request (Daemon.converse printable policy stream).run
      (fun _ m => Sent wire request m) s := by
  unfold Daemon.converse
  refine meets_hosted_bind (uses_mono (fun _ => Hosted.of_identifying) Daemon.uses_clientGroups)
    hadmits.identified fun s₁ h₁ => ?_
  refine meets_hosted_bind (b := ()) (Daemon.uses_ask trivial) rfl fun s₂ h₂ => ?_
  refine meets_run_bind ((readRequest_meets hadmits hfits ((h.move h₁).move h₂)).mono ?_)
  rintro _ s₃ ⟨rfl, h₃⟩
  refine meets_run_bind (meets_bind ((respond_meets hauthorized h₃).mono ?_))
  rintro _ s₄ ⟨r, rfl, h₄⟩
  exact meets_pure fun s₅ h₅ => sendResponse_meets (h₄.move h₅)

/-- The daemon answers the first request and drops the connection. -/
theorem handleClient_meets {printable : Char → Bool} {policy : Policy} {stream : RawFd}
    {groups : List String} {requests : List MapArgs} (hadmits : Admits host policy stream groups requests)
    (hauthorized : policy.Authorizes groups request)
    (hfits : (wire.request.serialize request).length ≤ 4096) (h : Working wire request 0 [] s) :
    DaemonMeets wire host request (handleClient printable policy stream)
      (fun _ m => m.daemonOpen = false) s := by
  refine meets_bind ((converse_meets hadmits hauthorized hfits h).mono fun _ s₁ h₁ => ?_)
  refine meets_bind (meets_perform fun s₂ h₂ => ⟨.inl ⟨(), _, rfl⟩, ?_⟩)
  rintro _ _ rfl
  obtain ⟨hconsistent, hanswered⟩ := h₁.move h₂
  refine ⟨⟨rfl, rfl, rfl, fun _ => rfl, fun _ => rfl, fun _ => ⟨hconsistent.first, ?_⟩⟩, fun s₃ h₃ => ?_⟩
  · exact hconsistent.answers.imp_left fun hnone => absurd hnone.1 hanswered
  · exact meets_pure fun s₄ h₄ => h₄.daemonOpen.trans h₃.daemonOpen

end

-- ---------------------------------------------------------------------------
-- The client
-- ---------------------------------------------------------------------------

section
variable {wire : Bincode} {request : Request} {s m : Link}

variable (wire request) in
abbrev ClientMeets (p : Prog Client.Op Client.Res α) (post : α → Link → Prop) (s : Link) : Prop :=
  p.Meets (clientEffect wire) (clientContract wire request) post s

/-- The client's copy of the daemon's descriptor, or an error for an error. -/
def Delivered (installed : List (RawFd × RawFd)) (result : Except String RawFd) :
    Except String RawFd → Prop
  | .ok fd => ∃ f, result = .ok f ∧ (f, fd) ∈ installed
  | .error _ => ∃ e, result = .error e

/-- What a call returned for the request once the daemon has answered. -/
def Outcome (request : Request) (result : Except String RawFd) (s : Link) : Prop :=
  ∃ r, Executes request s.calls r ∧ (∀ call ∈ s.calls, 0 ≤ call.result) ∧ Delivered s.installed result r

variable (wire request) in
structure Served (result : Except String RawFd) (s : Link) : Prop where
  consistent : Consistent wire request s
  asked : s.asked ≠ []
  answered : s.answered ≠ []
  received : s.received = 1
  outcome : Outcome request result s

theorem Served.move {result : Except String RawFd} (h : Served wire request result s)
    (hm : DaemonMoves wire request s m) : Served wire request result m where
  consistent := hm.consistent h.consistent
  asked := hm.asked ▸ h.asked
  answered := hm.answered h.answered ▸ h.answered
  received := hm.received.trans h.received
  outcome := by
    unfold Outcome
    rw [hm.calls h.answered, hm.installed]
    exact h.outcome

variable (wire request) in
/-- The client has received nothing yet. -/
structure Asking (s : Link) : Prop where
  consistent : Consistent wire request s
  received : s.received = 0

theorem Asking.move (h : Asking wire request s) (hm : DaemonMoves wire request s m) : Asking wire request m :=
  ⟨hm.consistent h.consistent, hm.received.trans h.received⟩

/-- What the client makes of as much of the message as fits its buffer. -/
def understood (wire : Bincode) (r : Except String RawFd) (fd : Option RawFd) : Except String RawFd :=
  (wire.response.deserialize ((message wire r).1.take 4096)).bind fun response => Client.mapFd response fd

theorem understood_ok (fd f : RawFd) : understood wire (.ok fd) (some f) = .ok f := by
  have hfits : (wire.response.serialize (.success (some fd))).length ≤ 4096 := by
    rw [wire.length_success]
    decide
  unfold understood message
  rw [(wire.response.deserialize_take _ 4096).mpr hfits]
  rfl

/-- A message too long for the buffer is an error as well. -/
theorem understood_error (e : String) (fd : Option RawFd) : ∃ e', understood wire (.error e) fd = .error e' := by
  unfold understood message
  rcases Nat.lt_or_ge 4096 (wire.response.serialize (.error e)).length with hlong | hfits
  · obtain ⟨e', he⟩ := wire.response.deserialize_take_long _ hlong
    exact ⟨e', by rw [he]; rfl⟩
  · exact ⟨_, by rw [(wire.response.deserialize_take _ 4096).mpr hfits]; rfl⟩

theorem clientEffect_message {stream : RawFd} {size fds : Nat} {r : Except String RawFd}
    {q : Except String Client.RecvMsg} {s' : Link}
    (hget : s.answered[s.received]? = some (message wire r)) :
    clientEffect wire s (.recvmsg stream size fds) q s' ↔
      match r with
      | .ok fd => ∃ f, q = .ok ⟨(message wire r).1.take size, [.scmRights [f]]⟩ ∧
          s' = { s with received := s.received + 1, installed := s.installed ++ [(f, fd)] }
      | .error _ => q = .ok ⟨(message wire r).1.take size, []⟩ ∧ s' = { s with received := s.received + 1 } := by
  cases r <;> simp only [clientEffect, hget, message]

/-- The rest of a call after `recvmsg`. -/
theorem finish_meets {P : Except String RawFd → Link → Prop} {bytes : List UInt8}
    {cmsgs : List Client.ControlMessage}
    (h : ∀ m, DaemonMoves wire request s m →
      P ((wire.response.deserialize bytes).bind fun response =>
        Client.mapFd response (Client.receivedFd cmsgs)) m) :
    ClientMeets wire request (do
        let response ← Client.orFail (Client.issue (.deserialize bytes))
        return (response, Client.receivedFd cmsgs) : Client.ClientM (Response × Option RawFd)).run
      (fun q m => P (q.bind fun p => Client.mapFd p.1 p.2) m) s := by
  refine meets_settled (fun _ _ _ => Iff.rfl) (ClientMoves.refl wire request) fun s₁ h₁ => ?_
  cases hq : wire.response.deserialize bytes with
  | ok response =>
    refine meets_pure fun s₂ h₂ => ?_
    have hfinal := h s₂ (h₁.trans h₂)
    rw [hq] at hfinal
    exact hfinal
  | error e =>
    refine meets_pure fun s₂ h₂ => ?_
    have hfinal := h s₂ (h₁.trans h₂)
    rw [hq] at hfinal
    exact hfinal

theorem ClientMoves.receive (s : Link) (n : Nat) (installed : List (RawFd × RawFd)) :
    ClientMoves wire request s { s with received := n, installed := installed } where
  asked h := h
  taken := rfl
  answered := rfl
  daemonOpen := rfl
  calls := rfl
  consistent h := ⟨h.first, h.answers⟩

/-- The first message makes the outcome known. -/
theorem Asking.receive {r result : Except String RawFd} {installed : List (RawFd × RawFd)}
    (h : Asking wire request s) (hasked : s.asked ≠ []) (hmsg : s.answered = [message wire r])
    (hexec : Executes request s.calls r) (hres : ∀ call ∈ s.calls, 0 ≤ call.result)
    (hresult : Delivered installed result r) :
    Served wire request result { s with received := s.received + 1, installed := installed } where
  consistent := ⟨h.consistent.first, h.consistent.answers⟩
  asked := hasked
  answered := by
    show s.answered ≠ []
    rw [hmsg]
    exact List.cons_ne_nil _ _
  received := congrArg Nat.succ h.received
  outcome := ⟨r, hexec, hres, hresult⟩

theorem receive_first {client : BpfRbacClient} (h : Asking wire request s) (hasked : s.asked ≠ []) :
    ClientMeets wire request client.recvResponseWithFd.run
      (fun q m => Served wire request (q.bind fun p => Client.mapFd p.1 p.2) m) s := by
  unfold BpfRbacClient.recvResponseWithFd
  refine meets_run_bind (meets_perform fun s₁ h₁ => ?_)
  have hs₁ := h.move h₁
  have hasked : s₁.asked ≠ [] := h₁.asked ▸ hasked
  rcases hs₁.consistent.answers with ⟨hnone, hopen⟩ | ⟨-, _, hmsg, r, hexec, hres, rfl⟩
  · refine ⟨.inr ⟨hasked, hopen⟩, fun q s' hq => ?_⟩
    simp [clientEffect, hnone, hopen] at hq
  · have hget : s₁.answered[s₁.received]? = some (message wire r) := by
      rw [hs₁.received, hmsg]
      rfl
    simp only [clientEffect_message hget]
    cases r with
    | ok fd =>
      refine ⟨.inl ⟨_, _, 0, rfl, rfl⟩, ?_⟩
      rintro _ _ ⟨f, rfl, rfl⟩
      refine ⟨.receive s₁ _ _, fun s₂ h₂ => finish_meets fun s₃ h₃ => ?_⟩
      show Served wire request (understood wire (.ok fd) (some f)) s₃
      rw [understood_ok]
      exact (hs₁.receive hasked hmsg hexec hres ⟨f, rfl, by simp⟩).move (h₂.trans h₃)
    | error e =>
      refine ⟨.inl ⟨_, _, rfl, rfl⟩, ?_⟩
      rintro _ _ ⟨rfl, rfl⟩
      refine ⟨.receive s₁ _ _, fun s₂ h₂ => finish_meets fun s₃ h₃ => ?_⟩
      show Served wire request (understood wire (.error e) none) s₃
      obtain ⟨e', he⟩ : ∃ e', understood wire (.error e) none = .error e' := understood_error e none
      rw [he]
      exact (hs₁.receive hasked hmsg hexec hres ⟨e', rfl⟩).move (h₂.trans h₃)

/-- Nothing comes after the first answer but the end of the connection. -/
theorem receive_later {client : BpfRbacClient} {result : Except String RawFd}
    (h : Served wire request result s) :
    ClientMeets wire request client.recvResponseWithFd.run
      (fun q m => (∃ e, q.bind (fun p => Client.mapFd p.1 p.2) = .error e) ∧ Served wire request result m) s := by
  unfold BpfRbacClient.recvResponseWithFd
  refine meets_run_bind (meets_perform fun s₁ h₁ => ?_)
  have hs₁ := h.move h₁
  have hget : s₁.answered[s₁.received]? = none := by
    rcases hs₁.consistent.answers with ⟨hnone, -⟩ | ⟨-, _, hmsg, -⟩
    · exact absurd hnone hs₁.answered
    · rw [hs₁.received, hmsg]
      rfl
  simp only [clientEffect, hget]
  constructor
  · cases hopen : s₁.daemonOpen with
    | true => exact .inr ⟨hs₁.asked, hopen⟩
    | false => exact .inl ⟨_, _, rfl, .inl rfl, rfl⟩
  · rintro q s₂ ⟨-, hend | ⟨e, rfl⟩, rfl⟩
    · subst hend
      refine ⟨.refl wire request s₂, fun s₃ h₃ => ?_⟩
      refine finish_meets (P := fun r m => (∃ e, r = .error e) ∧ Served wire request result m) fun s₄ h₄ => ?_
      obtain ⟨e, he⟩ := wire.response.deserialize_nil (a := .success none) (b := .denied "") (by simp)
      exact ⟨⟨e, by rw [he]; rfl⟩, (hs₁.move h₃).move h₄⟩
    · exact ⟨.refl wire request s₂, fun s₃ h₃ s₄ h₄ => ⟨⟨e, rfl⟩, (hs₁.move h₃).move h₄⟩⟩

/-- The end of a call: the message is turned into what the call returns. -/
theorem return_meets {client : BpfRbacClient} {P : Except String RawFd → Link → Prop}
    (hstable : ∀ {r s m}, P r s → DaemonMoves wire request s m → P r m)
    (h : ClientMeets wire request client.recvResponseWithFd.run
      (fun q m => P (q.bind fun p => Client.mapFd p.1 p.2) m) s) :
    ClientMeets wire request (do
        let (response, fd) ← client.recvResponseWithFd
        Client.orFail (pure (Client.mapFd response fd)) : Client.ClientM RawFd).run P s := by
  refine meets_run_bind (h.mono fun q m hq => ?_)
  cases q with
  | ok p => exact meets_pure fun n hn => hstable hq hn
  | error e => exact fun n hn => hstable hq hn

theorem clientEffect_write {stream : RawFd} {data : List UInt8} {q : Except String Unit} {s' : Link} :
    clientEffect wire s (.writeAll stream data) q s' ↔
      (s.daemonOpen = true ∧ q = .ok () ∧ s' = { s with asked := s.asked ++ [data] }) ∨
        (s.daemonOpen = false ∧ (∃ e, q = .error e) ∧ s' = s) := by
  cases hopen : s.daemonOpen <;> simp [clientEffect, hopen]

theorem writes {stream : RawFd} {data : List UInt8} (s : Link) :
    ∃ q s', clientEffect wire s (.writeAll stream data) q s' := by
  cases hopen : s.daemonOpen with
  | true => exact ⟨_, _, clientEffect_write.mpr (.inl ⟨hopen, rfl, rfl⟩)⟩
  | false => exact ⟨_, _, clientEffect_write.mpr (.inr ⟨hopen, ⟨"Broken pipe", rfl⟩, rfl⟩)⟩

/-- Only the first message asked matters. -/
theorem Consistent.ask {data : List UInt8} (h : Consistent wire request s)
    (hfirst : s.asked = [] → data = wire.request.serialize request) :
    Consistent wire request { s with asked := s.asked ++ [data] } where
  first := by
    cases hasked : s.asked with
    | nil => simpa using hfirst hasked
    | cons first rest => simpa [hasked] using h.first
  answers := h.answers.imp_right fun ⟨hasked, hmsg⟩ => ⟨by simp, hmsg⟩

theorem ClientMoves.ask {data : List UInt8} (hfirst : s.asked = [] → data = wire.request.serialize request) :
    ClientMoves wire request s { s with asked := s.asked ++ [data] } where
  asked _ := by simp
  taken := rfl
  answered := rfl
  daemonOpen := rfl
  calls := rfl
  consistent h := h.ask hfirst

theorem createMap_first {client : BpfRbacClient} {args : MapArgs} (h : Asking wire args.request s)
    (hnone : s.asked = []) :
    ClientMeets wire args.request
      (client.createMap args.mapType args.name args.keySize args.valueSize args.maxEntries).run
      (Served wire args.request) s := by
  unfold BpfRbacClient.createMap
  refine meets_settled (fun _ _ _ => Iff.rfl) (ClientMoves.refl wire args.request) fun s₁ h₁ => ?_
  refine meets_run_bind (meets_perform fun s₂ h₂ => ⟨.inl (writes s₂), ?_⟩)
  have hs₂ := (h.move h₁).move h₂
  have hnone₂ : s₂.asked = [] := (h₂.asked.trans h₁.asked).trans hnone
  intro q s₃ hwrite
  rcases clientEffect_write.mp hwrite with ⟨-, rfl, rfl⟩ | ⟨hclosed, -⟩
  · refine ⟨.ask fun _ => rfl, fun s₄ h₄ => return_meets Served.move (receive_first ?_ ?_)⟩
    · exact Asking.move ⟨hs₂.consistent.ask fun _ => rfl, hs₂.received⟩ h₄
    · rw [h₄.asked]
      simp
  · rcases hs₂.consistent.answers with ⟨-, hopen⟩ | ⟨hasked, -⟩
    · rw [hclosed] at hopen
      cases hopen
    · exact absurd hnone₂ hasked

theorem createMap_later {client : BpfRbacClient} {args : MapArgs} {result : Except String RawFd}
    (h : Served wire request result s) :
    ClientMeets wire request
      (client.createMap args.mapType args.name args.keySize args.valueSize args.maxEntries).run
      (fun q m => (∃ e, q = .error e) ∧ Served wire request result m) s := by
  unfold BpfRbacClient.createMap
  refine meets_settled (fun _ _ _ => Iff.rfl) (ClientMoves.refl wire request) fun s₁ h₁ => ?_
  refine meets_run_bind (meets_perform fun s₂ h₂ => ⟨.inl (writes s₂), ?_⟩)
  have hs₂ := (h.move h₁).move h₂
  have hfirst : ∀ {data : List UInt8}, s₂.asked = [] → data = wire.request.serialize request :=
    fun hnone => absurd hnone hs₂.asked
  intro q s₃ hwrite
  rcases clientEffect_write.mp hwrite with ⟨-, rfl, rfl⟩ | ⟨-, ⟨e, rfl⟩, rfl⟩
  · refine ⟨.ask hfirst, fun s₄ h₄ => return_meets ?_ (receive_later (Served.move ?_ h₄))⟩
    · exact fun hr hm => ⟨hr.1, hr.2.move hm⟩
    · exact ⟨hs₂.consistent.ask hfirst, by simp, hs₂.answered, hs₂.received, hs₂.outcome⟩
  · exact ⟨.refl wire request s₃, fun s₄ h₄ s₅ h₅ => ⟨⟨e, rfl⟩, (hs₂.move h₄).move h₅⟩⟩

theorem createMaps_later {client : BpfRbacClient} {requests : List MapArgs} {result : Except String RawFd}
    (h : Served wire request result s) :
    ClientMeets wire request (createMaps client requests)
      (fun results m => results.length = requests.length ∧ (∀ q ∈ results, ∃ e, q = .error e) ∧
        Served wire request result m) s := by
  induction requests generalizing s with
  | nil => exact meets_pure fun m hm => ⟨rfl, by simp, h.move hm⟩
  | cons args requests ih =>
    refine meets_bind ((createMap_later h).mono ?_)
    rintro q s₁ ⟨hq, h₁⟩
    refine meets_bind ((ih h₁).mono ?_)
    rintro results s₂ ⟨hlength, hlater, h₂⟩
    exact meets_pure fun s₃ h₃ =>
      ⟨congrArg Nat.succ hlength, List.forall_mem_cons.mpr ⟨hq, hlater⟩, h₂.move h₃⟩

/-- The first call gets the outcome of its request and every later one an error. -/
theorem createMaps_meets {client : BpfRbacClient} {args : MapArgs} {requests : List MapArgs}
    (h : Asking wire args.request s) (hnone : s.asked = []) :
    ClientMeets wire args.request (createMaps client (args :: requests))
      (fun results m => ∃ result later, results = result :: later ∧ later.length = requests.length ∧
        (∀ q ∈ later, ∃ e, q = .error e) ∧ Outcome args.request result m) s := by
  refine meets_bind ((createMap_first h hnone).mono fun result s₁ h₁ => ?_)
  refine meets_bind ((createMaps_later h₁).mono ?_)
  rintro later s₂ ⟨hlength, hlater, h₂⟩
  exact meets_pure fun s₃ h₃ => ⟨result, later, rfl, hlength, hlater, (h₂.move h₃).outcome⟩

end

-- ---------------------------------------------------------------------------
-- Both
-- ---------------------------------------------------------------------------

abbrev Parties :=
  Config Client.Op Client.Res Daemon.Op Daemon.Res Link (List (Except String RawFd)) (Except String Unit)

abbrev Step (wire : Bincode) (host : (op : Daemon.Op) → Daemon.Res op) : Parties → Parties → Prop :=
  Steps (clientEffect wire) (daemonEffect wire host)

def start (printable : Char → Bool) (policy : Policy) (stream : RawFd) (client : BpfRbacClient)
    (requests : List MapArgs) : Parties :=
  ⟨createMaps client requests, handleClient printable policy stream, .connected⟩

/-- The call returned the descriptor of the map that was created for its request. -/
def Gets (args : MapArgs) (result : Except String RawFd) (s : Link) : Prop :=
  ∃ f, result = .ok f ∧ ∃ call ∈ s.calls, IssuedFor args.request call ∧ 0 ≤ call.result ∧
    (f, call.result.toInt32) ∈ s.installed

/-- The first call got its map if the daemon can create one of the type, and
all others failed. -/
def OnlyFirst : List MapArgs → List (Except String RawFd) → Link → Prop
  | [], results, _ => results = []
  | args :: requests, results, s => ∃ result later, results = result :: later ∧
    later.length = requests.length ∧ (∀ q ∈ later, ∃ e, q = .error e) ∧
    (Supported args.request → Gets args result s) ∧
    (¬ Supported args.request → s.calls = [] ∧ ∃ e, result = .error e)

theorem Outcome.gets {args : MapArgs} {result : Except String RawFd} {s : Link}
    (h : Outcome args.request result s) :
    (Supported args.request → Gets args result s) ∧
      (¬ Supported args.request → s.calls = [] ∧ ∃ e, result = .error e) := by
  obtain ⟨r, hexec, hres, hresult⟩ := h
  generalize hcalls : s.calls = calls at hexec hres
  cases hexec with
  | unsupported hun => exact ⟨fun hsup => absurd hsup hun, fun _ => ⟨rfl, hresult⟩⟩
  | @created call hsup hissued hok =>
    obtain ⟨f, rfl, hinstalled⟩ := hresult
    exact ⟨fun _ => ⟨f, rfl, call, by simp [hcalls], hissued, hok, hinstalled⟩, fun hun => absurd hsup hun⟩
  | failed hsup _ hneg =>
    exact absurd (hres _ List.mem_cons_self) (Int64.not_le.mpr hneg)

section
variable {wire : Bincode} {host : (op : Daemon.Op) → Daemon.Res op} {printable : Char → Bool}
  {policy : Policy} {stream : RawFd} {client : BpfRbacClient} {groups : List String}
  {requests : List MapArgs} {c : Parties}

theorem connected_consistent (wire : Bincode) (request : Request) : Consistent wire request .connected :=
  ⟨by rintro data ⟨⟩, .inl ⟨rfl, rfl⟩⟩

theorem returned_stays {c' : Parties} {results : List (Except String RawFd)}
    (h : ReflTransGen (Step wire host) c c') (hret : c.left = .ret results) :
    c'.left = .ret results := by
  induction h with
  | refl => exact hret
  | tail _ hstep ih =>
    cases hstep with
    | left => cases ih
    | right => exact ih

/-- In every interleaving the session comes to an end as `OnlyFirst` says. -/
theorem session_outcome (hadmits : Admits host policy stream groups requests)
    (hfits : ∀ args ∈ requests, (wire.request.serialize args.request).length ≤ 4096)
    (hreach : ReflTransGen (Step wire host) (start printable policy stream client requests) c) :
    ((∃ c', Step wire host c c') ∨ ∃ results, c.left = .ret results) ∧
      ∀ results, c.left = .ret results → OnlyFirst requests results c.shared := by
  cases requests with
  | nil =>
    have hret := returned_stays hreach rfl
    refine ⟨.inr ⟨_, hret⟩, fun results hresults => ?_⟩
    rw [hret] at hresults
    cases hresults
    rfl
  | cons args requests =>
    have hstart : Sound (clientEffect wire) (daemonEffect wire host) (clientContract wire args.request)
        (daemonContract wire args.request) _ _
        (start printable policy stream client (args :: requests)) :=
      ⟨createMaps_meets ⟨connected_consistent wire args.request, rfl⟩ rfl,
        handleClient_meets hadmits (hadmits.authorized args List.mem_cons_self)
          (hfits args List.mem_cons_self)
          ⟨connected_consistent wire args.request, rfl, fun hne => absurd rfl hne, rfl, rfl⟩⟩
    have hsound := Sound.reach (fun _ _ => id) (fun _ _ => id) hreach hstart
    constructor
    · rcases hsound.progress with hstep | ⟨hreturned | ⟨hasked, hopen⟩, hdaemon⟩
      · exact .inl hstep
      · exact .inr hreturned
      -- the client waits for a daemon that is neither done nor waiting
      · rcases hdaemon with ⟨-, hclosed⟩ | hnone
        · rw [hclosed] at hopen
          cases hopen
        · exact absurd hnone hasked
    · intro results hresults
      obtain ⟨result, later, rfl, hlength, hlater, houtcome⟩ := hsound.returned hresults
      exact ⟨result, later, rfl, hlength, hlater, houtcome.gets⟩

end

/-- A connection serves one request. However the steps of the two parties
interleave, the session comes to an end: every call returns, the first one with
its map and the later ones with errors. -/
theorem first_request_served (wire : Bincode) (host : (op : Daemon.Op) → Daemon.Res op)
    (printable : Char → Bool) (policy : Policy) (stream : RawFd) (client : BpfRbacClient)
    (groups : List String) (requests : List MapArgs) (hadmits : Admits host policy stream groups requests)
    (hfits : ∀ args ∈ requests, (wire.request.serialize args.request).length ≤ 4096) :
    Acc (fun c' c => Step wire host c c') (start printable policy stream client requests) ∧
    ∀ c, ReflTransGen (Step wire host) (start printable policy stream client requests) c →
      ((∃ c', Step wire host c c') ∨ ∃ results, c.left = .ret results) ∧
      ∀ results, c.left = .ret results → OnlyFirst requests results c.shared :=
  ⟨steps_acc _ _ _, fun _ hreach => session_outcome hadmits hfits hreach⟩

/-- Two calls for a hash map by a member of `ebpf`. -/
def hashMapCalls : List MapArgs := [⟨"hash", "counters", 4, 8, 1024⟩, ⟨"hash", "totals", 4, 8, 16⟩]

theorem hashMapCalls_admitted : Admits Daemon.hashMapClient Policy.default 5 ["ebpf"] hashMapCalls where
  identified := rfl
  nonblocking := rfl
  wrapped := rfl
  authorized := by
    simp only [hashMapCalls, List.forall_mem_cons]
    exact ⟨⟨"ebpf", rfl, rfl⟩, ⟨"ebpf", rfl, rfl⟩, by simp⟩

theorem hashMapCalls_fit :
    ∀ args ∈ hashMapCalls, (bincode.request.serialize args.request).length ≤ 4096 := by
  decide

def hashMapStart : Parties := start (fun _ => true) Policy.default 5 ⟨3⟩ hashMapCalls

theorem first_hash_map_created :
    ∃ c f later, ReflTransGen (Step bincode Daemon.hashMapClient) hashMapStart c ∧
      c.left = .ret (.ok f :: later) ∧ later.length = 1 := by
  obtain ⟨-, hsession⟩ := first_request_served bincode Daemon.hashMapClient (fun _ => true) Policy.default 5
    ⟨3⟩ ["ebpf"] hashMapCalls hashMapCalls_admitted hashMapCalls_fit
  obtain ⟨c, hreach, results, hret⟩ := exists_returned fun c hreach => (hsession c hreach).1
  obtain ⟨result, later, rfl, hlength, -, hgets, -⟩ := (hsession c hreach).2 results hret
  obtain ⟨f, rfl, -⟩ := hgets rfl
  exact ⟨c, f, later, hreach, hret, hlength⟩

/-- The second call on the connection fails, although it is allowed and fits. -/
theorem second_call_fails :
    ¬ ∀ (wire : Bincode) (host : (op : Daemon.Op) → Daemon.Res op) (printable : Char → Bool)
        (policy : Policy) (stream : RawFd) (client : BpfRbacClient) (groups : List String)
        (requests : List MapArgs), Admits host policy stream groups requests →
      (∀ args ∈ requests, (wire.request.serialize args.request).length ≤ 4096) →
      ∀ c results, ReflTransGen (Step wire host) (start printable policy stream client requests) c →
        c.left = .ret results → List.Forall₂ (fun args result => Gets args result c.shared) requests results := by
  intro h
  have hsession : ∀ c, ReflTransGen (Step bincode Daemon.hashMapClient) hashMapStart c →
      ((∃ c', Step bincode Daemon.hashMapClient c c') ∨ ∃ results, c.left = .ret results) ∧
      ∀ results, c.left = .ret results → OnlyFirst hashMapCalls results c.shared :=
    fun c hreach => session_outcome hashMapCalls_admitted hashMapCalls_fit hreach
  obtain ⟨c, hreach, results, hret⟩ := exists_returned fun c hreach => (hsession c hreach).1
  obtain ⟨result, later, rfl, -, hlater, -⟩ := (hsession c hreach).2 results hret
  have hall := h bincode _ _ _ _ _ _ _ hashMapCalls_admitted hashMapCalls_fit c _ hreach hret
  cases hall with
  | cons _ hrest =>
    cases hrest with
    | cons hsecond _ =>
      obtain ⟨f, rfl, -⟩ := hsecond
      obtain ⟨e, he⟩ := hlater _ List.mem_cons_self
      cases he

end BpfRbacd.Session
