import BpfRbacd.Daemon
import BpfRbacd.Policy.Default

/-!
# The proxy mediates every system call

What a run of `handle_client` shows of its dealings: the groups it found, the
request it decoded, its `bpf(2)` calls and the response it built, in this order
(`Conversation`). Between request and response stands `Responds`, one case
for each way `respond` can end. Everything holds in every world, so for any
outcome of any call.
-/

namespace BpfRbacd.Daemon

open Interaction

structure BpfCall where
  cmd : Int32
  attr : BpfAttr
  size : UInt64
  result : Int64

inductive Observation where
  | groups (groups : List String)
  | decoded (request : Request)
  | call (call : BpfCall)
  | built (response : Response)

variable {W : World Op Res} {s s' : W.State} {tr : List (Event W)}

def observe (e : Event W) : Option Observation :=
  match e with
  | ⟨_, .log (.clientGroups groups), _⟩ => some (.groups groups)
  | ⟨_, .deserialize _, .ok request⟩ => some (.decoded request)
  | ⟨_, .bpf cmd attr size, result⟩ => some (.call ⟨cmd, attr, size, result⟩)
  | ⟨_, .serialize response, _⟩ => some (.built response)
  | _ => none

def observed (tr : List (Event W)) : List Observation := tr.filterMap observe

@[simp] theorem observed_nil : observed ([] : List (Event W)) = [] := rfl

@[simp] theorem observed_append (t₁ t₂ : List (Event W)) :
    observed (t₁ ++ t₂) = observed t₁ ++ observed t₂ := List.filterMap_append

def Op.Silent : Op → Prop
  | .log (.clientGroups _) | .deserialize _ | .bpf .. | .serialize _ => False
  | _ => True

theorem observe_silent {e : Event W} (h : e.op.Silent) : observe e = none := by
  obtain ⟨before, op, res⟩ := e
  cases op with
  | log line => cases line <;> first | rfl | exact absurd h id
  | deserialize => exact absurd h id
  | bpf => exact absurd h id
  | serialize => exact absurd h id
  | _ => rfl

theorem observed_cons_silent {e : Event W} (h : e.op.Silent) : observed (e :: tr) = observed tr :=
  List.filterMap_cons_none (observe_silent h)

theorem observed_silent {p : Prog Op Res α} (hp : p.Uses Op.Silent) (h : Exec W p s tr a s') :
    observed tr = [] :=
  List.filterMap_eq_nil_iff.mpr fun e he => observe_silent (exec_uses hp h e he)

-- ---------------------------------------------------------------------------
-- Calls
-- ---------------------------------------------------------------------------

theorem exec_issue {op : Op} {a : Res op} :
    Exec W (issue op) s tr a s' ↔ W.answer s op a s' ∧ tr = [⟨s, op, a⟩] := exec_perform

theorem exec_ask {op : Op} {r : Except String (Res op)} :
    Exec W (ask op).run s tr r s' ↔ ∃ a, (W.answer s op a s' ∧ tr = [⟨s, op, a⟩]) ∧ r = .ok a := by
  simp only [ask, exec_run_lift, exec_issue]

/-- The answer to a call that cannot fail goes on to the rest. -/
theorem exec_ask_bind {op : Op} {f : Res op → DaemonM α} {r : Except String α}
    (h : Exec W (ask op >>= f).run s tr r s') :
    ∃ a m t, W.answer s op a m ∧ Exec W (f a).run m t r s' ∧ tr = ⟨s, op, a⟩ :: t := by
  rcases exec_run_bind.mp h with ⟨e, hfail, -⟩ | ⟨b, m, _, t, hask, hrest, rfl⟩
  · obtain ⟨_, -, he⟩ := exec_ask.mp hfail
    cases he
  · obtain ⟨a, ⟨hanswer, rfl⟩, ha⟩ := exec_ask.mp hask
    obtain rfl : b = a := Except.ok.inj ha
    exact ⟨b, m, t, hanswer, hrest, rfl⟩

theorem exec_log_bind {f : Unit → DaemonM α} {r : Except String α}
    (h : Exec W (log line >>= f).run s tr r s') :
    ∃ m t, W.answer s (.log line) () m ∧ Exec W (f ()).run m t r s' ∧
      tr = ⟨s, .log line, ()⟩ :: t := by
  obtain ⟨_, m, t, hanswer, hrest, rfl⟩ := exec_ask_bind h
  exact ⟨m, t, hanswer, hrest, rfl⟩

theorem exec_log_pure {a b : α} (h : Exec W (issue (.log line) >>= fun _ => pure a) s tr b s') :
    b = a ∧ tr = [⟨s, .log line, ()⟩] := by
  obtain ⟨_, _, _, _, hlog, hret, rfl⟩ := exec_bind.mp h
  obtain ⟨-, rfl⟩ := exec_issue.mp hlog
  obtain ⟨rfl, rfl, -⟩ := exec_pure.mp hret
  exact ⟨rfl, rfl⟩

theorem uses_ask (h : P op) : (ask op).run.Uses P := uses_bind (uses_perform h) fun _ => uses_pure

/-- What finding out the peer's groups issues. -/
def Op.Identifying : Op → Prop
  | .intoStd _ | .peerCredentials _ | .userFromUid _ | .groupFromGid _ | .getgrouplist .. | .log _ => True
  | _ => False

def Op.Lookup : Op → Prop
  | .userFromUid _ | .groupFromGid _ | .getgrouplist .. => True
  | _ => False

theorem Op.Lookup.silent {op : Op} (h : op.Lookup) : op.Silent := by
  cases op with
  | userFromUid => trivial
  | groupFromGid => trivial
  | getgrouplist => trivial
  | _ => exact absurd h id

theorem Op.Lookup.identifying {op : Op} (h : op.Lookup) : op.Identifying := by
  cases op with
  | userFromUid => trivial
  | groupFromGid => trivial
  | getgrouplist => trivial
  | _ => exact absurd h id

theorem uses_addGroup : (addGroup groups gid).run.Uses Op.Lookup := by
  unfold addGroup
  refine uses_run_bind (uses_ask trivial) fun found => ?_
  split <;> exact uses_pure

theorem uses_addGroups (groupList : List UInt32) :
    (groupList.foldlM addGroup groups).run.Uses Op.Lookup := by
  induction groupList generalizing groups with
  | nil => exact uses_pure
  | cons gid groupList ih => exact uses_run_bind uses_addGroup fun _ => ih

theorem uses_getUserGroups : (getUserGroups uid).run.Uses Op.Lookup := by
  unfold getUserGroups
  refine uses_run_bind (uses_perform trivial) fun user => ?_
  cases user with
  | none => exact uses_pure
  | some user =>
    refine uses_run_bind (uses_ask trivial) fun found => ?_
    refine uses_run_bind uses_pure fun username => ?_
    refine uses_run_bind (uses_ask trivial) fun groupList => ?_
    cases groupList with
    | error e => exact uses_pure
    | ok groupList => exact uses_addGroups groupList

theorem uses_clientGroups : (clientGroups stream).run.Uses Op.Identifying := by
  unfold clientGroups
  refine uses_run_bind (uses_perform trivial) fun _ => ?_
  refine uses_run_bind (uses_perform trivial) fun cred => ?_
  refine uses_run_bind (uses_ask trivial) fun _ => ?_
  refine uses_run_bind (uses_mono (fun _ => Op.Lookup.identifying) uses_getUserGroups) fun groups => ?_
  exact uses_run_bind (uses_ask trivial) fun _ => uses_pure

/-- What reading a request issues. -/
def Op.Reading : Op → Prop
  | .setNonblocking _ | .fromStd _ | .read .. | .deserialize _ | .log _ => True
  | _ => False

theorem uses_readRequest : (readRequest stream).run.Uses Op.Reading := by
  unfold readRequest
  refine uses_run_bind (uses_perform trivial) fun _ => ?_
  refine uses_run_bind (uses_perform trivial) fun _ => ?_
  refine uses_run_bind (uses_perform trivial) fun buf => ?_
  split
  · exact uses_pure
  · refine uses_run_bind (uses_perform trivial) fun request => ?_
    exact uses_run_bind (uses_ask trivial) fun _ => uses_pure

/-- What executing a request issues. -/
def Op.Executing : Op → Prop
  | .bpf .. | .lastOsError | .log _ => True
  | _ => False

theorem uses_createBpfMap :
    (createBpfMap mapType name keySize valueSize maxEntries).run.Uses Op.Executing := by
  unfold createBpfMap
  cases createMapTypes.lookup mapType with
  | none => exact uses_pure
  | some n =>
    refine uses_run_bind (uses_ask trivial) fun fd => ?_
    split
    · exact uses_run_bind (uses_ask trivial) fun _ => uses_pure
    · exact uses_pure

theorem uses_executeBpf : (executeBpf request).run.Uses Op.Executing := by
  cases request with
  | createMap => exact uses_createBpfMap
  | loadProgram => exact uses_pure
  | attach => exact uses_pure

theorem uses_respond {printable : Char → Bool} {policy : Policy} (role : Option String) :
    (respond printable policy role request).Uses Op.Executing := by
  cases role with
  | none => exact uses_pure
  | some roleName =>
    simp only [respond]
    split
    · refine uses_bind uses_executeBpf fun r => ?_
      cases r <;> exact uses_bind (uses_perform trivial) fun _ => uses_pure
    · exact uses_bind (uses_perform trivial) fun _ => uses_pure

/-- What sending a response issues. -/
def Op.Sending : Op → Prop
  | .serialize _ | .sendmsg .. | .writeAll .. => True
  | _ => False

theorem uses_sendResponse (response : Response) :
    (sendResponse stream response).run.Uses Op.Sending := by
  unfold sendResponse
  split
  · refine uses_run_bind (uses_perform trivial) fun bytes => ?_
    exact uses_run_bind (uses_perform trivial) fun _ => uses_pure
  · exact uses_run_bind (uses_perform trivial) fun bytes => uses_perform trivial

/-- A silent first part ends the run, or leaves all there is to see to the rest. -/
theorem exec_silent_bind {x : DaemonM α} {f : α → DaemonM β} {r : Except String β}
    (hx : x.run.Uses Op.Silent) (h : Exec W (x >>= f).run s tr r s') :
    (observed tr = [] ∧ ∃ e, r = .error e) ∨
      ∃ a m t, Exec W (f a).run m t r s' ∧ observed tr = observed t := by
  rcases exec_run_bind.mp h with ⟨e, hfail, rfl⟩ | ⟨a, m, t₁, t₂, hfirst, hrest, rfl⟩
  · exact .inl ⟨observed_silent hx hfail, e, rfl⟩
  · refine .inr ⟨a, m, t₂, hrest, ?_⟩
    rw [observed_append, observed_silent hx hfirst, List.nil_append]

-- ---------------------------------------------------------------------------
-- Before the decision
-- ---------------------------------------------------------------------------

theorem clientGroups_observed {r : Except String (List String)}
    (h : Exec W (clientGroups stream).run s tr r s') :
    (observed tr = [] ∧ ∃ e, r = .error e) ∨
      ∃ groups, observed tr = [.groups groups] ∧ r = .ok groups := by
  unfold clientGroups at h
  rcases exec_silent_bind (uses_perform trivial) h with hend | ⟨_, _, t₁, h₁, hobs₁⟩
  · exact .inl hend
  rcases exec_silent_bind (uses_perform trivial) h₁ with hend | ⟨cred, _, t₂, h₂, hobs₂⟩
  · exact .inl (hobs₁ ▸ hend)
  obtain ⟨_, t₃, -, h₃, rfl⟩ := exec_log_bind h₂
  have hobs₃ : observed tr = observed t₃ := hobs₁.trans hobs₂
  have hlookup : (getUserGroups cred.uid).run.Uses Op.Silent :=
    uses_mono (fun _ => Op.Lookup.silent) uses_getUserGroups
  rcases exec_silent_bind hlookup h₃ with hend | ⟨groups, _, t₄, h₄, hobs₄⟩
  · exact .inl (hobs₃ ▸ hend)
  obtain ⟨_, t₅, -, h₅, rfl⟩ := exec_log_bind h₄
  obtain ⟨rfl, rfl, -⟩ := exec_run_pure.mp h₅
  exact .inr ⟨groups, hobs₃.trans hobs₄, rfl⟩

theorem readRequest_observed {r : Except String (Option Request)}
    (h : Exec W (readRequest stream).run s tr r s') :
    (observed tr = [] ∧ ∀ request, r ≠ .ok (some request)) ∨
      ∃ request, observed tr = [.decoded request] ∧ r = .ok (some request) := by
  unfold readRequest at h
  rcases exec_silent_bind (uses_perform trivial) h with ⟨hobs, e, rfl⟩ | ⟨_, _, t₁, h₁, hobs₁⟩
  · exact .inl ⟨hobs, by simp⟩
  rcases exec_silent_bind (uses_perform trivial) h₁ with ⟨hobs, e, rfl⟩ | ⟨_, _, t₂, h₂, hobs₂⟩
  · exact .inl ⟨hobs₁.trans hobs, by simp⟩
  rcases exec_silent_bind (uses_perform trivial) h₂ with ⟨hobs, e, rfl⟩ | ⟨buf, _, t₃, h₃, hobs₃⟩
  · exact .inl ⟨hobs₁.trans (hobs₂.trans hobs), by simp⟩
  have hobs : observed tr = observed t₃ := hobs₁.trans (hobs₂.trans hobs₃)
  split at h₃
  · obtain ⟨rfl, rfl, -⟩ := exec_run_pure.mp h₃
    exact .inl ⟨hobs, by simp⟩
  · rcases exec_run_bind.mp h₃ with ⟨e, hdec, rfl⟩ | ⟨request, _, _, _, hdec, h₄, rfl⟩
    · obtain ⟨-, rfl⟩ := exec_issue.mp hdec
      exact .inl ⟨hobs, by simp⟩
    · obtain ⟨-, rfl⟩ := exec_issue.mp hdec
      obtain ⟨_, _, -, h₅, rfl⟩ := exec_log_bind h₄
      obtain ⟨rfl, rfl, -⟩ := exec_run_pure.mp h₅
      exact .inr ⟨request, hobs, rfl⟩

-- ---------------------------------------------------------------------------
-- The decision
-- ---------------------------------------------------------------------------

/-- A `CreateMap` of a type `create_bpf_map` has a number for. -/
def Supported : Request → Prop
  | .createMap mapType .. => (createMapTypes.lookup mapType).isSome = true
  | _ => False

/-- `BPF_MAP_CREATE` with the request's type and sizes. -/
def IssuedFor (request : Request) (call : BpfCall) : Prop :=
  match request with
  | .createMap mapType _ keySize valueSize maxEntries =>
    call.cmd = 0 ∧ mapTypeToBit mapType = some call.attr.mapType ∧ call.attr.keySize = keySize ∧
      call.attr.valueSize = valueSize ∧ call.attr.maxEntries = maxEntries
  | _ => False

theorem mapTypeToBit_of_create (h : createMapTypes.lookup mapType = some n) :
    mapTypeToBit mapType = some n := by
  have hrows : ∀ row ∈ createMapTypes, mapTypeToBit row.1 = some row.2 := by decide
  obtain ⟨before, after, hsplit, -⟩ := List.lookup_eq_some_iff.mp h
  exact hrows (mapType, n) (by simp [hsplit])

/-- How `execute_bpf` ends: without a call, or with the outcome of one. -/
inductive Executes (request : Request) : List BpfCall → Except String RawFd → Prop
  | unsupported {e} : ¬ Supported request → Executes request [] (.error e)
  | created {call} : Supported request → IssuedFor request call → 0 ≤ call.result →
      Executes request [call] (.ok call.result.toInt32)
  | failed {call reason} : Supported request → IssuedFor request call → call.result < 0 →
      Executes request [call] (.error ("BPF_MAP_CREATE failed: " ++ reason))

section
variable {calls : List BpfCall} {r : Except String RawFd}

theorem Executes.length_le (h : Executes request calls r) : calls.length ≤ 1 := by
  cases h <;> simp

theorem Executes.calls_iff (h : Executes request calls r) : calls ≠ [] ↔ Supported request := by
  cases h with
  | unsupported hun => simp [hun]
  | created hsup => simp [hsup]
  | failed hsup => simp [hsup]

theorem Executes.issuedFor (h : Executes request calls r) : ∀ call ∈ calls, IssuedFor request call := by
  cases h with
  | unsupported => simp
  | created _ hcall => simpa using hcall
  | failed _ hcall => simpa using hcall

theorem Executes.ok_iff (h : Executes request calls r) :
    (∃ fd, r = .ok fd) ↔ ∃ call ∈ calls, 0 ≤ call.result := by
  cases h with
  | unsupported => simp
  | created _ _ hres => simp [hres]
  | failed _ _ hres => simp [Int64.not_le.mpr hres]

end

theorem createBpfMap_observed {r : Except String RawFd}
    (h : Exec W (createBpfMap mapType name keySize valueSize maxEntries).run s tr r s') :
    ∃ calls, Executes (.createMap mapType name keySize valueSize maxEntries) calls r ∧
      observed tr = calls.map .call := by
  unfold createBpfMap at h
  cases hnum : createMapTypes.lookup mapType with
  | none =>
    simp only [hnum] at h
    obtain ⟨rfl, rfl, -⟩ := exec_run_throw.mp h
    exact ⟨[], .unsupported (by simp [Supported, hnum]), rfl⟩
  | some n =>
    simp only [hnum] at h
    have hsupported : Supported (.createMap mapType name keySize valueSize maxEntries) := by
      simp [Supported, hnum]
    obtain ⟨fd, _, t, -, h₁, rfl⟩ := exec_ask_bind h
    by_cases hneg : fd < 0
    · rw [if_pos hneg] at h₁
      obtain ⟨reason, _, _, -, h₂, rfl⟩ := exec_ask_bind h₁
      obtain ⟨rfl, rfl, -⟩ := exec_run_throw.mp h₂
      exact ⟨[⟨0, _, bpfAttrSize, fd⟩], .failed hsupported
        ⟨rfl, mapTypeToBit_of_create hnum, rfl, rfl, rfl⟩ hneg, rfl⟩
    · rw [if_neg hneg] at h₁
      obtain ⟨rfl, rfl, -⟩ := exec_run_pure.mp h₁
      exact ⟨[⟨0, _, bpfAttrSize, fd⟩], .created hsupported
        ⟨rfl, mapTypeToBit_of_create hnum, rfl, rfl, rfl⟩ (Int64.not_lt.mp hneg), rfl⟩

theorem executeBpf_observed {r : Except String RawFd}
    (h : Exec W (executeBpf request).run s tr r s') :
    ∃ calls, Executes request calls r ∧ observed tr = calls.map .call := by
  cases request with
  | createMap => exact createBpfMap_observed h
  | loadProgram =>
    obtain ⟨rfl, rfl, -⟩ := exec_run_throw.mp h
    exact ⟨[], .unsupported id, rfl⟩
  | attach =>
    obtain ⟨rfl, rfl, -⟩ := exec_run_throw.mp h
    exact ⟨[], .unsupported id, rfl⟩

/-- The response to an outcome of `execute_bpf`. -/
def executed : Except String RawFd → Response
  | .ok fd => .success (some fd)
  | .error e => .error e

section
variable (printable : Char → Bool) (policy : Policy)

inductive Responds (role : Option String) (request : Request) : List BpfCall → Response → Prop
  | noRole : role = none → Responds role request [] (.denied "User not in any BPF RBAC group")
  | notAllowed {roleName} : role = some roleName → policy.isAllowed roleName request = false →
      Responds role request []
        (.denied ("Role '" ++ roleName ++ "' not allowed for " ++ request.debug printable))
  | succeeded {roleName calls fd} : role = some roleName → policy.isAllowed roleName request = true →
      Executes request calls (.ok fd) → Responds role request calls (.success (some fd))
  | failed {roleName calls e} : role = some roleName → policy.isAllowed roleName request = true →
      Executes request calls (.error e) → Responds role request calls (.error e)

variable {printable policy}

theorem respond_observed {role : Option String} {response : Response}
    (h : Exec W (respond printable policy role request) s tr response s') :
    ∃ calls, Responds printable policy role request calls response ∧
      observed tr = calls.map .call := by
  cases role with
  | none =>
    obtain ⟨rfl, rfl, -⟩ := exec_pure.mp h
    exact ⟨[], .noRole rfl, rfl⟩
  | some roleName =>
    unfold respond at h
    cases hallowed : policy.isAllowed roleName request with
    | false =>
      simp only [hallowed, Bool.false_eq_true, if_false] at h
      obtain ⟨rfl, rfl⟩ := exec_log_pure h
      exact ⟨[], .notAllowed rfl hallowed, rfl⟩
    | true =>
      simp only [hallowed, if_true] at h
      obtain ⟨r, _, t₁, t₂, hexec, h₁, rfl⟩ := exec_bind.mp h
      obtain ⟨calls, hcalls, hobs⟩ := executeBpf_observed hexec
      rw [observed_append, hobs]
      cases r with
      | ok fd =>
        obtain ⟨rfl, rfl⟩ := exec_log_pure h₁
        exact ⟨calls, .succeeded rfl hallowed hcalls, List.append_nil _⟩
      | error e =>
        obtain ⟨rfl, rfl⟩ := exec_log_pure h₁
        exact ⟨calls, .failed rfl hallowed hcalls, List.append_nil _⟩

-- ---------------------------------------------------------------------------
-- The whole conversation
-- ---------------------------------------------------------------------------

/-- The response is serialized and sent; only the first can be seen. -/
theorem serialize_then {send : List UInt8 → DaemonM Unit} {r : Except String Unit}
    (hsend : ∀ bytes, (send bytes).run.Uses Op.Silent)
    (h : Exec W (orFail (issue (.serialize response)) >>= send).run s tr r s') :
    observed tr = [.built response] := by
  rcases exec_run_bind.mp h with ⟨e, hfail, -⟩ | ⟨bytes, _, _, t, hser, hrest, rfl⟩
  · obtain ⟨-, rfl⟩ := exec_issue.mp hfail
    rfl
  · obtain ⟨-, rfl⟩ := exec_issue.mp hser
    rw [observed_append, observed_silent (hsend bytes) hrest]
    rfl

theorem sendResponse_observed {r : Except String Unit}
    (h : Exec W (sendResponse stream response).run s tr r s') : observed tr = [.built response] := by
  cases response with
  | success fd =>
    cases fd with
    | none => exact serialize_then (fun _ => uses_perform trivial) h
    | some fd =>
      exact serialize_then (fun _ => uses_run_bind (uses_perform trivial) fun _ => uses_pure) h
  | denied => exact serialize_then (fun _ => uses_perform trivial) h
  | error => exact serialize_then (fun _ => uses_perform trivial) h

variable (printable policy) in
/-- The ways a conversation can go: the peer stays unknown, no request comes
in, or one does and is answered. -/
inductive Converses (stream : RawFd) :
    W.State → List (Event W) → Except String Unit → W.State → Prop
  | unidentified {s s' : W.State} {tr : List (Event W)} {e : String} :
      Exec W (clientGroups stream).run s tr (.error e) s' → Converses stream s tr (.error e) s'
  | unread {s s₁ s₂ s' : W.State} {t₁ t₂ : List (Event W)} {groups : List String}
      {read : Except String (Option Request)} {r : Except String Unit} :
      Exec W (clientGroups stream).run s t₁ (.ok groups) s₁ →
      W.answer s₁ (.log (.clientRole (policy.getRoleForGroups groups))) () s₂ →
      Exec W (readRequest stream).run s₂ t₂ read s' → (∀ request, read ≠ .ok (some request)) →
      Converses stream s (t₁ ++ ⟨s₁, .log (.clientRole (policy.getRoleForGroups groups)), ()⟩ :: t₂) r s'
  | answered {s s₁ s₂ s₃ s₄ s' : W.State} {t₁ t₂ t₃ t₄ : List (Event W)} {groups : List String}
      {request : Request} {response : Response} {r : Except String Unit} :
      Exec W (clientGroups stream).run s t₁ (.ok groups) s₁ →
      W.answer s₁ (.log (.clientRole (policy.getRoleForGroups groups))) () s₂ →
      Exec W (readRequest stream).run s₂ t₂ (.ok (some request)) s₃ →
      Exec W (respond printable policy (policy.getRoleForGroups groups) request) s₃ t₃ response s₄ →
      Exec W (sendResponse stream response).run s₄ t₄ r s' →
      Converses stream s (t₁ ++ ⟨s₁, .log (.clientRole (policy.getRoleForGroups groups)), ()⟩ ::
        (t₂ ++ (t₃ ++ t₄))) r s'

theorem converse_ok {r : Except String Unit}
    (h : Exec W (converse printable policy stream).run s tr r s') :
    Converses printable policy stream s tr r s' := by
  unfold converse at h
  rcases exec_run_bind.mp h with ⟨e, hgroups, rfl⟩ | ⟨groups, s₁, t₁, _, hgroups, h₁, rfl⟩
  · exact .unidentified hgroups
  obtain ⟨s₂, _, hlog, h₂, rfl⟩ := exec_log_bind h₁
  rcases exec_run_bind.mp h₂ with ⟨e, hread, rfl⟩ | ⟨read, s₃, t₂, _, hread, h₃, rfl⟩
  · exact .unread hgroups hlog hread (by simp)
  cases read with
  | none =>
    obtain ⟨rfl, -, rfl⟩ := exec_run_pure.mp h₃
    rw [List.append_nil]
    exact .unread hgroups hlog hread (by simp)
  | some request =>
    rcases exec_run_bind.mp h₃ with ⟨e, hfail, -⟩ | ⟨response, s₄, t₃, t₄, hlift, hsend, rfl⟩
    · obtain ⟨_, -, he⟩ := exec_run_lift.mp hfail
      cases he
    · obtain ⟨_, hrespond, hresponse⟩ := exec_run_lift.mp hlift
      cases hresponse
      exact .answered hgroups hlog hread hrespond hsend

theorem handleClient_closes {r : Except String Unit}
    (h : Exec W (handleClient printable policy stream) s tr r s') :
    ∃ m t, Exec W (converse printable policy stream).run s t r m ∧ W.answer m (.close stream) () s' ∧
      tr = t ++ [⟨m, .close stream, ()⟩] := by
  obtain ⟨_, m, t, _, hconverse, hclose, rfl⟩ := exec_bind.mp h
  obtain ⟨_, _, _, _, hdrop, hret, rfl⟩ := exec_bind.mp hclose
  obtain ⟨hanswer, rfl⟩ := exec_issue.mp hdrop
  obtain ⟨rfl, rfl, rfl⟩ := exec_pure.mp hret
  exact ⟨m, t, hconverse, hanswer, rfl⟩

theorem handleClient_parts {r : Except String Unit}
    (h : Exec W (handleClient printable policy stream) s tr r s') :
    ∃ m t, Converses printable policy stream s t r m ∧ W.answer m (.close stream) () s' ∧
      tr = t ++ [⟨m, .close stream, ()⟩] := by
  obtain ⟨m, t, hconverse, hclose, rfl⟩ := handleClient_closes h
  exact ⟨m, t, converse_ok hconverse, hclose, rfl⟩

/-- `get_user_groups` was called for the user at the other end and returned the groups. -/
def PeerGroups (stream : RawFd) (groups : List String) (tr : List (Event W)) : Prop :=
  ∃ before t after cred m m', tr = before ++ (t ++ after) ∧
    (∃ s, (⟨s, .peerCredentials stream, .ok cred⟩ : Event W) ∈ before) ∧
    Exec W (getUserGroups cred.uid).run m t (.ok groups) m'

theorem PeerGroups.append {groups : List String} {t : List (Event W)} (h : PeerGroups stream groups tr) :
    PeerGroups stream groups (tr ++ t) := by
  obtain ⟨before, lookups, after, cred, m, m', rfl, hcred, hrun⟩ := h
  refine ⟨before, lookups, after ++ t, cred, m, m', ?_, hcred, hrun⟩
  simp only [List.append_assoc]

theorem clientGroups_peer {groups : List String}
    (h : Exec W (clientGroups stream).run s tr (.ok groups) s') : PeerGroups stream groups tr := by
  unfold clientGroups at h
  rcases exec_run_bind.mp h with ⟨_, -, he⟩ | ⟨_, m₀, t₁, _, _, h₁, rfl⟩
  · cases he
  rcases exec_run_bind.mp h₁ with ⟨_, -, he⟩ | ⟨cred, m, _, _, hpeer, h₂, rfl⟩
  · cases he
  obtain ⟨-, rfl⟩ := exec_issue.mp hpeer
  obtain ⟨m₁, _, -, h₃, rfl⟩ := exec_log_bind h₂
  rcases exec_run_bind.mp h₃ with ⟨_, -, he⟩ | ⟨groups', m₂, t₂, t₃, hgroups, h₄, rfl⟩
  · cases he
  obtain ⟨_, _, -, h₅, rfl⟩ := exec_log_bind h₄
  obtain ⟨-, heq, -⟩ := exec_run_pure.mp h₅
  cases heq
  let peer : List (Event W) :=
    [⟨m₀, .peerCredentials stream, .ok cred⟩, ⟨m, .log (.clientConnected cred.uid cred.pid), ()⟩]
  refine ⟨t₁ ++ peer, t₂, _, cred, m₁, m₂, (List.append_assoc t₁ peer _).symm, ⟨m₀, ?_⟩, hgroups⟩
  exact List.mem_append_right _ List.mem_cons_self

variable (printable policy) in
/-- What a run shows: nothing, the groups, or the groups, the request and how
it is answered. -/
inductive Conversation : List Observation → Prop
  | nothing : Conversation []
  | noRequest {groups} : Conversation [.groups groups]
  | answered {groups request calls response} :
      Responds printable policy (policy.getRoleForGroups groups) request calls response →
      Conversation (.groups groups :: .decoded request :: (calls.map .call ++ [.built response]))

theorem clientGroups_shows {groups : List String}
    (h : Exec W (clientGroups stream).run s tr (.ok groups) s') : observed tr = [.groups groups] := by
  rcases clientGroups_observed h with ⟨-, _, herr⟩ | ⟨_, hobs, hok⟩
  · cases herr
  · cases hok; exact hobs

theorem readRequest_shows {request : Request}
    (h : Exec W (readRequest stream).run s tr (.ok (some request)) s') :
    observed tr = [.decoded request] := by
  rcases readRequest_observed h with ⟨-, hnone⟩ | ⟨_, hobs, hok⟩
  · exact absurd rfl (hnone request)
  · cases hok; exact hobs

theorem unread_observed {s₁ s₂ : W.State} {t₁ t₂ : List (Event W)} {groups : List String}
    {read : Except String (Option Request)} (hgroups : Exec W (clientGroups stream).run s t₁ (.ok groups) s₁)
    (hread : Exec W (readRequest stream).run s₂ t₂ read s')
    (hnone : ∀ request, read ≠ .ok (some request)) :
    observed (t₁ ++ ⟨s₁, .log (.clientRole role), ()⟩ :: t₂) = [.groups groups] := by
  rw [observed_append, clientGroups_shows hgroups, observed_cons_silent (by trivial)]
  rcases readRequest_observed hread with ⟨hobs, -⟩ | ⟨request, -, hok⟩
  · rw [hobs, List.append_nil]
  · exact absurd hok (hnone request)

theorem answered_observed {s₁ s₂ s₃ s₄ : W.State} {t₁ t₂ t₃ t₄ : List (Event W)} {groups : List String}
    {role : Option String} {request : Request} {response : Response} {r : Except String Unit}
    (hgroups : Exec W (clientGroups stream).run s t₁ (.ok groups) s₁)
    (hread : Exec W (readRequest stream).run s₂ t₂ (.ok (some request)) s₃)
    (hrespond : Exec W (respond printable policy role request) s₃ t₃ response s₄)
    (hsend : Exec W (sendResponse stream response).run s₄ t₄ r s') :
    ∃ calls, Responds printable policy role request calls response ∧
      observed (t₁ ++ ⟨s₁, .log (.clientRole role), ()⟩ :: (t₂ ++ (t₃ ++ t₄))) =
        .groups groups :: .decoded request :: (calls.map .call ++ [.built response]) := by
  obtain ⟨calls, hresponds, hcalls⟩ := respond_observed hrespond
  refine ⟨calls, hresponds, ?_⟩
  rw [observed_append, clientGroups_shows hgroups, observed_cons_silent (by trivial), observed_append,
    observed_append, readRequest_shows hread, hcalls, sendResponse_observed hsend]
  rfl

theorem Converses.observed {r : Except String Unit}
    (h : Converses printable policy stream s tr r s') :
    Conversation printable policy (observed tr) := by
  cases h with
  | unidentified hgroups =>
    rcases clientGroups_observed hgroups with ⟨hobs, -⟩ | ⟨_, -, hok⟩
    · exact hobs ▸ .nothing
    · cases hok
  | unread hgroups _ hread hnone =>
    rw [unread_observed hgroups hread hnone]
    exact .noRequest
  | answered hgroups _ hread hrespond hsend =>
    obtain ⟨calls, hresponds, hobs⟩ := answered_observed hgroups hread hrespond hsend
    rw [hobs]
    exact .answered hresponds

theorem observed_close {t : List (Event W)} :
    observed (t ++ [⟨s, .close stream, ()⟩]) = observed t := by
  rw [observed_append, observed_cons_silent (by trivial), observed_nil, List.append_nil]

theorem handleClient_observed {r : Except String Unit}
    (h : Exec W (handleClient printable policy stream) s tr r s') :
    Conversation printable policy (observed tr) := by
  obtain ⟨_, t, hconverse, -, rfl⟩ := handleClient_parts h
  rw [observed_close]
  exact hconverse.observed

section
variable {groups : List String} {request : Request} {calls : List BpfCall} {response : Response}

theorem Responds.length_le {role : Option String}
    (h : Responds printable policy role request calls response) : calls.length ≤ 1 := by
  cases h with
  | noRole => simp
  | notAllowed => simp
  | succeeded _ _ hexec => exact hexec.length_le
  | failed _ _ hexec => exact hexec.length_le

theorem Responds.issuedFor {role : Option String}
    (h : Responds printable policy role request calls response) :
    ∀ call ∈ calls, IssuedFor request call := by
  cases h with
  | noRole => simp
  | notAllowed => simp
  | succeeded _ _ hexec => exact hexec.issuedFor
  | failed _ _ hexec => exact hexec.issuedFor

def Refused (policy : Policy) (groups : List String) (request : Request) : Prop :=
  policy.getRoleForGroups groups = none ∨
    ∃ name, policy.getRoleForGroups groups = some name ∧ policy.isAllowed name request = false

theorem refused_iff : Refused policy groups request ↔ ¬ policy.Authorizes groups request := by
  unfold Refused Policy.Authorizes
  cases policy.getRoleForGroups groups <;> simp

theorem Responds.outcome
    (h : Responds printable policy (policy.getRoleForGroups groups) request calls response) :
    (¬ policy.Authorizes groups request ∧ calls = [] ∧ ∃ reason, response = .denied reason) ∨
      (policy.Authorizes groups request ∧ ∃ r, Executes request calls r ∧
        ((∃ fd, r = .ok fd ∧ response = .success (some fd)) ∨
          ∃ e, r = .error e ∧ response = .error e)) := by
  cases h with
  | noRole hrole => exact .inl ⟨refused_iff.mp (.inl hrole), rfl, _, rfl⟩
  | notAllowed hrole hno => exact .inl ⟨refused_iff.mp (.inr ⟨_, hrole, hno⟩), rfl, _, rfl⟩
  | succeeded hrole hyes hexec => exact .inr ⟨⟨_, hrole, hyes⟩, _, hexec, .inl ⟨_, rfl, rfl⟩⟩
  | failed hrole hyes hexec => exact .inr ⟨⟨_, hrole, hyes⟩, _, hexec, .inr ⟨_, rfl, rfl⟩⟩

end

def bpfCalls (tr : List (Event W)) : List BpfCall :=
  (observed tr).filterMap fun
    | .call call => some call
    | _ => none

theorem bpfCalls_append (t₁ t₂ : List (Event W)) :
    bpfCalls (t₁ ++ t₂) = bpfCalls t₁ ++ bpfCalls t₂ := by
  simp only [bpfCalls, observed_append, List.filterMap_append]

def responses (tr : List (Event W)) : List Response :=
  (observed tr).filterMap fun
    | .built response => some response
    | _ => none

/-- The groups that are seen are the peer's. -/
theorem handleClient_groups {r : Except String Unit} {groups : List String}
    (h : Exec W (handleClient printable policy stream) s tr r s') (hgroups : .groups groups ∈ observed tr) :
    PeerGroups stream groups tr := by
  obtain ⟨_, t, hconverse, -, rfl⟩ := handleClient_parts h
  rw [observed_close] at hgroups
  cases hconverse with
  | unidentified hclient =>
    rcases clientGroups_observed hclient with ⟨hobs, -⟩ | ⟨_, -, hok⟩
    · rw [hobs] at hgroups
      cases hgroups
    · cases hok
  | unread hclient _ hread hnone =>
    rw [unread_observed hclient hread hnone, List.mem_singleton] at hgroups
    cases hgroups
    exact (clientGroups_peer hclient).append.append
  | answered hclient _ hread hrespond hsend =>
    obtain ⟨calls, -, hobs⟩ := answered_observed hclient hread hrespond hsend
    rw [hobs] at hgroups
    simp only [List.mem_cons, List.mem_append, List.mem_map, Observation.groups.injEq] at hgroups
    obtain rfl := hgroups.resolve_right (by simp)
    exact (clientGroups_peer hclient).append.append

/-- A run decodes no request, calls nothing and responds nothing, or it answers
its one request for its one list of groups as `Responds` says. -/
theorem handleClient_ok {r : Except String Unit}
    (h : Exec W (handleClient printable policy stream) s tr r s') :
    ((∀ request, .decoded request ∉ observed tr) ∧ bpfCalls tr = [] ∧ responses tr = []) ∨
      ∃ groups request response, (∀ g, .groups g ∈ observed tr ↔ g = groups) ∧
        (∀ q, .decoded q ∈ observed tr ↔ q = request) ∧ responses tr = [response] ∧
        Responds printable policy (policy.getRoleForGroups groups) request (bpfCalls tr) response := by
  have hconv := handleClient_observed h
  unfold responses bpfCalls
  generalize observed tr = seen at hconv ⊢
  cases hconv with
  | nothing => exact .inl ⟨fun _ => List.not_mem_nil, rfl, rfl⟩
  | noRequest => exact .inl ⟨by simp, rfl, rfl⟩
  | @answered groups request calls response hresponds =>
    refine .inr ⟨groups, request, response, by simp, by simp, by simp [List.filterMap_map], ?_⟩
    simpa [List.filterMap_map, Function.comp_def] using hresponds

theorem handleClient_answers {r : Except String Unit} {groups : List String} {request : Request}
    (h : Exec W (handleClient printable policy stream) s tr r s')
    (hgroups : .groups groups ∈ observed tr) (hrequest : .decoded request ∈ observed tr) :
    ∃ response, responses tr = [response] ∧
      Responds printable policy (policy.getRoleForGroups groups) request (bpfCalls tr) response := by
  rcases handleClient_ok h with ⟨hnone, -⟩ | ⟨_, _, response, hg, hq, hbuilt, hresponds⟩
  · exact absurd hrequest (hnone request)
  · obtain rfl := (hg groups).mp hgroups
    obtain rfl := (hq request).mp hrequest
    exact ⟨response, hbuilt, hresponds⟩

/-- A request is decoded for a peer whose groups were found. -/
theorem handleClient_decoded {r : Except String Unit} {request : Request}
    (h : Exec W (handleClient printable policy stream) s tr r s') (hrequest : .decoded request ∈ observed tr) :
    ∃ groups, .groups groups ∈ observed tr := by
  rcases handleClient_ok h with ⟨hnone, -⟩ | ⟨groups, _, _, hg, -⟩
  · exact absurd hrequest (hnone request)
  · exact ⟨groups, (hg groups).mpr rfl⟩

/-- Behind every call stand an authorized group list and a supported request. -/
theorem handleClient_call {r : Except String Unit}
    (h : Exec W (handleClient printable policy stream) s tr r s') (hcall : call ∈ bpfCalls tr) :
    ∃ groups request, .groups groups ∈ observed tr ∧ .decoded request ∈ observed tr ∧
      policy.Authorizes groups request ∧ Supported request := by
  rcases handleClient_ok h with ⟨-, hnil, -⟩ | ⟨groups, request, _, hg, hq, -, hresponds⟩
  · exact absurd hcall (hnil ▸ List.not_mem_nil)
  · refine ⟨groups, request, (hg groups).mpr rfl, (hq request).mpr rfl, ?_⟩
    rcases hresponds.outcome with ⟨-, hnil, -⟩ | ⟨hyes, r, hexec, -⟩
    · exact absurd hcall (hnil ▸ List.not_mem_nil)
    · exact ⟨hyes, hexec.calls_iff.mp (List.ne_nil_of_mem hcall)⟩

theorem handleClient_response {r : Except String Unit} {response : Response}
    (h : Exec W (handleClient printable policy stream) s tr r s') (hresponse : response ∈ responses tr) :
    ∃ request, .decoded request ∈ observed tr := by
  rcases handleClient_ok h with ⟨-, -, hnil⟩ | ⟨_, request, _, -, hq, -⟩
  · exact absurd hresponse (hnil ▸ List.not_mem_nil)
  · exact ⟨request, (hq request).mpr rfl⟩

theorem handleClient_length_le {r : Except String Unit}
    (h : Exec W (handleClient printable policy stream) s tr r s') : (bpfCalls tr).length ≤ 1 := by
  rcases handleClient_ok h with ⟨-, hnil⟩ | ⟨_, _, _, -, -, -, hresponds⟩
  · simp [hnil]
  · exact hresponds.length_le

/-- Complete mediation: one `BPF_MAP_CREATE` at most, for the request that was
read, and only for a role of the peer's groups that may and a type that can.
The response, which only a request gets, tells which. -/
theorem complete_mediation {r : Except String Unit}
    (h : Exec W (handleClient printable policy stream) s tr r s') :
    (bpfCalls tr).length ≤ 1 ∧
    (∀ groups, .groups groups ∈ observed tr → PeerGroups stream groups tr) ∧
    (∀ request, .decoded request ∈ observed tr → ∃ groups, .groups groups ∈ observed tr) ∧
    (∀ call ∈ bpfCalls tr, ∃ groups request, .groups groups ∈ observed tr ∧ .decoded request ∈ observed tr ∧
      policy.Authorizes groups request ∧ Supported request) ∧
    (∀ response ∈ responses tr, ∃ request, .decoded request ∈ observed tr) ∧
    ∀ groups request, .groups groups ∈ observed tr → .decoded request ∈ observed tr →
      (bpfCalls tr ≠ [] ↔ policy.Authorizes groups request ∧ Supported request) ∧
      (∀ call ∈ bpfCalls tr, IssuedFor request call) ∧
      ∃ response, responses tr = [response] ∧
        ((∃ fd, response = .success (some fd)) ↔ ∃ call ∈ bpfCalls tr, 0 ≤ call.result) ∧
        ((∃ reason, response = .denied reason) ↔ Refused policy groups request) ∧
        ((∃ message, response = .error message) ↔
          ¬ Refused policy groups request ∧ ¬ ∃ call ∈ bpfCalls tr, 0 ≤ call.result) := by
  refine ⟨handleClient_length_le h, fun _ => handleClient_groups h, fun _ => handleClient_decoded h,
    fun _ => handleClient_call h, fun _ => handleClient_response h, ?_⟩
  intro groups request hgroups hrequest
  obtain ⟨response, hbuilt, hresponds⟩ := handleClient_answers h hgroups hrequest
  refine ⟨?_, hresponds.issuedFor, response, hbuilt, ?_⟩
  · rcases hresponds.outcome with ⟨hno, hnil, -⟩ | ⟨hyes, r, hexec, -⟩
    · simp [hno, hnil]
    · rw [hexec.calls_iff, and_iff_right hyes]
  · rcases hresponds.outcome with ⟨hno, hnil, reason, rfl⟩ | ⟨hyes, r, hexec, hr⟩
    · have hrefused := refused_iff.mpr hno
      simp [hnil, hrefused]
    · have hrefused : ¬ Refused policy groups request := fun h => refused_iff.mp h hyes
      rw [← hexec.ok_iff]
      rcases hr with ⟨fd, rfl, rfl⟩ | ⟨e, rfl, rfl⟩
      · simp [hrefused]
      · simp [hrefused]

end

def answering (answer : (op : Op) → Res op) : World Op Res where
  State := Unit
  answer _ op r _ := r = answer op

/-- A member of `ebpf` asks for a hash map and `bpf(2)` returns descriptor 7. -/
def hashMapClient : (op : Op) → Res op
  | .accept => .ok 5
  | .intoStd _ | .setNonblocking _ | .fromStd _ | .writeAll .. => .ok ()
  | .peerCredentials _ => .ok ⟨1000, 4242⟩
  | .userFromUid _ => .ok (some ⟨"tracer", 1000⟩)
  | .groupFromGid _ => .ok (some "ebpf")
  | .getgrouplist .. => .ok [1000]
  | .log _ | .close _ => ()
  | .read .. | .serialize _ => .ok [0]
  | .deserialize _ => .ok (.createMap "hash" "counters" 4 8 1024)
  | .bpf .. => 7
  | .lastOsError => "Success"
  | .sendmsg .. => .ok 1

def hashMapRequest : Request := .createMap "hash" "counters" 4 8 1024

def hashMapRun : List (Event (answering hashMapClient)) :=
  ((handleClient (fun _ => true) Policy.default 5).play (fun _ op => (hashMapClient op, ())) ()).1

theorem hash_map_mediated :
    (∃ call, bpfCalls hashMapRun = [call] ∧ IssuedFor hashMapRequest call ∧ call.result = 7) ∧
      ∃ response, responses hashMapRun = [response] ∧ ∃ fd, response = .success (some fd) := by
  have hrun := exec_play (W := answering hashMapClient) (fun _ op => (hashMapClient op, ()))
    (fun _ _ => rfl) (handleClient (fun _ => true) Policy.default 5) ()
  obtain ⟨-, -, -, -, -, hrequest⟩ := complete_mediation hrun
  obtain ⟨-, hissued, response, hbuilt, hsuccess, -⟩ := hrequest ["ebpf"] hashMapRequest List.mem_cons_self
    (List.mem_cons_of_mem _ List.mem_cons_self)
  constructor
  · exact ⟨_, rfl, hissued _ List.mem_cons_self, rfl⟩
  · exact ⟨response, hbuilt, hsuccess.mpr ⟨_, List.mem_cons_self, by decide⟩⟩

end BpfRbacd.Daemon
