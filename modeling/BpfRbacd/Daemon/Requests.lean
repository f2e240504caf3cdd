import BpfRbacd.Bincode
import BpfRbacd.Daemon.Mediation

/-!
# How a request arrives

The client's bytes reach the daemon as the reads its stream socket makes of
them. `handle_client` reads once, into 4096 bytes, and takes what it gets for
the whole request, so a request survives when that read returns all of it.
-/

namespace BpfRbacd.Daemon

open Interaction
open Coding (Codec)

/-- The reads `segments` are still to come. -/
def segmentEffect (codec : Codec Request) (segments : List (List UInt8)) :
    (op : Op) → Res op → List (List UInt8) → Prop
  | .read _ size, .ok bytes, segments' => bytes.length ≤ size ∧ segments = bytes :: segments'
  | .deserialize bytes, r, segments' => r = codec.deserialize bytes ∧ segments' = segments
  | _, _, segments' => segments' = segments

def segmentWorld (codec : Codec Request) : World Op Res where
  State := List (List UInt8)
  answer := segmentEffect codec

def Splits (bytes : List UInt8) (segments : List (List UInt8)) : Prop :=
  segments.flatten = bytes ∧ ∀ segment ∈ segments, segment ≠ []

instance (bytes : List UInt8) (segments : List (List UInt8)) : Decidable (Splits bytes segments) :=
  inferInstanceAs (Decidable (_ ∧ _))

variable {W : World Op Res} {s s' : W.State} {tr : List (Event W)}

/-- A read of the socket that returned. -/
def receives : Event W → Bool
  | ⟨_, .read .., .ok _⟩ => true
  | _ => false

def Received (tr : List (Event W)) : Prop := ∃ e ∈ tr, receives e = true

instance (tr : List (Event W)) : Decidable (Received tr) :=
  inferInstanceAs (Decidable (∃ e ∈ tr, receives e = true))

/-- The request is decoded, and what is decided and answered is about it. -/
def Proceeds (printable : Char → Bool) (policy : Policy) (tr : List (Event W)) (request : Request) : Prop :=
  .decoded request ∈ observed tr ∧ ∃ groups response, .groups groups ∈ observed tr ∧
    responses tr = [response] ∧
    Responds printable policy (policy.getRoleForGroups groups) request (bpfCalls tr) response

@[simp] theorem received_cons {e : Event W} : Received (e :: tr) ↔ receives e = true ∨ Received tr := by
  simp [Received]

@[simp] theorem received_append {t₁ t₂ : List (Event W)} :
    Received (t₁ ++ t₂) ↔ Received t₁ ∨ Received t₂ := by
  simp [Received, or_and_right, exists_or]

theorem not_received_of_identifying {p : Prog Op Res α} (hp : p.Uses Op.Identifying)
    (h : Exec W p s tr a s') : ¬ Received tr := by
  rintro ⟨⟨_, op, _⟩, he, hreceives⟩
  cases op with
  | read => exact exec_uses hp h _ he
  | _ => cases hreceives

theorem proceeds_iff {printable : Char → Bool} {policy : Policy} {r : Except String Unit}
    (h : Exec W (handleClient printable policy stream) s tr r s') :
    Proceeds printable policy tr request ↔ .decoded request ∈ observed tr := by
  constructor
  · intro hproceeds
    exact hproceeds.1
  · intro hrequest
    rcases handleClient_ok h with ⟨hnone, -⟩ | ⟨groups, _, response, hg, hq, hbuilt, hresponds⟩
    · exact absurd hrequest (hnone request)
    · obtain rfl := (hq request).mp hrequest
      exact ⟨hrequest, groups, response, (hg groups).mpr rfl, hbuilt, hresponds⟩

-- ---------------------------------------------------------------------------
-- One read
-- ---------------------------------------------------------------------------

section
variable {codec : Codec Request} {segments segments' : List (List UInt8)}
  {tr : List (Event (segmentWorld codec))}

theorem identifying_keeps {p : Prog Op Res α} (hp : p.Uses Op.Identifying)
    (h : Exec (segmentWorld codec) p segments tr a segments') : segments' = segments := by
  refine exec_keeps (fun s op r m hop hanswer => ?_) hp h
  cases op with
  | read => exact absurd hop id
  | deserialize => exact absurd hop id
  | _ => exact hanswer

/-- A read returns the first segment, which is decoded alone. -/
theorem readRequest_first {r : Except String (Option Request)}
    (h : Exec (segmentWorld codec) (readRequest stream).run segments tr r segments') :
    (¬ Received tr ∧ ∃ e, r = .error e) ∨
      ∃ bytes rest, segments = bytes :: rest ∧ bytes.length ≤ 4096 ∧
        (bytes ≠ [] → r = (codec.deserialize bytes).map some) := by
  unfold readRequest at h
  rcases exec_run_bind.mp h with ⟨e, hfail, rfl⟩ | ⟨_, _, _, _, hset, h₁, rfl⟩
  · obtain ⟨-, rfl⟩ := exec_issue.mp hfail
    exact .inl ⟨by simp [Received, receives], e, rfl⟩
  obtain ⟨rfl, rfl⟩ := exec_issue.mp hset
  rcases exec_run_bind.mp h₁ with ⟨e, hfail, rfl⟩ | ⟨_, _, _, _, hfrom, h₂, rfl⟩
  · obtain ⟨-, rfl⟩ := exec_issue.mp hfail
    exact .inl ⟨by simp [Received, receives], e, rfl⟩
  obtain ⟨rfl, rfl⟩ := exec_issue.mp hfrom
  rcases exec_run_bind.mp h₂ with ⟨e, hfail, rfl⟩ | ⟨bytes, rest, _, _, hread, h₃, rfl⟩
  · obtain ⟨-, rfl⟩ := exec_issue.mp hfail
    exact .inl ⟨by simp [Received, receives], e, rfl⟩
  obtain ⟨⟨hsize, hsegments⟩, rfl⟩ := exec_issue.mp hread
  refine .inr ⟨bytes, rest, hsegments, hsize, ?_⟩
  intro hne
  rw [if_neg (fun hlen => hne (List.length_eq_zero_iff.mp hlen))] at h₃
  rcases exec_run_bind.mp h₃ with ⟨e, hdec, rfl⟩ | ⟨request, _, _, _, hdec, h₄, rfl⟩
  · obtain ⟨⟨hcodec, -⟩, -⟩ := exec_issue.mp hdec
    rw [← hcodec]
    rfl
  · obtain ⟨⟨hcodec, -⟩, -⟩ := exec_issue.mp hdec
    obtain ⟨_, _, -, h₅, -⟩ := exec_log_bind h₄
    obtain ⟨-, rfl, -⟩ := exec_run_pure.mp h₅
    rw [← hcodec]
    rfl

variable {printable : Char → Bool} {policy : Policy} {request : Request}

theorem decoded_iff_first {r : Except String Unit}
    (h : Exec (segmentWorld codec) (handleClient printable policy stream) segments tr r segments')
    (hreceived : Received tr) (hne : ∀ segment ∈ segments, segment ≠ []) :
    ∃ bytes rest, segments = bytes :: rest ∧ bytes.length ≤ 4096 ∧
      ∀ request, .decoded request ∈ observed tr ↔ codec.deserialize bytes = .ok request := by
  obtain ⟨m, t, hconverses, -, rfl⟩ := handleClient_parts h
  have ht : Received t := by simpa [receives, Received] using hreceived
  rw [observed_close]
  cases hconverses with
  | unidentified hgroups => exact absurd ht (not_received_of_identifying uses_clientGroups hgroups)
  | @unread s₁ s₂ _ t₁ t₂ groups read _ hgroups hlog hread hnone =>
    have hkeeps : s₂ = segments := Eq.trans hlog (identifying_keeps uses_clientGroups hgroups)
    have ht₂ : Received t₂ := by
      simpa [receives, not_received_of_identifying uses_clientGroups hgroups] using ht
    rcases readRequest_first (hkeeps ▸ hread) with ⟨hnot, -⟩ | ⟨bytes, rest, hsegments, hsize, hdecode⟩
    · exact absurd ht₂ hnot
    refine ⟨bytes, rest, hsegments, hsize, fun request => ?_⟩
    have hdecoded := hdecode (hne bytes (by simp [hsegments]))
    have hundecoded : codec.deserialize bytes ≠ .ok request := by
      intro hok
      exact hnone request (by rw [hdecoded, hok]; rfl)
    rw [unread_observed hgroups hread hnone]
    simp [hundecoded]
  | @answered s₁ s₂ s₃ s₄ _ t₁ t₂ t₃ t₄ groups q response _ hgroups hlog hread hrespond hsend =>
    have hkeeps : s₂ = segments := Eq.trans hlog (identifying_keeps uses_clientGroups hgroups)
    rcases readRequest_first (hkeeps ▸ hread) with ⟨-, _, herr⟩ | ⟨bytes, rest, hsegments, hsize, hdecode⟩
    · cases herr
    refine ⟨bytes, rest, hsegments, hsize, fun request => ?_⟩
    have hdecoded := hdecode (hne bytes (by simp [hsegments]))
    have hq : codec.deserialize bytes = .ok q := by
      cases hok : codec.deserialize bytes with
      | error e => rw [hok] at hdecoded; cases hdecoded
      | ok q' => rw [hok] at hdecoded; cases hdecoded; rfl
    obtain ⟨calls, -, hobs⟩ := answered_observed hgroups hread hrespond hsend
    rw [hobs, hq]
    simp [eq_comm]

/-- Of a split encoding, the first read decodes to the request only if it is
all of it. -/
theorem first_decodes_iff {bytes : List UInt8} {rest : List (List UInt8)}
    (hsplit : Splits (codec.serialize request) (bytes :: rest)) :
    codec.deserialize bytes = .ok request ↔ bytes :: rest = [codec.serialize request] := by
  obtain ⟨hflat, hne⟩ := hsplit
  have hpre : bytes <+: codec.serialize request := ⟨rest.flatten, hflat⟩
  constructor
  · intro hok
    have hall : bytes = codec.serialize request := by
      by_contra hshort
      obtain ⟨e, he⟩ := codec.deserialize_short request bytes hpre hshort
      rw [hok] at he
      cases he
    have hrest : rest = [] := by
      rw [← hall, List.flatten_cons, List.append_right_eq_self] at hflat
      cases rest with
      | nil => rfl
      | cons segment rest =>
        have hnil := List.flatten_eq_nil_iff.mp hflat segment List.mem_cons_self
        exact absurd hnil (hne segment (by simp))
    rw [hall, hrest]
  · rintro h
    obtain ⟨rfl, -⟩ := List.cons.inj h
    exact codec.deserialize_serialize request

/-- A request survives exactly when the one read returns all of it. -/
theorem request_survives_iff {r : Except String Unit}
    (hsplit : Splits (codec.serialize request) segments)
    (h : Exec (segmentWorld codec) (handleClient printable policy stream) segments tr r segments')
    (hreceived : Received tr) :
    Proceeds printable policy tr request ↔
      (codec.serialize request).length ≤ 4096 ∧ segments = [codec.serialize request] := by
  obtain ⟨bytes, rest, rfl, hsize, hdecoded⟩ := decoded_iff_first h hreceived hsplit.2
  rw [proceeds_iff h, hdecoded request, first_decodes_iff hsplit]
  constructor
  · intro hall
    obtain ⟨rfl, -⟩ := List.cons.inj hall
    exact ⟨hsize, hall⟩
  · rintro ⟨-, hall⟩
    exact hall

end

-- ---------------------------------------------------------------------------
-- A request in one read, and in two
-- ---------------------------------------------------------------------------

/-- `hashMapClient` on a socket with these reads. -/
def deliver (segments : List (List UInt8)) : (op : Op) → Res op × List (List UInt8)
  | .read _ size =>
    match segments with
    | segment :: rest =>
      if segment.length ≤ size then (.ok segment, rest) else (.error "Interrupted system call", segments)
    | [] => (.error "Resource temporarily unavailable", segments)
  | .deserialize bytes => (bincode.request.deserialize bytes, segments)
  | op => (hashMapClient op, segments)

theorem deliver_effect (segments : List (List UInt8)) (op : Op) :
    segmentEffect bincode.request segments op (deliver segments op).1 (deliver segments op).2 := by
  cases op with
  | read stream size =>
    cases segments with
    | nil => rfl
    | cons segment rest =>
      by_cases hsize : segment.length ≤ size
      · simp [deliver, segmentEffect, hsize]
      · simp [deliver, segmentEffect, hsize]
  | deserialize bytes => exact ⟨rfl, rfl⟩
  | _ => rfl

def hashMapBytes : List UInt8 := bincode.request.serialize hashMapRequest

def deliveredRun (segments : List (List UInt8)) :
    List (Event (segmentWorld bincode.request)) × Except String Unit × List (List UInt8) :=
  (handleClient (fun _ => true) Policy.default 5).play deliver segments

theorem exec_deliveredRun (segments : List (List UInt8)) :
    Exec (segmentWorld bincode.request) (handleClient (fun _ => true) Policy.default 5) segments
      (deliveredRun segments).1 (deliveredRun segments).2.1 (deliveredRun segments).2.2 :=
  exec_play (W := segmentWorld bincode.request) deliver deliver_effect _ segments

theorem whole_request_survives :
    Proceeds (fun _ => true) Policy.default (deliveredRun [hashMapBytes]).1 hashMapRequest :=
  (request_survives_iff (by decide) (exec_deliveredRun _) (by decide)).mpr ⟨by decide, rfl⟩

theorem split_request_lost :
    ∃ segments tr r segments', Splits hashMapBytes segments ∧
      Exec (segmentWorld bincode.request) (handleClient (fun _ => true) Policy.default 5) segments
        tr r segments' ∧
      Received tr ∧ ¬ Proceeds (fun _ => true) Policy.default tr hashMapRequest := by
  refine ⟨[hashMapBytes.take 1, hashMapBytes.drop 1], _, _, _, ?_, exec_deliveredRun _, ?_, ?_⟩
  · decide
  · decide
  · rw [proceeds_iff (exec_deliveredRun _)]
    have hseen : observed (deliveredRun [hashMapBytes.take 1, hashMapBytes.drop 1]).1 =
        [.groups ["ebpf"]] := rfl
    rw [hseen]
    simp

end BpfRbacd.Daemon
