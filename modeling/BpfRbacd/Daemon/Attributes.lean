import BpfRbacd.Daemon.Serving
import Mathlib.Data.List.TakeWhile

/-!
# What the kernel is given

A `bpf(2)` call carries a command, an attribute and its size. The request fixes
all three (`calls_determined`), and the attribute keeps all of the request but
the end of a long name (`same_attr_iff`).
-/

namespace BpfRbacd.Daemon

open Interaction

-- ---------------------------------------------------------------------------
-- The name
-- ---------------------------------------------------------------------------

def nameBytes (name : String) : List UInt8 := name.toUTF8.data.toList

/-- The name as the kernel reads it, up to the first zero byte. -/
def BpfAttr.name (attr : BpfAttr) : List UInt8 := attr.mapName.toList.takeWhile (· ≠ 0)

theorem mapNameBytes_getElem (name : String) (i : Nat) (hi : i < 16) :
    (mapNameBytes name)[i] = if i < 15 then (nameBytes name).getD i 0 else 0 := by
  simp only [mapNameBytes, Vector.getElem_ofFn, Nat.lt_min]
  split
  · next h => rw [if_pos h.2, nameBytes]
  · next h =>
    split
    · next hlt =>
      have hlength : (nameBytes name).length ≤ i := Nat.not_lt.mp fun hlong => h ⟨hlong, hlt⟩
      simp [hlength]
    · rfl

theorem mapNameBytes_eq_iff {name name' : String} :
    mapNameBytes name = mapNameBytes name' ↔
      ∀ i < 15, (nameBytes name).getD i 0 = (nameBytes name').getD i 0 := by
  constructor
  · intro h i hi
    have hbyte : (mapNameBytes name)[i] = (mapNameBytes name')[i] := by rw [h]
    simpa [mapNameBytes_getElem, hi] using hbyte
  · intro h
    apply Vector.ext
    intro i hi
    rw [mapNameBytes_getElem, mapNameBytes_getElem]
    split
    · next hlt => exact h i hlt
    · rfl

theorem mapNameBytes_toList (name : String) :
    (mapNameBytes name).toList =
      (nameBytes name).take 15 ++ List.replicate (16 - ((nameBytes name).take 15).length) 0 := by
  apply List.ext_getElem
  · simp
  · intro i hi hi'
    rw [Vector.length_toList] at hi
    rw [Vector.getElem_toList, mapNameBytes_getElem]
    by_cases hshort : i < ((nameBytes name).take 15).length
    · obtain ⟨hlt, hlength⟩ := Nat.lt_min.mp (List.length_take ▸ hshort)
      rw [List.getElem_append_left hshort, if_pos hlt, List.getElem_take]
      simp [hlength]
    · rw [List.getElem_append_right (Nat.not_lt.mp hshort), List.getElem_replicate]
      split
      · next hlt =>
        have hlength : (nameBytes name).length ≤ i := by
          rw [List.length_take, Nat.lt_min] at hshort
          exact Nat.not_lt.mp fun hlong => hshort ⟨hlt, hlong⟩
        simp [hlength]
      · rfl

theorem takeWhile_zeros (bytes : List UInt8) (k : Nat) :
    (bytes ++ List.replicate k 0).takeWhile (· ≠ 0) = bytes.takeWhile (· ≠ 0) := by
  induction bytes with
  | nil => cases k <;> simp [List.replicate]
  | cons b bytes ih => simp only [List.cons_append, List.takeWhile_cons, ih]

/-- The name arrives whole if it has at most fifteen bytes and none is zero. -/
theorem takeWhile_take_eq_iff {bytes : List UInt8} :
    (bytes.take 15).takeWhile (· ≠ 0) = bytes ↔ bytes.length ≤ 15 ∧ 0 ∉ bytes := by
  constructor
  · intro h
    have hlength : bytes.length ≤ 15 := by
      have hle := (List.takeWhile_prefix (p := (· ≠ 0)) (l := bytes.take 15)).length_le
      rw [h, List.length_take] at hle
      exact Nat.le_trans hle (Nat.min_le_left 15 _)
    rw [List.take_of_length_le hlength, List.takeWhile_eq_self_iff] at h
    exact ⟨hlength, fun hzero => by simpa using h 0 hzero⟩
  · rintro ⟨hlength, hzero⟩
    rw [List.take_of_length_le hlength, List.takeWhile_eq_self_iff]
    intro b hb
    simpa using ne_of_mem_of_not_mem hb hzero

-- ---------------------------------------------------------------------------
-- The attribute
-- ---------------------------------------------------------------------------

/-- The attribute of the call for a request, where there is one. -/
def createAttr : Request → Option BpfAttr
  | .createMap mapType name keySize valueSize maxEntries =>
    (createMapTypes.lookup mapType).map fun mapTypeNum =>
      ⟨mapTypeNum, keySize, valueSize, maxEntries, 0, 0, 0, mapNameBytes name, 0, 0, 0, 0, 0, 0⟩
  | _ => none

theorem createAttr_ok {request : Request} {attr : BpfAttr} (h : createAttr request = some attr) :
    ∃ mapType name keySize valueSize maxEntries mapTypeNum,
      request = .createMap mapType name keySize valueSize maxEntries ∧
        createMapTypes.lookup mapType = some mapTypeNum ∧
        attr = ⟨mapTypeNum, keySize, valueSize, maxEntries, 0, 0, 0, mapNameBytes name, 0, 0, 0, 0, 0, 0⟩ := by
  cases request with
  | createMap mapType name keySize valueSize maxEntries =>
    obtain ⟨mapTypeNum, hlookup, rfl⟩ := Option.map_eq_some_iff.mp h
    exact ⟨_, _, _, _, _, mapTypeNum, rfl, hlookup, rfl⟩
  | loadProgram | attach => cases h

theorem createAttr_name {mapType name : String} {keySize valueSize maxEntries : UInt32} {attr : BpfAttr}
    (h : createAttr (.createMap mapType name keySize valueSize maxEntries) = some attr) :
    attr.name = ((nameBytes name).take 15).takeWhile (· ≠ 0) := by
  obtain ⟨_, _, _, _, _, _, hrequest, -, rfl⟩ := createAttr_ok h
  cases hrequest
  rw [BpfAttr.name, mapNameBytes_toList, takeWhile_zeros]

theorem createMapTypes_inj {mapType mapType' : String} {n : UInt32} (h : createMapTypes.lookup mapType = some n)
    (h' : createMapTypes.lookup mapType' = some n) : mapType = mapType' := by
  have hrows : ∀ row ∈ createMapTypes, ∀ row' ∈ createMapTypes, row.2 = row'.2 → row.1 = row'.1 := by
    simp [createMapTypes]
  obtain ⟨before, after, hsplit, -⟩ := List.lookup_eq_some_iff.mp h
  obtain ⟨before', after', hsplit', -⟩ := List.lookup_eq_some_iff.mp h'
  exact hrows (mapType, n) (by simp [hsplit]) (mapType', n) (by simp [hsplit']) rfl

/-- Two requests make the same call if they differ in the name at most, and
there not in the first fifteen bytes, missing ones being zero. -/
theorem same_attr_iff {request request' : Request} {attr : BpfAttr} (h : createAttr request = some attr) :
    createAttr request' = some attr ↔ ∃ mapType name name' keySize valueSize maxEntries,
      request = .createMap mapType name keySize valueSize maxEntries ∧
        request' = .createMap mapType name' keySize valueSize maxEntries ∧
        ∀ i < 15, (nameBytes name).getD i 0 = (nameBytes name').getD i 0 := by
  obtain ⟨mapType, name, keySize, valueSize, maxEntries, n, rfl, hlookup, rfl⟩ := createAttr_ok h
  constructor
  · intro h'
    obtain ⟨mapType', name', _, _, _, n', rfl, hlookup', hattr⟩ := createAttr_ok h'
    injection hattr with hnum hkeySize hvalueSize hmaxEntries _ _ _ hname
    subst hnum hkeySize hvalueSize hmaxEntries
    obtain rfl := createMapTypes_inj hlookup hlookup'
    exact ⟨_, name, name', _, _, _, rfl, rfl, mapNameBytes_eq_iff.mp hname⟩
  · rintro ⟨_, _, name', _, _, _, ⟨⟩, rfl, hbytes⟩
    rw [← h, createAttr, createAttr, mapNameBytes_eq_iff.mpr hbytes]

theorem sixteenth_byte_lost :
    createAttr (.createMap "hash" "per_cpu_counter1" 4 8 16) =
      createAttr (.createMap "hash" "per_cpu_counter2" 4 8 16) := by
  have hattr : createAttr (.createMap "hash" "per_cpu_counter2" 4 8 16) =
      some ⟨1, 4, 8, 16, 0, 0, 0, mapNameBytes "per_cpu_counter2", 0, 0, 0, 0, 0, 0⟩ := rfl
  rw [hattr]
  exact (same_attr_iff hattr).mpr
    ⟨"hash", "per_cpu_counter2", "per_cpu_counter1", 4, 8, 16, rfl, rfl, by decide⟩

-- ---------------------------------------------------------------------------
-- The call
-- ---------------------------------------------------------------------------

/-- A `bpf(2)` call is `BPF_MAP_CREATE` with the attribute of the request. -/
def Op.CallsFor (request : Request) : Op → Prop
  | .bpf cmd attr size => cmd = 0 ∧ size = bpfAttrSize ∧ createAttr request = some attr
  | _ => True

section
variable {W : World Op Res} {s s' : W.State} {tr : List (Event W)} {printable : Char → Bool} {policy : Policy}
  {request : Request}

theorem observe_eq_call {e : Event W} {call : BpfCall} (h : observe e = some (.call call)) :
    ∃ m, e = ⟨m, .bpf call.cmd call.attr call.size, call.result⟩ := by
  obtain ⟨m, op, res⟩ := e
  cases op with
  | bpf =>
    cases h
    exact ⟨m, rfl⟩
  | log line => cases line <;> cases h
  | deserialize => cases res <;> cases h
  | _ => cases h

theorem exists_of_mem_bpfCalls {call : BpfCall} (h : call ∈ bpfCalls tr) :
    ∃ before m after, tr = before ++ ⟨m, .bpf call.cmd call.attr call.size, call.result⟩ :: after := by
  obtain ⟨o, ho, hcall⟩ := List.mem_filterMap.mp h
  cases o with
  | call call' =>
    cases hcall
    obtain ⟨e, he, hobserve⟩ := List.mem_filterMap.mp ho
    obtain ⟨m, rfl⟩ := observe_eq_call hobserve
    obtain ⟨before, after, rfl⟩ := List.append_of_mem he
    exact ⟨before, m, after, rfl⟩
  | groups | decoded | built => cases hcall

theorem createBpfMap_callsFor {mapType name : String} {keySize valueSize maxEntries : UInt32} :
    (createBpfMap mapType name keySize valueSize maxEntries).run.Uses
      (Op.CallsFor (.createMap mapType name keySize valueSize maxEntries)) := by
  unfold createBpfMap
  cases hlookup : createMapTypes.lookup mapType with
  | none => exact uses_pure
  | some n =>
    refine uses_run_bind (uses_ask ⟨rfl, rfl, ?_⟩) fun fd => ?_
    · simp [createAttr, hlookup]
    · split
      · exact uses_run_bind (uses_ask trivial) fun _ => uses_pure
      · exact uses_pure

theorem executeBpf_callsFor : (executeBpf request).run.Uses (Op.CallsFor request) := by
  cases request with
  | createMap => exact createBpfMap_callsFor
  | loadProgram => exact uses_pure
  | attach => exact uses_pure

theorem respond_callsFor (role : Option String) :
    (respond printable policy role request).Uses (Op.CallsFor request) := by
  cases role with
  | none => exact uses_pure
  | some roleName =>
    unfold respond
    simp only
    split
    · refine uses_bind executeBpf_callsFor fun r => ?_
      cases r <;> exact uses_bind (uses_perform trivial) fun _ => uses_pure
    · exact uses_bind (uses_perform trivial) fun _ => uses_pure

theorem Op.Sending.callsFor {op : Op} (h : op.Sending) : op.CallsFor request := by
  cases op with
  | bpf => exact absurd h id
  | _ => trivial

theorem Settles.callsFor {groups : List String} (h : Settles printable policy stream groups request tr) :
    ∀ e ∈ tr, e.op.CallsFor request := by
  cases h with
  | mk hrespond hsend =>
    simp only [List.forall_mem_append, List.forall_mem_singleton]
    refine ⟨exec_uses (respond_callsFor _) hrespond, fun e he => ?_, trivial⟩
    exact Op.Sending.callsFor (exec_uses (uses_sendResponse _) hsend e he)

theorem handleClient_callsFor {x : Event W} {before after : List (Event W)} {r : Except String Unit}
    (h : Exec W (handleClient printable policy stream) s (before ++ x :: after) r s')
    (hidentifying : ¬ x.op.Identifying) (hreading : ¬ x.op.Reading) (hclose : x.op ≠ .close stream) :
    ∃ request, ReadFrom stream request before ∧ x.op.CallsFor request := by
  obtain ⟨lead, between, groups, request, rfl, hheard, hsettles⟩ :=
    handleClient_late h hidentifying hreading hclose
  exact ⟨request, hheard.read.mono (List.subset_append_left _ _), hsettles.callsFor x (by simp)⟩

variable {start : W.State} {c : Threads W RawFd Unit}

/-- In every reachable state the client of a task chose what its call says: all
of the attribute that is not zero comes from a request read from the task's
stream. The name is cut at the fifteenth byte or the first zero. -/
theorem calls_determined (hreach : (daemon printable policy).Reaches W start c) :
    ∀ t ∈ c.tasks, ∀ history later cmd attr size result,
      t.history = history ++ reply (.bpf cmd attr size) result :: later →
      cmd = 0 ∧ size = bpfAttrSize ∧ ∃ mapType name keySize valueSize maxEntries,
        ReadFrom t.item (.createMap mapType name keySize valueSize maxEntries) history ∧
          createAttr (.createMap mapType name keySize valueSize maxEntries) = some attr ∧
          attr.name = ((nameBytes name).take 15).takeWhile (· ≠ 0) ∧
          (attr.name = nameBytes name ↔ (nameBytes name).length ≤ 15 ∧ 0 ∉ nameBytes name) := by
  intro t ht history later cmd attr size result hcall
  obtain ⟨rest, a, hrun⟩ := hreach.task ht
  rw [hcall, List.append_assoc, List.cons_append] at hrun
  obtain ⟨_, _, _, hclient⟩ := serveClient_before (fun line => Op.noConfusion) hrun
  obtain ⟨request, hread, hcmd, hsize, hattr⟩ := handleClient_callsFor hclient id id nofun
  obtain ⟨mapType, name, keySize, valueSize, maxEntries, _, rfl, -, -⟩ := createAttr_ok hattr
  have hname := createAttr_name hattr
  refine ⟨hcmd, hsize, mapType, name, keySize, valueSize, maxEntries, hread, hattr, hname, ?_⟩
  rw [hname]
  exact takeWhile_take_eq_iff

end

theorem tracer_call_determined : ∃ request, ReadFrom 5 request (tracerTask.history.take 14) ∧
    createAttr request = some countersAttr := by
  have hcall : tracerTask.history = tracerTask.history.take 14 ++
      reply (.bpf 0 countersAttr bpfAttrSize) 7 :: tracerTask.history.drop 15 := rfl
  obtain ⟨-, -, _, _, _, _, _, hread, hattr, -⟩ :=
    calls_determined tracerServed_reached tracerTask List.mem_cons_self _ _ _ _ _ _ hcall
  exact ⟨_, hread, hattr⟩

end BpfRbacd.Daemon
