import BpfRbacd.Lib.Outcome
import BpfRbacd.Daemon.Accounting
import Mathlib.Data.Finset.Card
import Mathlib.Algebra.Order.BigOperators.Group.List
import Mathlib.Algebra.Order.Group.Multiset
import Mathlib.Algebra.Order.Group.Nat

/-!
# How many maps the daemon can make

A process may have so many descriptors open and no more. The daemon keeps one
for each map it has ever made, so their number is bounded for its whole
lifetime. A map is made while the stream of its connection is open, which takes
one off the bound. Up to there the clients can always get, and then no client
gets a map again (`lifetime_maps`).
-/

namespace BpfRbacd.Daemon

open Interaction

/-- At most `limit` descriptors are open. -/
def limitedWorld (limit : Nat) : World Op Res where
  State := Finset RawFd
  answer fds op r fds' := descriptorEffect fds op r fds' ∧ fds'.card ≤ limit

/-- The maps the tasks have made. -/
def mapCount {W : World Op Res} (c : Threads W RawFd Unit) : Nat :=
  (c.tasks.map fun t => (mapsMade t.history).length).sum

variable {printable : Char → Bool} {policy : Policy} {limit : Nat} {base fds : Finset RawFd}

-- ---------------------------------------------------------------------------
-- No more than that
-- ---------------------------------------------------------------------------

theorem card_held (t : Task Op Res RawFd Unit) :
    Multiset.card (held t) = (if dropped t.history then 0 else 1) + (mapsMade t.history).length := by
  cases hdropped : dropped t.history <;> simp [held, hdropped, Nat.add_comm]

theorem Accounted.card {c : Threads descriptorWorld RawFd Unit} (h : Accounted base c) :
    Finset.card c.world = base.card + (accepted c.heard).length +
      (c.tasks.map fun t => Multiset.card (held t)).sum := by
  have hsum : Multiset.card (c.tasks.map held).sum = (c.tasks.map fun t => Multiset.card (held t)).sum := by
    rw [← Multiset.cardHom_apply, map_list_sum, List.map_map]
    rfl
  rw [← hsum]
  show Multiset.card (Finset.val c.world) = _
  rw [h]
  simp

/-- While a task has its stream, that is one more. -/
theorem Accounted.lt_card {c : Threads descriptorWorld RawFd Unit} (h : Accounted base c)
    {t : Task Op Res RawFd Unit} (ht : t ∈ c.tasks) (hopen : dropped t.history = false) :
    base.card + mapCount c < Finset.card c.world := by
  have hless : mapCount c < (c.tasks.map fun t => Multiset.card (held t)).sum := by
    apply List.sum_lt_sum
    · intro u _
      rw [card_held]
      exact Nat.le_add_left ..
    · refine ⟨t, ht, ?_⟩
      rw [card_held, hopen]
      exact Nat.lt_add_of_pos_left Nat.one_pos
  rw [h.card]
  omega

theorem limited_accounted {c : Threads (limitedWorld limit) RawFd Unit}
    (hreach : (daemon printable policy).Reaches (limitedWorld limit) base c) :
    Accounted base (⟨c.world, c.heard, c.loop, c.tasks⟩ : Threads descriptorWorld RawFd Unit) := by
  have hallows : ∀ (fds : (limitedWorld limit).State) op r fds', (limitedWorld limit).answer fds op r fds' →
      descriptorWorld.answer fds op r fds' := fun _ _ _ _ hanswer => hanswer.1
  exact reach_accounted (hreach.into hallows)

/-- A step makes no map, or it makes one with the task's stream open. -/
theorem mapCount_step {c c' : Threads (limitedWorld limit) RawFd Unit}
    (hstep : (daemon printable policy).Step (limitedWorld limit) c c')
    (htraced : (daemon printable policy).Traced (limitedWorld limit) c) :
    mapCount c' = mapCount c ∨ (mapCount c ≤ mapCount c' ∧ Finset.card c'.world ≤ limit ∧
      ∃ t ∈ c'.tasks, dropped t.history = false) := by
  cases hstep with
  | loop | again => exact .inl rfl
  | start => exact .inl (by simp [mapCount, mapsMade, bpfCalls])
  | @task _ _ _ _ before item origin history op next r after hanswer =>
    have hpath : Path (serveClient printable policy item) history (.call op next) :=
      htraced.history ⟨item, origin, history, .call op next⟩ (by simp)
    rcases hpath.once serveClient_once with ⟨⟨hop, -⟩ | ⟨rfl, -⟩, hwithin⟩ | ⟨⟨hop, -⟩, -⟩
    · have hopen : dropped (history ++ [reply op r]) = false := by
        apply dropped_within
        exact List.forall_mem_append.mpr ⟨hwithin, List.forall_mem_singleton.mpr hop⟩
      refine .inr ⟨?_, hanswer.2, _, List.mem_append_right _ List.mem_cons_self, hopen⟩
      simp [mapCount]
    · exact .inl (by simp [mapCount])
    · cases op with
      | log line => exact .inl (by simp [mapCount])
      | _ => exact absurd hop id

theorem mapCount_mono {c c' : Threads (limitedWorld limit) RawFd Unit}
    (hreach : (daemon printable policy).Reaches (limitedWorld limit) base c)
    (hsteps : Relation.ReflTransGen ((daemon printable policy).Step (limitedWorld limit)) c c') :
    mapCount c ≤ mapCount c' := by
  induction hsteps with
  | refl => exact Nat.le_refl _
  | tail hsteps hlast ih =>
    have htraced := Service.reach_traced (hreach.trans hsteps)
    rcases mapCount_step hlast htraced with hsame | ⟨hle, -⟩
    · exact hsame ▸ ih
    · exact Nat.le_trans ih hle

theorem mapCount_bounded {c : Threads (limitedWorld limit) RawFd Unit}
    (hreach : (daemon printable policy).Reaches (limitedWorld limit) base c) :
    mapCount c = 0 ∨ base.card + mapCount c + 1 ≤ limit := by
  induction hreach with
  | refl => exact .inl rfl
  | @tail c c' hreach hlast ih =>
    rcases mapCount_step hlast (Service.reach_traced hreach) with hsame | ⟨-, hlimit, t, ht, hopen⟩
    · rwa [hsame]
    · have hreached : (daemon printable policy).Reaches (limitedWorld limit) base c' := hreach.tail hlast
      exact .inr (Nat.le_trans ((limited_accounted hreached).lt_card ht hopen) hlimit)

-- ---------------------------------------------------------------------------
-- One client served
-- ---------------------------------------------------------------------------

/-- A member of `group` who makes the request. -/
def memberClient (group : String) (request : Request) : (op : Op) → Res op
  | .groupFromGid _ => .ok (some group)
  | .getgrouplist .. => .ok []
  | .deserialize _ => .ok request
  | op => hashMapClient op

/-- Operations that leave the descriptors alone. -/
def Op.Still : Op → Prop
  | .accept | .bpf .. | .close _ => False
  | _ => True

theorem limitedWorld_still (answer : (op : Op) → Res op) (hlimit : fds.card ≤ limit) (op : Op)
    (hop : op.Still) : (limitedWorld limit).answer fds op (answer op) fds := by
  refine ⟨?_, hlimit⟩
  generalize answer op = r
  cases op with
  | accept | bpf | close => exact absurd hop id
  | deserialize => cases r <;> rfl
  | _ => rfl

theorem Op.still_of {P : Op → Prop} (haccept : ¬ P .accept) (hbpf : ∀ cmd attr size, ¬ P (.bpf cmd attr size))
    (hclose : ∀ stream, ¬ P (.close stream)) (op : Op) (h : P op) : op.Still := by
  cases op with
  | accept => exact absurd h haccept
  | bpf => exact absurd h (hbpf _ _ _)
  | close => exact absurd h (hclose _)
  | _ => trivial

/-- A part that leaves the descriptors alone can go as a client wants. -/
theorem still_ends (answer : (op : Op) → Res op) {p : Prog Op Res α} (hlimit : fds.card ≤ limit)
    (hp : p.Uses Op.Still) : Ends (limitedWorld limit) p fds (p.eval answer) fds :=
  ends_eval (limitedWorld_still answer hlimit) hp

theorem clientGroups_ends (group : String) (hlimit : fds.card ≤ limit) :
    Ends (limitedWorld limit) (clientGroups stream).run fds (.ok [group]) fds :=
  still_ends (memberClient group hashMapRequest) hlimit
    (uses_mono (Op.still_of id (fun _ _ _ => id) fun _ => id) uses_clientGroups)

theorem readRequest_ends (request : Request) (hlimit : fds.card ≤ limit) :
    Ends (limitedWorld limit) (readRequest stream).run fds (.ok (some request)) fds :=
  still_ends (memberClient "ebpf" request) hlimit
    (uses_mono (Op.still_of id (fun _ _ _ => id) fun _ => id) uses_readRequest)

theorem sendResponse_ends (fd : RawFd) (hlimit : fds.card ≤ limit) :
    Ends (limitedWorld limit) (sendResponse stream (.success (some fd))).run fds (.ok ()) fds :=
  still_ends hashMapClient hlimit
    (uses_mono (Op.still_of id (fun _ _ _ => id) fun _ => id) (uses_sendResponse _))

section
variable {group : String} {request : Request} {fd : RawFd}

theorem executeBpf_ends (hsupported : Supported request) (hfd : 0 ≤ fd) (hfresh : fd ∉ fds)
    (hlimit : (insert fd fds).card ≤ limit) :
    Ends (limitedWorld limit) (executeBpf request).run fds (.ok fd) (insert fd fds : Finset RawFd) := by
  cases request with
  | loadProgram | attach => exact absurd hsupported id
  | createMap mapType name keySize valueSize maxEntries =>
    obtain ⟨n, hn⟩ := Option.isSome_iff_exists.mp hsupported
    have hresult : ¬ fd.toInt64 < 0 := Int64.not_lt.mpr (toInt64_nonneg hfd)
    simp only [executeBpf, createBpfMap, hn]
    refine .run_bind (.lift (.perform fd.toInt64 ⟨.inr ⟨fd, hfd, rfl, hfresh, rfl⟩, hlimit⟩)) ?_
    rw [if_neg hresult, Int32.toInt32_toInt64]
    exact .pure

theorem respond_ends {name : String} (hallowed : policy.isAllowed name request = true)
    (hsupported : Supported request) (hfd : 0 ≤ fd) (hfresh : fd ∉ fds)
    (hlimit : (insert fd fds).card ≤ limit) : Ends (limitedWorld limit) (respond printable policy (some name) request) fds
      (.success (some fd)) (insert fd fds : Finset RawFd) := by
  simp only [respond, if_pos hallowed]
  refine .bind (executeBpf_ends hsupported hfd hfresh hlimit) ?_
  exact .bind (.perform () ⟨rfl, hlimit⟩) .pure

/-- The whole of a connection that gets its map. -/
theorem serveClient_ends (hauthorized : policy.Authorizes [group] request) (hsupported : Supported request)
    (hstream : stream ∉ fds) (hfd : 0 ≤ fd) (hfresh : fd ∉ insert stream fds)
    (hlimit : (insert fd (insert stream fds)).card ≤ limit) :
    Ends (limitedWorld limit) (serveClient printable policy stream) (insert stream fds : Finset RawFd) ()
      (insert fd fds : Finset RawFd) := by
  obtain ⟨name, hname, hallowed⟩ := hauthorized
  have hopen : (insert stream fds).card ≤ limit :=
    Nat.le_trans (Finset.card_le_card (Finset.subset_insert _ _)) hlimit
  have hclosed : insert fd fds = insert fd (insert stream fds) \ {stream} := by
    have hne : stream ≠ fd := fun heq => hfresh (heq ▸ Finset.mem_insert_self _ _)
    rw [Finset.insert_comm, Finset.insert_sdiff_of_mem _ (Finset.mem_singleton_self _),
      Finset.sdiff_singleton_eq_erase, Finset.erase_eq_of_notMem]
    simp [hstream, hne]
  have hconverse : Ends (limitedWorld limit) (converse printable policy stream).run
      (insert stream fds : Finset RawFd) (.ok ()) (insert fd (insert stream fds) : Finset RawFd) := by
    unfold converse
    refine .run_bind (clientGroups_ends group hopen) ?_
    refine .run_bind (.lift (.perform () ⟨rfl, hopen⟩)) ?_
    refine .run_bind (readRequest_ends request hopen) ?_
    simp only [hname]
    refine .run_bind (.lift (respond_ends hallowed hsupported hfd hfresh hlimit)) ?_
    exact sendResponse_ends fd hlimit
  refine .bind (.bind hconverse (.bind (.perform () ⟨hclosed, ?_⟩) .pure)) .pure
  exact Nat.le_trans (Finset.card_le_card (hclosed ▸ Finset.sdiff_subset)) hlimit

-- ---------------------------------------------------------------------------
-- As many as that
-- ---------------------------------------------------------------------------

theorem exists_fresh (h : fds.card < 2 ^ 31) : ∃ fd : RawFd, 0 ≤ fd ∧ fd ∉ fds := by
  have hinj : Set.InjOn Int32.ofNat (Finset.range (2 ^ 31)) := by
    intro n hn k hk heq
    have htoInt := congrArg Int32.toInt heq
    rw [Int32.toInt_ofNat_of_lt (Finset.mem_range.mp hn),
      Int32.toInt_ofNat_of_lt (Finset.mem_range.mp hk)] at htoInt
    exact Int.ofNat.inj htoInt
  have hcard : fds.card < ((Finset.range (2 ^ 31)).image Int32.ofNat).card := by
    rw [Finset.card_image_of_injOn hinj, Finset.card_range]
    exact h
  obtain ⟨fd, hmem, hfresh⟩ := Finset.exists_mem_notMem_of_card_lt_card hcard
  obtain ⟨n, hn, rfl⟩ := Finset.mem_image.mp hmem
  refine ⟨_, ?_, hfresh⟩
  rw [Int32.le_iff_toInt_le, Int32.toInt_ofNat_of_lt (Finset.mem_range.mp hn)]
  exact Int.natCast_nonneg n

variable (printable) in
theorem next_served (hauthorized : policy.Authorizes [group] request) (hsupported : Supported request)
    (hlimit : limit ≤ 2 ^ 31) (hroom : fds.card + 2 ≤ limit) (tasks : List (Task Op Res RawFd Unit)) :
    ∃ (fds' : Finset RawFd) (t : Task Op Res RawFd Unit), fds'.card = fds.card + 1 ∧ t.rest = .ret () ∧
      Relation.ReflTransGen ((daemon printable policy).Step (limitedWorld limit))
        ⟨fds, [], acceptConnection, tasks⟩ ⟨fds', [], acceptConnection, tasks ++ [t]⟩ := by
  have hbelow : fds.card < 2 ^ 31 := by omega
  obtain ⟨stream, -, hstream⟩ := exists_fresh hbelow
  have hopen : (insert stream fds).card = fds.card + 1 := Finset.card_insert_of_notMem hstream
  have hbelow' : (insert stream fds).card < 2 ^ 31 := by omega
  obtain ⟨fd, hfd, hfresh⟩ := exists_fresh hbelow'
  have hfull : (insert fd (insert stream fds)).card ≤ limit := by
    rw [Finset.card_insert_of_notMem hfresh, hopen]
    exact hroom
  have hround : Ends (limitedWorld limit) acceptConnection fds (some stream)
      (insert stream fds : Finset RawFd) := by
    have haccept : (limitedWorld limit).answer fds .accept (.ok stream) (insert stream fds : Finset RawFd) :=
      ⟨⟨hstream, rfl⟩, by omega⟩
    exact .bind (.perform _ haccept) .pure
  have hclient : Ends (limitedWorld limit) (serveClient printable policy stream)
      (insert stream fds : Finset RawFd) () (insert fd fds : Finset RawFd) :=
    serveClient_ends hauthorized hsupported hstream hfd hfresh hfull
  obtain ⟨_, hround⟩ := hround
  obtain ⟨_, hclient⟩ := hclient
  refine ⟨_, _, ?_, rfl, Service.serve (S := daemon printable policy) tasks hround hclient⟩
  exact Finset.card_insert_of_notMem fun hmem => hfresh (Finset.mem_insert_of_mem hmem)

variable (printable) in
theorem all_served (hauthorized : policy.Authorizes [group] request) (hsupported : Supported request)
    (hlimit : limit ≤ 2 ^ 31) (n : Nat) (hroom : n = 0 ∨ base.card + n + 1 ≤ limit) :
    ∃ (fds : Finset RawFd) (tasks : List (Task Op Res RawFd Unit)), fds.card = base.card + n ∧
      (∀ t ∈ tasks, t.rest = .ret ()) ∧
      (daemon printable policy).Reaches (limitedWorld limit) base ⟨fds, [], acceptConnection, tasks⟩ := by
  induction n with
  | zero => exact ⟨base, [], rfl, by simp, .refl⟩
  | succ n ih =>
    obtain ⟨fds, tasks, hcard, hover, hreach⟩ := ih (by omega)
    have hnext : fds.card + 2 ≤ limit := by omega
    obtain ⟨fds', t, hcard', hrest, hsteps⟩ := next_served printable hauthorized hsupported hlimit hnext tasks
    refine ⟨fds', tasks ++ [t], by omega, ?_, hreach.trans hsteps⟩
    exact List.forall_mem_append.mpr ⟨hover, List.forall_mem_singleton.mpr hrest⟩

theorem mapCount_over {c : Threads (limitedWorld limit) RawFd Unit}
    (hreach : (daemon printable policy).Reaches (limitedWorld limit) base c) (hround : accepted c.heard = [])
    (hover : ∀ t ∈ c.tasks, t.rest = .ret ()) : Finset.card c.world = base.card + mapCount c := by
  have hheld : ∀ t ∈ c.tasks, Multiset.card (held t) = (mapsMade t.history).length := by
    intro t ht
    rw [card_held, dropped_over (Service.reach_traced hreach) ht (hover t ht)]
    simp
  have hcard := (limited_accounted hreach).card
  rw [hround, List.map_congr_left hheld] at hcard
  exact hcard

/-- The maps the daemon can make in its lifetime: whatever it can come to, there
is one descriptor for each, next to those at the start and one for a stream.
Where someone may ask for a map, it can come to as many. Then no map is made
any more. -/
theorem lifetime_maps (hlimit : limit ≤ 2 ^ 31) (hauthorized : policy.Authorizes [group] request)
    (hsupported : Supported request) :
    (∀ n, (∃ c, (daemon printable policy).Reaches (limitedWorld limit) base c ∧ mapCount c = n) ↔
      n = 0 ∨ base.card + n + 1 ≤ limit) ∧
    ∀ c c', (daemon printable policy).Reaches (limitedWorld limit) base c → base.card + mapCount c + 1 = limit →
      Relation.ReflTransGen ((daemon printable policy).Step (limitedWorld limit)) c c' →
      mapCount c' = mapCount c := by
  refine ⟨fun n => ⟨?_, fun hroom => ?_⟩, fun c c' hreach hfull hsteps => ?_⟩
  · rintro ⟨c, hreach, rfl⟩
    exact mapCount_bounded hreach
  · obtain ⟨fds, tasks, hcard, hover, hreach⟩ := all_served printable hauthorized hsupported hlimit n hroom
    refine ⟨_, hreach, Nat.add_left_cancel (n := base.card) ?_⟩
    exact (mapCount_over hreach rfl hover).symm.trans hcard
  · have hmono := mapCount_mono hreach hsteps
    have hbounded := mapCount_bounded (hreach.trans hsteps)
    omega

end

/-- With room for eight descriptors and three open at the start, four maps. -/
theorem four_maps :
    (∃ c, (daemon (fun _ => true) Policy.default).Reaches (limitedWorld 8) ({0, 1, 2} : Finset RawFd) c ∧
      mapCount c = 4) ∧
    ¬ ∃ c, (daemon (fun _ => true) Policy.default).Reaches (limitedWorld 8) ({0, 1, 2} : Finset RawFd) c ∧
      mapCount c = 5 := by
  have hauthorized : Policy.default.Authorizes ["ebpf"] hashMapRequest := ⟨"ebpf", rfl, by decide⟩
  have hmaps : ∀ n, (∃ c, (daemon (fun _ => true) Policy.default).Reaches (limitedWorld 8)
      ({0, 1, 2} : Finset RawFd) c ∧ mapCount c = n) ↔ n = 0 ∨ ({0, 1, 2} : Finset RawFd).card + n + 1 ≤ 8 :=
    (lifetime_maps (by omega) hauthorized rfl).1
  have hthree : ({0, 1, 2} : Finset RawFd).card = 3 := rfl
  rw [hmaps, hmaps, hthree]
  exact ⟨by omega, by omega⟩

end BpfRbacd.Daemon
