import BpfRbacd.Daemon.Accounting
import BpfRbacd.Daemon.Attributes

/-!
# Whose map a client gets

All connections at once, with the table of descriptors the kernel keeps for the
daemon. A stream's number is free again when the connection is dropped and may
be given to the next one, and a descriptor goes to whoever the number stands
for at that moment.

Still no client gets another one's map: what is sent on a connection is the map
made for the request of that connection, and each gets one at most
(`deliveries_own`). Connections are numbered as they are accepted, which is the
order of the tasks.
-/

namespace BpfRbacd.Daemon

open Interaction

-- ---------------------------------------------------------------------------
-- The table
-- ---------------------------------------------------------------------------

inductive Resource where
  | connection (n : Nat)
  | map (n : Nat)
  | other
  deriving DecidableEq

structure Host where
  table : RawFd → Option Resource
  connections : Nat
  maps : List BpfAttr
  /-- What was sent with messages, behind what it was sent on. -/
  delivered : List (Option Resource × Option Resource)

/-- No connection and no map yet. -/
structure Host.Idle (s : Host) : Prop where
  table : ∀ fd x, s.table fd = some x → x = .other
  connections : s.connections = 0
  maps : s.maps = []
  delivered : s.delivered = []

section
variable (peer : Nat → UnixCredentials) (input : Nat → List UInt8)

/-- A connection answers with its peer's credentials and with bytes its peer
wrote. New descriptors get numbers that are free. -/
def hostEffect (s : Host) (op : Op) (r : Res op) (s' : Host) : Prop :=
  match op, r with
  | .accept, .ok stream =>
    s.table stream = none ∧
      s' = { s with
        table := Function.update s.table stream (some (.connection s.connections))
        connections := s.connections + 1 }
  | .peerCredentials stream, .ok cred =>
    s' = s ∧ ∀ n, s.table stream = some (.connection n) → cred = peer n
  | .read stream _, .ok bytes =>
    s' = s ∧ ∀ n, s.table stream = some (.connection n) → bytes <:+: input n
  | .bpf _ attr _, result =>
    (result < 0 ∧ s' = s) ∨ ∃ fd : RawFd, 0 ≤ fd ∧ result = fd.toInt64 ∧ s.table fd = none ∧
      s' = { s with
        table := Function.update s.table fd (some (.map s.maps.length))
        maps := s.maps ++ [attr] }
  | .sendmsg stream fd _, .ok _ =>
    s' = { s with delivered := s.delivered ++ [(s.table stream, s.table fd)] }
  | .close stream, _ => s' = { s with table := Function.update s.table stream none }
  | _, _ => s' = s

def hostWorld : World Op Res where
  State := Host
  answer := hostEffect peer input

end

-- ---------------------------------------------------------------------------
-- One operation
-- ---------------------------------------------------------------------------

/-- The maps stay, and a new one has a new number. -/
structure Host.Keeps (s s' : Host) : Prop where
  table : ∀ fd k, s.table fd = some (.map k) → s'.table fd = some (.map k)
  maps : s.maps <+: s'.maps
  fresh : ∀ fd k, s'.table fd = some (.map k) →
    s.table fd = some (.map k) ∨ (s.maps.length ≤ k ∧ k < s'.maps.length)

/-- Nothing is taken away. -/
structure Host.Grows (s s' : Host) : Prop where
  table : ∀ fd x, s.table fd = some x → s'.table fd = some x
  keeps : s.Keeps s'

section
variable {peer : Nat → UnixCredentials} {input : Nat → List UInt8} {s s' : Host}

theorem Host.Grows.of_table (htable : s'.table = s.table) (hmaps : s'.maps = s.maps) : s.Grows s' where
  table _ _ h := htable ▸ h
  keeps := ⟨fun _ _ h => htable ▸ h, hmaps ▸ List.prefix_refl _, fun _ _ h => .inl (htable ▸ h)⟩

theorem Host.Grows.insert {fd : RawFd} {x : Resource} (hfree : s.table fd = none) (hmaps : s.maps <+: s'.maps)
    (htable : s'.table = Function.update s.table fd (some x))
    (hx : ∀ k, x = .map k → s.maps.length ≤ k ∧ k < s'.maps.length) : s.Grows s' := by
  have hkept : ∀ fd' y, s.table fd' = some y → s'.table fd' = some y := by
    intro fd' y hy
    have hne : fd' ≠ fd := by
      rintro ⟨⟩
      rw [hfree] at hy
      cases hy
    rw [htable, Function.update_of_ne hne]
    exact hy
  refine ⟨hkept, fun fd' k => hkept fd' _, hmaps, fun fd' k hk => ?_⟩
  by_cases heq : fd' = fd
  · rw [htable, heq, Function.update_self] at hk
    exact .inr (hx k (Option.some.inj hk))
  · rw [htable, Function.update_of_ne heq] at hk
    exact .inl hk

theorem Host.Keeps.drop {stream : RawFd} {n : Nat} (hstream : s.table stream = some (.connection n)) :
    s.Keeps { s with table := Function.update s.table stream none } where
  table fd k hk := by
    have hne : fd ≠ stream := by
      rintro rfl
      rw [hstream] at hk
      cases hk
    exact (Function.update_of_ne hne ..).trans hk
  maps := List.prefix_refl _
  fresh fd k hk := by
    left
    by_cases heq : fd = stream
    · subst heq
      exact absurd ((Function.update_self ..).symm.trans hk) nofun
    · exact (Function.update_of_ne heq ..).symm.trans hk

theorem getElem?_of_prefix {α : Type} {l l' : List α} {k : Nat} {a : α} (h : l <+: l') (hk : l[k]? = some a) :
    l'[k]? = some a := by
  obtain ⟨more, rfl⟩ := h
  rw [List.getElem?_append_left (List.getElem?_eq_some_iff.mp hk).1]
  exact hk

/-- The cases of an operation inside a connection: a map is made, a descriptor
is delivered, or nothing changes. -/
theorem hostEffect_within {op : Op} {r : Res op} (hop : op.Within) (h : hostEffect peer input s op r s') :
    s.Grows s' ∧ s'.connections = s.connections ∧
      (s'.delivered = s.delivered ∨ ∃ sock fd data n, reply op r = reply (.sendmsg sock fd data) (.ok n) ∧
        s'.delivered = s.delivered ++ [(s.table sock, s.table fd)]) := by
  have hsame (hs : s' = s) : s.Grows s' ∧ s'.connections = s.connections ∧ (s'.delivered = s.delivered ∨
      ∃ sock fd data n, reply op r = reply (.sendmsg sock fd data) (.ok n) ∧
        s'.delivered = s.delivered ++ [(s.table sock, s.table fd)]) := by
    subst hs
    exact ⟨.of_table rfl rfl, rfl, .inl rfl⟩
  cases op with
  | accept | close => exact absurd hop id
  | bpf =>
    rcases h with ⟨-, hs⟩ | ⟨fd, -, -, hfree, rfl⟩
    · exact hsame hs
    · refine ⟨.insert hfree (List.prefix_append _ _) rfl ?_, rfl, .inl rfl⟩
      rintro k ⟨⟩
      simp
  | sendmsg sock fd data =>
    cases r with
    | error => exact hsame h
    | ok n =>
      obtain rfl := h
      exact ⟨.of_table rfl rfl, rfl, .inr ⟨sock, fd, data, n, rfl, rfl⟩⟩
  | peerCredentials | read =>
    cases r with
    | error => exact hsame h
    | ok => exact hsame h.1
  | _ => exact hsame h

theorem hostEffect_made {op : Op} {r : Res op} {call : BpfCall} (h : hostEffect peer input s op r s')
    (hcall : call ∈ bpfCalls [reply op r]) (hmade : 0 ≤ call.result) :
    ∃ k, s.maps.length ≤ k ∧ s'.table call.result.toInt32 = some (.map k) ∧ s'.maps[k]? = some call.attr := by
  obtain ⟨before, m, after, hsplit⟩ := exists_of_mem_bpfCalls hcall
  rcases before with _ | ⟨e, before⟩
  · cases hsplit
    rcases h with ⟨hneg, -⟩ | ⟨fd, hfd, hresult, -, rfl⟩
    · exact absurd hmade (Int64.not_le.mpr hneg)
    · refine ⟨s.maps.length, Nat.le_refl _, ?_, by simp⟩
      rw [hresult, Int32.toInt32_toInt64]
      exact Function.update_self ..
  · simp at hsplit

-- ---------------------------------------------------------------------------
-- A task
-- ---------------------------------------------------------------------------

variable (peer input) in
/-- The task of connection `i`, and what the table holds for it. -/
structure Placed (s : Host) (i : Nat) (t : Task Op Res RawFd Unit) : Prop where
  stream : dropped t.history = false → s.table t.item = some (.connection i)
  maps : ∀ call ∈ bpfCalls t.history, 0 ≤ call.result →
    ∃ k, s.table call.result.toInt32 = some (.map k) ∧ s.maps[k]? = some call.attr
  peer : ∀ stream cred, reply (.peerCredentials stream) (.ok cred) ∈ t.history → cred = peer i
  input : ∀ stream size bytes, reply (.read stream size) (.ok bytes) ∈ t.history → bytes <:+: input i

theorem Placed.mono {i : Nat} {t : Task Op Res RawFd Unit} (hs : s.Grows s') (h : Placed peer input s i t) :
    Placed peer input s' i t where
  stream hopen := hs.table _ _ (h.stream hopen)
  maps call hcall hmade := by
    obtain ⟨k, htable, hk⟩ := h.maps call hcall hmade
    exact ⟨k, hs.table _ _ htable, getElem?_of_prefix hs.keeps.maps hk⟩
  peer := h.peer
  input := h.input

/-- Another connection is dropped. -/
theorem Placed.drop {i j : Nat} {t : Task Op Res RawFd Unit} {stream : RawFd} (h : Placed peer input s i t)
    (hstream : s.table stream = some (.connection j)) (hij : dropped t.history = false → i ≠ j) :
    Placed peer input { s with table := Function.update s.table stream none } i t where
  stream hopen := by
    have hitem := h.stream hopen
    have hne : t.item ≠ stream := by
      intro heq
      rw [heq, hstream] at hitem
      cases hitem
      exact hij hopen rfl
    exact (Function.update_of_ne hne ..).trans hitem
  maps call hcall hmade := by
    obtain ⟨k, htable, hk⟩ := h.maps call hcall hmade
    exact ⟨k, (Host.Keeps.drop hstream).table _ _ htable, hk⟩
  peer := h.peer
  input := h.input

/-- The task made map `k`. -/
def Made (s : Host) (t : Task Op Res RawFd Unit) (k : Nat) : Prop :=
  ∃ call ∈ bpfCalls t.history, 0 ≤ call.result ∧ s.table call.result.toInt32 = some (.map k)

theorem Made.back {i k : Nat} {t : Task Op Res RawFd Unit} (hplaced : Placed peer input s i t) (hs : s.Keeps s')
    (h : Made s' t k) : Made s t k := by
  obtain ⟨call, hcall, hmade, htable⟩ := h
  obtain ⟨k', hk', -⟩ := hplaced.maps call hcall hmade
  rw [hs.table _ _ hk'] at htable
  cases htable
  exact ⟨call, hcall, hmade, hk'⟩

section
variable {i : Nat} {stream : RawFd} {origin history : List (Reply Op Res)} {op : Op} {r : Res op}
  {rest rest' : Prog Op Res Unit}

/-- The task of an open connection takes a step inside it. -/
theorem Placed.within (h : Placed peer input s i ⟨stream, origin, history, rest⟩)
    (hopen : dropped history = false) (hop : op.Within) (hon : op.On stream)
    (heffect : hostEffect peer input s op r s') :
    Placed peer input s' i ⟨stream, origin, history ++ [reply op r], rest'⟩ := by
  have hgrows := (hostEffect_within hop heffect).1
  have hitem := h.stream hopen
  constructor
  · exact fun _ => hgrows.table _ _ hitem
  · intro call hcall hmade
    rw [bpfCalls_append, List.mem_append] at hcall
    rcases hcall with hcall | hcall
    · exact (h.mono hgrows).maps call hcall hmade
    · obtain ⟨k, -, htable, hk⟩ := hostEffect_made heffect hcall hmade
      exact ⟨k, htable, hk⟩
  · intro fd cred hmem
    rcases List.mem_append.mp hmem with hmem | hlast
    · exact h.peer _ _ hmem
    · cases List.mem_singleton.mp hlast
      cases hon
      exact heffect.2 i hitem
  · intro fd size bytes hmem
    rcases List.mem_append.mp hmem with hmem | hlast
    · exact h.input _ _ _ hmem
    · cases List.mem_singleton.mp hlast
      cases hon
      exact heffect.2 i hitem

/-- What it has made then is from before, or new. -/
theorem Made.within {k : Nat} (hplaced : Placed peer input s i ⟨stream, origin, history, rest⟩)
    (hop : op.Within) (heffect : hostEffect peer input s op r s')
    (h : Made s' ⟨stream, origin, history ++ [reply op r], rest'⟩ k) :
    Made s ⟨stream, origin, history, rest⟩ k ∨ s.maps.length ≤ k := by
  obtain ⟨call, hcall, hmade, htable⟩ := h
  rw [bpfCalls_append, List.mem_append] at hcall
  rcases hcall with hcall | hcall
  · exact .inl (Made.back hplaced (hostEffect_within hop heffect).1.keeps ⟨call, hcall, hmade, htable⟩)
  · obtain ⟨k', hfresh, hk', -⟩ := hostEffect_made heffect hcall hmade
    rw [hk'] at htable
    cases htable
    exact .inr hfresh

theorem bpfCalls_quiet (hop : op.Logs ∨ op.isClose = true) : bpfCalls [reply op r] = [] := by
  cases op with
  | log line => cases line <;> rfl
  | close => rfl
  | _ => simp [Op.Logs, Op.isClose] at hop

theorem Made.quiet {k : Nat} (hop : op.Logs ∨ op.isClose = true)
    (h : Made s ⟨stream, origin, history ++ [reply op r], rest'⟩ k) :
    Made s ⟨stream, origin, history, rest⟩ k := by
  obtain ⟨call, hcall, hmade, htable⟩ := h
  rw [bpfCalls_append, bpfCalls_quiet hop, List.append_nil] at hcall
  exact ⟨call, hcall, hmade, htable⟩

/-- A line for the log, or the end of the connection. -/
theorem Placed.quiet (h : Placed peer input s i ⟨stream, origin, history, rest⟩)
    (hop : op.Logs ∨ op.isClose = true) :
    Placed peer input s i ⟨stream, origin, history ++ [reply op r], rest'⟩ := by
  constructor
  · intro hopen
    rw [dropped_append, Bool.or_eq_false_iff] at hopen
    exact h.stream hopen.1
  · intro call hcall
    rw [bpfCalls_append, bpfCalls_quiet hop, List.append_nil] at hcall
    exact h.maps call hcall
  · intro fd cred hmem
    rcases List.mem_append.mp hmem with hmem | hlast
    · exact h.peer _ _ hmem
    · cases List.mem_singleton.mp hlast
      simp [Op.Logs, Op.isClose] at hop
  · intro fd size bytes hmem
    rcases List.mem_append.mp hmem with hmem | hlast
    · exact h.input _ _ _ hmem
    · cases List.mem_singleton.mp hlast
      simp [Op.Logs, Op.isClose] at hop

end

-- ---------------------------------------------------------------------------
-- Deliveries
-- ---------------------------------------------------------------------------

variable {printable : Char → Bool} {policy : Policy} {start : Host}
  {c c' : Threads (hostWorld peer input) RawFd Unit}

/-- What was delivered on a connection is a map its own task made. -/
structure OwnMap (s : Host) (tasks : List (Task Op Res RawFd Unit)) (i : Nat) (x : Option Resource) : Prop where
  task : ∃ t, tasks[i]? = some t ∧ (∃ e ∈ t.history, e.op.Delivers) ∧ ∃ k, x = some (.map k) ∧ Made s t k

theorem OwnMap.mono {tasks tasks' : List (Task Op Res RawFd Unit)} {i : Nat} {x : Option Resource}
    (hs : s.Keeps s') (htasks : ∀ t, tasks[i]? = some t → ∃ t', tasks'[i]? = some t' ∧ t.history <+: t'.history)
    (h : OwnMap s tasks i x) : OwnMap s' tasks' i x := by
  obtain ⟨t, ht, ⟨e, he, hdelivers⟩, k, rfl, call, hcall, hmade, hk⟩ := h.task
  obtain ⟨t', ht', more, hmore⟩ := htasks t ht
  refine ⟨t', ht', ⟨e, ?_, hdelivers⟩, k, rfl, call, ?_, hmade, hs.table _ _ hk⟩
  · rw [← hmore]
    exact List.mem_append_left _ he
  · rw [← hmore, bpfCalls_append]
    exact List.mem_append_left _ hcall

/-- What holds of the daemon and its table in every reachable state. -/
structure Kept (c : Threads (hostWorld peer input) RawFd Unit) : Prop where
  connections : Host.connections c.world = c.tasks.length + (accepted c.heard).length
  waiting : ∀ stream ∈ accepted c.heard, Host.table c.world stream = some (.connection c.tasks.length)
  placed : ∀ i t, c.tasks[i]? = some t → Placed peer input c.world i t
  numbered : ∀ fd k, Host.table c.world fd = some (.map k) → k < (Host.maps c.world).length
  apart : ∀ (i j : Nat) (t u : Task Op Res RawFd Unit) (k : Nat), c.tasks[i]? = some t → c.tasks[j]? = some u →
    Made c.world t k → Made c.world u k → i = j
  delivered : ∀ d ∈ Host.delivered c.world, ∃ i, d.1 = some (.connection i) ∧ OwnMap c.world c.tasks i d.2
  once : ((Host.delivered c.world).map (·.1)).Nodup

theorem Host.Idle.kept (h : start.Idle) :
    Kept ((daemon printable policy).init (hostWorld peer input) start) where
  connections := h.connections
  waiting := by simp [Service.init, accepted]
  placed := by simp [Service.init]
  numbered fd k hk := by cases h.table fd _ hk
  apart := by simp [Service.init]
  delivered := by simp [Service.init, h.delivered]
  once := by simp [Service.init, h.delivered]

-- ---------------------------------------------------------------------------
-- The loop
-- ---------------------------------------------------------------------------

section
variable {heard : List (Reply Op Res)} {tasks : List (Task Op Res RawFd Unit)}

theorem kept_loop {op : Op} {r : Res op} {next : Res op → Prog Op Res (Option RawFd)}
    (hpath : Path acceptConnection heard (.call op next)) (heffect : hostEffect peer input s op r s')
    (h : Kept (⟨s, heard, .call op next, tasks⟩ : Threads (hostWorld peer input) RawFd Unit)) :
    Kept (⟨s', heard ++ [reply op r], next r, tasks⟩ : Threads (hostWorld peer input) RawFd Unit) := by
  obtain ⟨hconnections, hwaiting, hplaced, hnumbered, hapart, hdelivered, honce⟩ := h
  rcases hpath.once acceptConnection_once with ⟨hop | ⟨rfl, -⟩, hnone⟩ | ⟨⟨hop, -⟩, -⟩
  · exact hop.1.elim
  · obtain rfl : heard = [] := List.eq_nil_iff_forall_not_mem.mpr hnone
    cases r with
    | error e =>
      obtain rfl := heffect
      exact ⟨hconnections, hwaiting, hplaced, hnumbered, hapart, hdelivered, honce⟩
    | ok stream =>
      obtain ⟨hfree, rfl⟩ := heffect
      have hgrows : s.Grows { s with
          table := Function.update s.table stream (some (.connection s.connections))
          connections := s.connections + 1 } :=
        .insert hfree (List.prefix_refl _) rfl fun k hk => nomatch hk
      have hcount : s.connections = tasks.length := hconnections
      refine ⟨congrArg (· + 1) hcount, ?_, fun i t ht => (hplaced i t ht).mono hgrows, fun fd k hk => ?_,
        fun i j t u k ht hu hmade hmade' => ?_, fun d hd => ?_, honce⟩
      · intro stream' hmem
        obtain rfl : stream' = stream := by simpa [accepted, acceptedStream, reply] using hmem
        exact (Function.update_self ..).trans (by rw [hcount])
      · rcases hgrows.keeps.fresh fd k hk with hbefore | ⟨hle, hlt⟩
        · exact hnumbered fd k hbefore
        · exact absurd hle (Nat.not_le.mpr hlt)
      · exact hapart i j t u k ht hu (hmade.back (hplaced i t ht) hgrows.keeps)
          (hmade'.back (hplaced j u hu) hgrows.keeps)
      · obtain ⟨i, hi, hown⟩ := hdelivered d hd
        exact ⟨i, hi, hown.mono hgrows.keeps fun t ht => ⟨t, ht, List.prefix_refl _⟩⟩
  · cases op with
    | log line =>
      obtain rfl : s' = s := heffect
      have hsame : accepted (heard ++ [reply (.log line) r]) = accepted heard := by
        simp [accepted, acceptedStream, reply]
      refine ⟨?_, ?_, hplaced, hnumbered, hapart, hdelivered, honce⟩
      · rw [hsame]
        exact hconnections
      · rw [hsame]
        exact hwaiting
    | _ => exact absurd hop id

theorem kept_again (hpath : Path acceptConnection heard (.ret none))
    (h : Kept (⟨s, heard, .ret none, tasks⟩ : Threads (hostWorld peer input) RawFd Unit)) :
    Kept (⟨s, [], acceptConnection, tasks⟩ : Threads (hostWorld peer input) RawFd Unit) := by
  have hconnections := h.connections
  rw [acceptConnection_returned hpath] at hconnections
  exact { h with connections := hconnections, waiting := by simp [accepted] }

theorem kept_start {stream : RawFd} (hpath : Path acceptConnection heard (.ret (some stream)))
    (h : Kept (⟨s, heard, .ret (some stream), tasks⟩ : Threads (hostWorld peer input) RawFd Unit)) :
    Kept (⟨s, [], acceptConnection, tasks ++ [⟨stream, heard, [], serveClient printable policy stream⟩]⟩ :
      Threads (hostWorld peer input) RawFd Unit) := by
  obtain ⟨hconnections, hwaiting, hplaced, hnumbered, hapart, hdelivered, honce⟩ := h
  rw [acceptConnection_returned hpath] at hconnections hwaiting
  have hcases {i : Nat} {t : Task Op Res RawFd Unit}
      (ht : (tasks ++ [⟨stream, heard, [], serveClient printable policy stream⟩])[i]? = some t) :
      tasks[i]? = some t ∨ i = tasks.length ∧ t = ⟨stream, heard, [], serveClient printable policy stream⟩ := by
    rcases Nat.lt_trichotomy i tasks.length with hlt | rfl | hgt
    · exact .inl ((List.getElem?_append_left hlt).symm.trans ht)
    · exact .inr ⟨rfl, by simpa using ht.symm⟩
    · rw [List.getElem?_eq_none (by simp; omega)] at ht
      cases ht
  refine ⟨by simpa [accepted] using hconnections, by simp [accepted], ?_, hnumbered, ?_, ?_, honce⟩
  · intro i t ht
    rcases hcases ht with hbefore | ⟨rfl, rfl⟩
    · exact hplaced i t hbefore
    · exact ⟨fun _ => hwaiting stream (by simp), by simp [bpfCalls], by simp, by simp⟩
  · intro i j t u k ht hu hmade hmade'
    -- the new task has made nothing
    rcases hcases ht with hbefore | ⟨-, rfl⟩
    · rcases hcases hu with hbefore' | ⟨-, rfl⟩
      · exact hapart i j t u k hbefore hbefore' hmade hmade'
      · obtain ⟨call, hcall, -⟩ := hmade'
        simp [bpfCalls] at hcall
    · obtain ⟨call, hcall, -⟩ := hmade
      simp [bpfCalls] at hcall
  · intro d hd
    obtain ⟨i, hi, hown⟩ := hdelivered d hd
    exact ⟨i, hi, hown.mono (Host.Grows.of_table rfl rfl).keeps fun t ht =>
      ⟨t, getElem?_of_prefix (List.prefix_append _ _) ht, List.prefix_refl _⟩⟩

end

-- ---------------------------------------------------------------------------
-- The tasks
-- ---------------------------------------------------------------------------

/-- A descriptor is sent once, and it is that of the task's own map. -/
theorem serveClient_sends {stream sock fd : RawFd} {data : List UInt8} {history : List (Reply Op Res)}
    {next : Res (.sendmsg sock fd data) → Prog Op Res Unit}
    (hpath : Path (serveClient printable policy stream) history (.call (.sendmsg sock fd data) next)) :
    sock = stream ∧ (∀ e ∈ history, ¬ e.op.Delivers) ∧
      ∃ call ∈ bpfCalls history, 0 ≤ call.result ∧ fd = call.result.toInt32 := by
  obtain ⟨rest, a, hrun⟩ := (hpath.snoc (.ok 0)).completes
  rw [List.append_assoc] at hrun
  obtain ⟨_, _, _, hclient⟩ := serveClient_before (fun line => Op.noConfusion) hrun
  obtain ⟨hfirst, groups, request, response, data', -, -, -, -, hresponds, -, hop⟩ :=
    handleClient_delivers hclient trivial
  obtain ⟨hsock, rfl⟩ := delivery_eq_sendmsg hop
  obtain ⟨-, call, hcalls, -, hresult, hfd⟩ := hresponds.success
  exact ⟨hsock, hfirst, call, by simp [hcalls], hresult, hfd⟩

section
variable {heard : List (Reply Op Res)} {loop : Prog Op Res (Option RawFd)}
  {before after : List (Task Op Res RawFd Unit)} {t t' u : Task Op Res RawFd Unit}

theorem getElem?_middle : (before ++ t :: after)[before.length]? = some t := by simp

theorem getElem?_others {i : Nat} (hi : i ≠ before.length) :
    (before ++ t' :: after)[i]? = (before ++ t :: after)[i]? := by
  rcases Nat.lt_or_gt_of_ne hi with hlt | hgt
  · rw [List.getElem?_append_left hlt, List.getElem?_append_left hlt]
  · obtain ⟨k, hk⟩ := Nat.exists_eq_add_of_lt hgt
    rw [List.getElem?_append_right (Nat.le_of_lt hgt), List.getElem?_append_right (Nat.le_of_lt hgt), hk]
    simp [Nat.add_assoc]

/-- Every task is one from before the step with no less of a history. -/
theorem history_extends (h : t.history <+: t'.history) (i : Nat) (u : Task Op Res RawFd Unit)
    (hu : (before ++ t :: after)[i]? = some u) :
    ∃ u', (before ++ t' :: after)[i]? = some u' ∧ u.history <+: u'.history := by
  by_cases hi : i = before.length
  · subst hi
    cases getElem?_middle.symm.trans hu
    exact ⟨t', getElem?_middle, h⟩
  · exact ⟨u, (getElem?_others hi).trans hu, List.prefix_refl _⟩

/-- A step of one task: the others are placed as before, the one that moved is
placed, and nothing was delivered or its own map. -/
theorem Kept.moved
    (h : Kept (⟨s, heard, loop, before ++ t :: after⟩ : Threads (hostWorld peer input) RawFd Unit))
    (hhistory : t.history <+: t'.history) (hconnections : s'.connections = s.connections)
    (hwaiting : ∀ stream, s.table stream = some (.connection (before ++ t :: after).length) →
      s'.table stream = s.table stream)
    (hothers : ∀ i u, i ≠ before.length → Placed peer input s i u → Placed peer input s' i u)
    (hself : Placed peer input s' before.length t') (hkeeps : s.Keeps s')
    (hmade : ∀ k, Made s' t' k → Made s t k ∨ s.maps.length ≤ k)
    (hdelivered : s'.delivered = s.delivered ∨
      ∃ x, s'.delivered = s.delivered ++ [(some (.connection before.length), x)] ∧
        OwnMap s' (before ++ t' :: after) before.length x ∧ ∀ e ∈ t.history, ¬ e.op.Delivers) :
    Kept (⟨s', heard, loop, before ++ t' :: after⟩ : Threads (hostWorld peer input) RawFd Unit) := by
  have hlength : (before ++ t' :: after).length = (before ++ t :: after).length := by simp
  have hearlier : ∀ d ∈ s.delivered, ∃ i, d.1 = some (.connection i) ∧
      OwnMap s' (before ++ t' :: after) i d.2 := by
    intro d hd
    obtain ⟨i, hi, hown⟩ := h.delivered d hd
    exact ⟨i, hi, hown.mono hkeeps (history_extends hhistory i)⟩
  -- a map of a task now is one it had before, or new, and then the moved task made it
  have hback {i k : Nat} {u : Task Op Res RawFd Unit} (hu : (before ++ t' :: after)[i]? = some u)
      (hk : Made s' u k) : (∃ u', (before ++ t :: after)[i]? = some u' ∧ Made s u' k) ∨
        (i = before.length ∧ s.maps.length ≤ k) := by
    by_cases hi : i = before.length
    · subst hi
      cases getElem?_middle.symm.trans hu
      rcases hmade k hk with hold | hnew
      · exact .inl ⟨t, getElem?_middle, hold⟩
      · exact .inr ⟨rfl, hnew⟩
    · have hu' : (before ++ t :: after)[i]? = some u := (getElem?_others hi).symm.trans hu
      exact .inl ⟨u, hu', hk.back (h.placed i u hu') hkeeps⟩
  have hold {k : Nat} {u : Task Op Res RawFd Unit} (hk : Made s u k) : k < s.maps.length := by
    obtain ⟨_, _, _, htable⟩ := hk
    exact h.numbered _ k htable
  constructor
  case connections =>
    rw [hlength]
    exact hconnections.trans h.connections
  case waiting =>
    intro stream hstream
    have htable := h.waiting stream hstream
    rw [hlength]
    exact (hwaiting stream htable).trans htable
  case placed =>
    intro i u hu
    by_cases hi : i = before.length
    · subst hi
      cases getElem?_middle.symm.trans hu
      exact hself
    · exact hothers i u hi (h.placed i u ((getElem?_others hi).symm.trans hu))
  case numbered =>
    intro fd k hk
    rcases hkeeps.fresh fd k hk with hbefore | ⟨-, hlt⟩
    · exact Nat.lt_of_lt_of_le (h.numbered fd k hbefore) hkeeps.maps.length_le
    · exact hlt
  case apart =>
    intro i j u v k hu hv hku hkv
    rcases hback hu hku with ⟨u', hu', hku'⟩ | ⟨rfl, hnew⟩
    · rcases hback hv hkv with ⟨v', hv', hkv'⟩ | ⟨-, hnew⟩
      · exact h.apart i j u' v' k hu' hv' hku' hkv'
      · exact absurd hnew (Nat.not_le.mpr (hold hku'))
    · rcases hback hv hkv with ⟨v', -, hkv'⟩ | ⟨rfl, -⟩
      · exact absurd hnew (Nat.not_le.mpr (hold hkv'))
      · rfl
  case delivered =>
    show ∀ d ∈ s'.delivered, _
    rcases hdelivered with hsame | ⟨x, hmore, hown, -⟩
    · rw [hsame]
      exact hearlier
    · rw [hmore]
      exact List.forall_mem_append.mpr ⟨hearlier, List.forall_mem_singleton.mpr ⟨_, rfl, hown⟩⟩
  case once =>
    show (s'.delivered.map (·.1)).Nodup
    rcases hdelivered with hsame | ⟨x, hmore, -, hfirst⟩
    · rw [hsame]
      exact h.once
    · rw [hmore, List.map_append, List.map_singleton]
      refine List.nodup_append.mpr ⟨h.once, List.nodup_singleton _, ?_⟩
      -- an earlier delivery on this connection would be in the history
      rintro _ hearly _ hlast rfl
      rw [List.mem_singleton] at hlast
      obtain ⟨d, hd, hfst⟩ := List.mem_map.mp hearly
      obtain ⟨i, hi, hown⟩ := h.delivered d hd
      obtain ⟨u, hu, ⟨e, he, hdelivers⟩, -⟩ := hown.task
      rw [hfst, hlast] at hi
      cases hi
      cases getElem?_middle.symm.trans hu
      exact hfirst e he hdelivers

theorem kept_task {stream : RawFd} {origin history : List (Reply Op Res)} {op : Op} {r : Res op}
    {next : Res op → Prog Op Res Unit}
    (hpath : Path (serveClient printable policy stream) history (.call op next))
    (heffect : hostEffect peer input s op r s')
    (h : Kept (⟨s, heard, loop, before ++ ⟨stream, origin, history, .call op next⟩ :: after⟩ :
      Threads (hostWorld peer input) RawFd Unit)) :
    Kept (⟨s', heard, loop, before ++ ⟨stream, origin, history ++ [reply op r], next r⟩ :: after⟩ :
      Threads (hostWorld peer input) RawFd Unit) := by
  have hplaced := h.placed before.length _ getElem?_middle
  have hextends : history <+: history ++ [reply op r] := List.prefix_append _ _
  rcases hpath.once serveClient_once with ⟨⟨hop, -⟩ | ⟨rfl, -⟩, hwithin⟩ | ⟨⟨hop, -⟩, -⟩
  · have hopen : dropped history = false := dropped_within hwithin
    have hon : op.On stream := (hpath.uses serveClient_on).1.1
    obtain ⟨hgrows, hconnections, hdelivered⟩ := hostEffect_within hop heffect
    refine h.moved hextends hconnections (fun sock hsock => (hgrows.table _ _ hsock).trans hsock.symm)
      (fun _ _ _ hu => hu.mono hgrows) (hplaced.within hopen hop hon heffect) hgrows.keeps
      (fun k hk => hk.within hplaced hop heffect) ?_
    rcases hdelivered with hsame | ⟨sock, fd, data, n, hsend, hmore⟩
    · exact .inl hsame
    · cases hsend
      obtain ⟨rfl, hfirst, call, hcall, hmade, rfl⟩ := serveClient_sends hpath
      obtain ⟨k, htable, -⟩ := hplaced.maps call hcall hmade
      have hstream := hplaced.stream hopen
      refine .inr ⟨some (.map k), by rw [hmore, hstream, htable],
        ⟨_, getElem?_middle, ?_, k, rfl, call, ?_, hmade, hgrows.table _ _ htable⟩, hfirst⟩
      · exact ⟨_, List.mem_append_right _ List.mem_cons_self, trivial⟩
      · rw [bpfCalls_append]
        exact List.mem_append_left _ hcall
  · have hopen : dropped history = false := dropped_within hwithin
    have hstream := hplaced.stream hopen
    have hkeeps := Host.Keeps.drop hstream
    obtain rfl := heffect
    refine h.moved hextends rfl (fun sock hsock => ?_) (fun i u hi hu => hu.drop hstream fun _ => hi) ?_
      hkeeps (fun k hk => .inl ((hk.quiet (.inr rfl)).back hplaced hkeeps)) (.inl rfl)
    · refine Function.update_of_ne ?_ ..
      rintro rfl
      rw [hstream] at hsock
      simp at hsock
    · refine Placed.drop (hplaced.quiet (.inr rfl)) hstream fun hstill => ?_
      simp [dropped_append] at hstill
  · cases op with
    | log line =>
      obtain rfl : s' = s := heffect
      exact h.moved hextends rfl (fun _ _ => rfl) (fun _ _ _ hu => hu) (hplaced.quiet (.inl hop))
        (Host.Grows.of_table rfl rfl).keeps (fun k hk => .inl (hk.quiet (.inl hop))) (.inl rfl)
    | _ => exact absurd hop id

end

-- ---------------------------------------------------------------------------
-- Every reachable state
-- ---------------------------------------------------------------------------

theorem kept_step (hstep : (daemon printable policy).Step (hostWorld peer input) c c')
    (htraced : (daemon printable policy).Traced (hostWorld peer input) c) (h : Kept c) : Kept c' := by
  cases hstep with
  | loop hanswer => exact kept_loop htraced.loop hanswer h
  | again => exact kept_again htraced.loop h
  | start => exact kept_start htraced.loop h
  | @task _ _ _ _ _ item origin history op next _ _ hanswer =>
    exact kept_task (htraced.history ⟨item, origin, history, .call op next⟩ (by simp)) hanswer h

theorem reach_kept (hidle : start.Idle)
    (hreach : (daemon printable policy).Reaches (hostWorld peer input) start c) : Kept c := by
  refine (Service.reach_invariant (I := fun c => (daemon printable policy).Traced (hostWorld peer input) c ∧
    Kept c) ?_ ?_ hreach).2
  · exact ⟨Service.reach_traced .refl, hidle.kept⟩
  · rintro c c' hstep ⟨htraced, h⟩
    exact ⟨htraced.step hstep, kept_step hstep htraced h⟩

-- ---------------------------------------------------------------------------
-- Who asked
-- ---------------------------------------------------------------------------

/-- The call was made for a request that was read, with a role behind it. -/
theorem handleClient_granted {stream : RawFd} {lead after : List (Reply Op Res)} {cmd : Int32} {attr : BpfAttr}
    {size : UInt64} {result : Int64} {r : Except String Unit}
    (h : Exec (World.free Op Res) (handleClient printable policy stream) ()
      (lead ++ reply (.bpf cmd attr size) result :: after) r ()) :
    ∃ request, ReadFrom stream request lead ∧ createAttr request = some attr ∧
      ∃ name role, policy.config.roles.lookup name = some role ∧ policy.isAllowed name request = true ∧
        ∃ group ∈ role.groups, MemberOf stream group lead := by
  obtain ⟨first, rest, groups, request, rfl, hheard, hsettles⟩ := handleClient_late h id id nofun
  have hsub : first ⊆ first ++ rest := List.subset_append_left first rest
  have hcalls := hsettles.callsFor (reply (.bpf cmd attr size) result) (by simp)
  obtain ⟨calls, _, hresponds, hobs⟩ := hsettles.responds
  rcases hresponds.outcome with ⟨-, rfl, -⟩ | ⟨hauthorized, -⟩
  · rw [bpfCalls_append] at hobs
    exact absurd hobs (by simp [bpfCalls, observed, observe, reply])
  · obtain ⟨name, role, hrole, hallowed, group, hgroup, hmem⟩ := Policy.Authorizes.role hauthorized
    exact ⟨request, hheard.read.mono hsub, hcalls.2.2, name, role, hrole, hallowed, group, hgroup,
      (hheard.members group hmem).mono hsub⟩

/-- The peer wrote a request for this map, and a role that allows it lists a
group found for the peer. -/
structure Entitled (policy : Policy) (cred : UnixCredentials) (written : List UInt8) (attr : BpfAttr)
    (history : List (Reply Op Res)) : Prop where
  request : ∃ bytes request, bytes ≠ [] ∧ bytes <:+: written ∧
    reply (.deserialize bytes) (.ok request) ∈ history ∧ createAttr request = some attr ∧
    ∃ name role, policy.config.roles.lookup name = some role ∧ policy.isAllowed name request = true ∧
      ∃ group ∈ role.groups, ∃ user gid, reply (.userFromUid cred.uid) (.ok (some user)) ∈ history ∧
        reply (.groupFromGid gid) (.ok (some group)) ∈ history ∧
        (gid = user.gid ∨
          ∃ gids, reply (.getgrouplist user.name user.gid) (.ok gids) ∈ history ∧ gid ∈ gids)

theorem Placed.entitled {i : Nat} {t : Task Op Res RawFd Unit} {call : BpfCall} (h : Placed peer input s i t)
    (hpath : Path (serveClient printable policy t.item) t.history t.rest) (hcall : call ∈ bpfCalls t.history) :
    Entitled policy (peer i) (input i) call.attr t.history := by
  obtain ⟨lead, _, after, hsplit⟩ := exists_of_mem_bpfCalls hcall
  obtain ⟨rest, a, hrun⟩ := hpath.completes
  rw [hsplit, List.append_assoc, List.cons_append] at hrun
  obtain ⟨_, _, _, hclient⟩ := serveClient_before (fun line => Op.noConfusion) hrun
  obtain ⟨request, ⟨bytes, hsome, ⟨_, hread⟩, _, hdecoded⟩, hattr, name, role, hrole, hallowed, group, hgroup,
    cred, user, gid, ⟨_, hpeer⟩, ⟨_, huser⟩, ⟨_, hname⟩, hgid⟩ := handleClient_granted hclient
  have hsub : lead ⊆ t.history := hsplit ▸ List.subset_append_left lead _
  obtain rfl := h.peer _ _ (hsub hpeer)
  refine ⟨bytes, request, hsome, h.input _ _ _ (hsub hread), hsub hdecoded, hattr, name, role, hrole, hallowed,
    group, hgroup, user, gid, hsub huser, hsub hname, hgid.imp_right ?_⟩
  rintro ⟨_, gids, hlisted, hmem⟩
  exact ⟨gids, hsub hlisted, hmem⟩

/-- In every reachable state, what was sent on a connection is a map made for
that connection: its peer asked for it and may have it. A connection gets one
at most, and a map goes to one connection at most. -/
theorem deliveries_own (hidle : start.Idle)
    (hreach : (daemon printable policy).Reaches (hostWorld peer input) start c) :
    (∀ d ∈ Host.delivered c.world, ∃ i k t attr, d = (some (.connection i), some (.map k)) ∧
      c.tasks[i]? = some t ∧ Made c.world t k ∧ (Host.maps c.world)[k]? = some attr ∧
      Entitled policy (peer i) (input i) attr t.history) ∧
      ((Host.delivered c.world).map (·.1)).Nodup ∧ ((Host.delivered c.world).map (·.2)).Nodup := by
  have h := reach_kept hidle hreach
  have htraced := Service.reach_traced hreach
  refine ⟨?_, h.once, ?_⟩
  · rintro ⟨_, _⟩ hd
    obtain ⟨i, rfl, t, ht, -, k, rfl, call, hcall, hmade, hk⟩ := h.delivered _ hd
    have hplaced := h.placed i t ht
    obtain ⟨k', hk', hattr⟩ := hplaced.maps call hcall hmade
    cases hk.symm.trans hk'
    exact ⟨i, k, t, call.attr, rfl, ht, ⟨call, hcall, hmade, hk⟩, hattr,
      hplaced.entitled (htraced.history t (List.mem_of_getElem? ht)) hcall⟩
  · refine (List.nodup_map_iff_inj_on h.once.of_map).mpr ?_
    rintro ⟨_, _⟩ hd ⟨_, _⟩ he rfl
    obtain ⟨i, rfl, t, ht, -, k, rfl, hmade⟩ := h.delivered _ hd
    obtain ⟨j, rfl, u, hu, -, _, ⟨⟩, hmade'⟩ := h.delivered _ he
    rw [h.apart i j t u k ht hu hmade hmade']

end

-- ---------------------------------------------------------------------------
-- Two clients
-- ---------------------------------------------------------------------------

def Host.empty : Host := ⟨fun _ => none, 0, [], []⟩

def fileMap (s : Host) (fd : RawFd) (attr : BpfAttr) : Host :=
  { s with table := Function.update s.table fd (some (.map s.maps.length)), maps := s.maps ++ [attr] }

/-- Connections get number 5, and maps 7 or 8. -/
def hostStrategy (s : Host) : (op : Op) → Res op × Host
  | .accept =>
    if s.table 5 = none then
      (.ok 5, { s with
        table := Function.update s.table 5 (some (.connection s.connections))
        connections := s.connections + 1 })
    else (.error "Too many open files", s)
  | .bpf _ attr _ =>
    if s.table 7 = none then (7, fileMap s 7 attr)
    else if s.table 8 = none then (8, fileMap s 8 attr) else (-1, s)
  | .sendmsg stream fd _ => (.ok 1, { s with delivered := s.delivered ++ [(s.table stream, s.table fd)] })
  | .close stream => ((), { s with table := Function.update s.table stream none })
  | op => (hashMapClient op, s)

abbrev tracerWorld : World Op Res := hostWorld (fun _ => ⟨1000, 4242⟩) fun _ => [0]

theorem hostStrategy_ok (s : Host) (op : Op) :
    hostEffect (fun _ => ⟨1000, 4242⟩) (fun _ => [0]) s op (hostStrategy s op).1 (hostStrategy s op).2 := by
  cases op with
  | accept =>
    by_cases hfree : s.table 5 = none
    · simp [hostStrategy, hostEffect, hfree]
    · simp [hostStrategy, hostEffect, hfree]
  | bpf =>
    by_cases hseven : s.table 7 = none
    · exact .inr ⟨7, by decide, by simp [hostStrategy, hseven], hseven, by simp [hostStrategy, hseven, fileMap]⟩
    · by_cases height : s.table 8 = none
      · exact .inr ⟨8, by decide, by simp [hostStrategy, hseven, height], height,
          by simp [hostStrategy, hseven, height, fileMap]⟩
      · exact .inl (by simp [hostStrategy, hseven, height])
  | peerCredentials => exact ⟨rfl, fun _ _ => rfl⟩
  | read => exact ⟨rfl, fun _ _ => List.infix_refl _⟩
  | _ => rfl

/-- One more client has been served. -/
def servedNext (s : Host) (tasks : List (Task Op Res RawFd Unit)) : Threads tracerWorld RawFd Unit :=
  let round := acceptConnection.play (W := tracerWorld) hostStrategy s
  let task := (serveClient (fun _ => true) Policy.default 5).play (W := tracerWorld) hostStrategy round.2.2
  ⟨task.2.2, [], acceptConnection, tasks ++ [⟨5, round.1.map Event.reply, task.1.map Event.reply, .ret ()⟩]⟩

theorem servedNext_steps (tasks : List (Task Op Res RawFd Unit)) {s : Host}
    (hfree : (acceptConnection.play (W := tracerWorld) hostStrategy s).2.1 = some 5) :
    Relation.ReflTransGen ((daemon (fun _ => true) Policy.default).Step tracerWorld)
      ⟨s, [], acceptConnection, tasks⟩ (servedNext s tasks) := by
  have hround := exec_play (W := tracerWorld) hostStrategy hostStrategy_ok acceptConnection s
  rw [hfree] at hround
  exact Service.serve (S := daemon (fun _ => true) Policy.default) tasks hround
    (exec_play (W := tracerWorld) hostStrategy hostStrategy_ok (serveClient (fun _ => true) Policy.default 5) _)

def firstServed : Threads tracerWorld RawFd Unit := servedNext .empty []

/-- Both clients had number 5. -/
def bothServed : Threads tracerWorld RawFd Unit := servedNext firstServed.world firstServed.tasks

theorem bothServed_reached :
    (daemon (fun _ => true) Policy.default).Reaches tracerWorld .empty bothServed :=
  (servedNext_steps [] rfl).trans (servedNext_steps firstServed.tasks rfl)

theorem two_deliveries_own :
    Host.delivered bothServed.world =
      [(some (.connection 0), some (.map 0)), (some (.connection 1), some (.map 1))] ∧
    ∃ t, bothServed.tasks[1]? = some t ∧ Entitled Policy.default ⟨1000, 4242⟩ [0] countersAttr t.history := by
  have hdelivered : Host.delivered bothServed.world =
      [(some (.connection 0), some (.map 0)), (some (.connection 1), some (.map 1))] := by decide
  have hidle : Host.empty.Idle := ⟨nofun, rfl, rfl, rfl⟩
  obtain ⟨i, k, t, attr, hd, ht, -, hattr, hentitled⟩ := (deliveries_own hidle bothServed_reached).1
    (some (.connection 1), some (.map 1)) (by simp [hdelivered])
  cases hd
  have hsame : (Host.maps bothServed.world)[1]? = some countersAttr := rfl
  cases hattr.symm.trans hsame
  exact ⟨hdelivered, t, ht, hentitled⟩

end BpfRbacd.Daemon
