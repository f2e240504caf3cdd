import BpfRbacd.Lib.Service

/-!
# Output that can fail

A write that fails may have left a part of its data. `Poured` is what a list of
writes leaves, whatever became of each.

A program that prints has printing among its operations, beside those it had
before (`PrintOp`). A text that cannot be printed ends the program in a panic,
which is not an error that it returns.
-/

namespace BpfRbacd.Interaction

-- ---------------------------------------------------------------------------
-- Writes
-- ---------------------------------------------------------------------------

section
variable {β ε : Type}

/-- What a write adds to what is there. -/
def Appends (data : List β) (r : Except ε Unit) (out out' : List β) : Prop :=
  match r with
  | .ok _ => out' = out ++ data
  | .error _ => ∃ part, part <+: data ∧ out' = out ++ part

/-- One write after the other. -/
def Poured : List (List β × Except ε Unit) → List β → List β → Prop
  | [], out, out' => out' = out
  | (data, r) :: writes, out, out' => ∃ m, Appends data r out m ∧ Poured writes m out'

variable {data out m out' : List β} {r : Except ε Unit} {writes : List (List β × Except ε Unit)}

theorem Appends.grows (h : Appends data r out out') : out <+: out' := by
  cases r with
  | ok => exact ⟨data, h.symm⟩
  | error =>
    obtain ⟨part, -, rfl⟩ := h
    exact List.prefix_append _ _

theorem Poured.snoc (h : Poured writes out m) (hlast : Appends data r m out') :
    Poured (writes ++ [(data, r)]) out out' := by
  induction writes generalizing out with
  | nil =>
    obtain rfl : m = out := h
    exact ⟨out', hlast, rfl⟩
  | cons w writes ih =>
    obtain ⟨m', hfirst, hrest⟩ := h
    exact ⟨m', hfirst, ih hrest⟩

/-- Writes that all succeed leave all their data. -/
theorem Poured.ok (h : Poured writes out out') (hok : ∀ w ∈ writes, w.2 = .ok ()) :
    out' = out ++ writes.flatMap Prod.fst := by
  induction writes generalizing out with
  | nil => exact h.trans (List.append_nil out).symm
  | cons w writes ih =>
    obtain ⟨data, r⟩ := w
    obtain ⟨hr, hrest⟩ := List.forall_mem_cons.mp hok
    obtain rfl : r = .ok () := hr
    obtain ⟨_, rfl, hpoured⟩ := h
    rw [ih hpoured hrest, List.flatMap_cons, List.append_assoc]

theorem poured_singleton : Poured [(data, r)] out out' ↔ Appends data r out out' := by
  constructor
  · rintro ⟨_, h, rfl⟩
    exact h
  · intro h
    exact ⟨_, h, rfl⟩

end

-- ---------------------------------------------------------------------------
-- Programs that print
-- ---------------------------------------------------------------------------

inductive PrintOp (Op : Type) where
  | op (op : Op)
  | print (text : String)

@[reducible] def PrintRes {Op : Type} (Res : Op → Type) : PrintOp Op → Type
  | .op op => Res op
  | .print _ => Except String Unit

/-- How a program fails: by the error it returns, or by a panic. -/
inductive Failure (ε : Type) where
  | error (e : ε)
  | panicked (message : String)
  deriving DecidableEq

variable {Op : Type} {Res : Op → Type} {α β ε : Type}

abbrev Printing (Op : Type) (Res : Op → Type) (ε : Type) := Fallible (PrintOp Op) (PrintRes Res) (Failure ε)

def printFailure (e : String) : Failure ε := .panicked ("failed printing to stdout: " ++ e)

/-- The `println!` macro. -/
def println (line : String) : Printing Op Res ε Unit := ExceptT.mk do
  let r : Except String Unit ← perform (PrintOp.print (line ++ "\n"))
  return r.mapError printFailure

def Prog.printing : Prog Op Res α → Prog (PrintOp Op) (PrintRes Res) α
  | .ret a => .ret a
  | .call op next => .call (.op op) fun r => (next r).printing

/-- A program that prints nothing. -/
def quietly (x : Fallible Op Res ε α) : Printing Op Res ε α := ExceptT.mk do
  let r ← x.run.printing
  return r.mapError .error

/-- The lines in a row, and what comes after them. -/
def printlns (lines : List String) (next : Printing Op Res ε α) : Printing Op Res ε α :=
  lines.foldr (fun line rest => println line >>= fun _ => rest) next

-- ---------------------------------------------------------------------------
-- Runs
-- ---------------------------------------------------------------------------

section
variable {W : World (PrintOp Op) (PrintRes Res)} {s s' : W.State} {tr t₁ t₂ : List (Event W)}

def Event.inner? : Event W → Option (Reply Op Res)
  | ⟨_, .op op, r⟩ => some ⟨(), op, r⟩
  | ⟨_, .print _, _⟩ => none

def Event.print? : Event W → Option (String × Except String Unit)
  | ⟨_, .op _, _⟩ => none
  | ⟨_, .print text, r⟩ => some (text, r)

/-- The operations of a run that are not printing. -/
def inner (tr : List (Event W)) : List (Reply Op Res) := tr.filterMap Event.inner?

/-- The texts of a run and what became of them. -/
def prints (tr : List (Event W)) : List (String × Except String Unit) := tr.filterMap Event.print?

theorem inner_append : inner (t₁ ++ t₂) = inner t₁ ++ inner t₂ := List.filterMap_append

theorem prints_append : prints (t₁ ++ t₂) = prints t₁ ++ prints t₂ := List.filterMap_append

theorem exec_printing {p : Prog Op Res α} {a : α} (h : Exec W p.printing s tr a s') :
    Exec (World.free Op Res) p () (inner tr) a () ∧ prints tr = [] := by
  induction p generalizing s tr with
  | ret b =>
    obtain ⟨rfl, rfl, -⟩ := exec_ret.mp h
    exact ⟨.ret, rfl⟩
  | call op next ih =>
    obtain ⟨r, m, rest, -, hrest, rfl⟩ := exec_call.mp h
    obtain ⟨hexec, hnone⟩ := ih r hrest
    exact ⟨Exec.call trivial hexec, hnone⟩

theorem exec_quietly {x : Fallible Op Res ε α} {r : Except (Failure ε) α}
    (h : Exec W (quietly x).run s tr r s') :
    ∃ q, Exec (World.free Op Res) x.run () (inner tr) q () ∧ prints tr = [] ∧ r = q.mapError .error := by
  obtain ⟨q, m, t₁, t₂, hrun, hret, rfl⟩ := exec_bind.mp h
  obtain ⟨rfl, rfl, -⟩ := exec_pure.mp hret
  obtain ⟨hexec, hnone⟩ := exec_printing hrun
  rw [List.append_nil]
  exact ⟨q, hexec, hnone, rfl⟩

/-- A quiet part first: it fails, or the rest runs. -/
theorem exec_quietly_bind {x : Fallible Op Res ε α} {f : α → Printing Op Res ε β} {r : Except (Failure ε) β}
    (h : Exec W (quietly x >>= f).run s tr r s') :
    (∃ e, Exec (World.free Op Res) x.run () (inner tr) (.error e) () ∧ prints tr = [] ∧ r = .error (.error e)) ∨
      ∃ a m t₁ t₂, Exec (World.free Op Res) x.run () (inner t₁) (.ok a) () ∧ prints t₁ = [] ∧
        Exec W (f a).run m t₂ r s' ∧ tr = t₁ ++ t₂ := by
  rcases exec_run_bind.mp h with ⟨e, hfail, rfl⟩ | ⟨a, m, t₁, t₂, hfirst, hrest, rfl⟩
  · obtain ⟨q, hexec, hnone, hq⟩ := exec_quietly hfail
    cases q with
    | error e' =>
      cases hq
      exact .inl ⟨e', hexec, hnone, rfl⟩
    | ok => cases hq
  · obtain ⟨q, hexec, hnone, hq⟩ := exec_quietly hfirst
    cases q with
    | error => cases hq
    | ok a' =>
      cases hq
      exact .inr ⟨a, m, t₁, t₂, hexec, hnone, hrest, rfl⟩

theorem exec_println {line : String} {r : Except (Failure ε) Unit}
    (h : Exec W (println line : Printing Op Res ε Unit).run s tr r s') :
    ∃ a : Except String Unit, tr = [⟨s, .print (line ++ "\n"), a⟩] ∧ r = a.mapError printFailure := by
  obtain ⟨a, m, t₁, t₂, hprint, hret, rfl⟩ := exec_bind.mp h
  obtain ⟨-, rfl⟩ := exec_perform.mp hprint
  obtain ⟨rfl, rfl, -⟩ := exec_pure.mp hret
  exact ⟨a, rfl, rfl⟩

/-- The text cannot be printed, or the rest runs. -/
theorem exec_println_bind {line : String} {f : Unit → Printing Op Res ε β} {r : Except (Failure ε) β}
    (h : Exec W (println line >>= f).run s tr r s') :
    (∃ e : String, tr = [⟨s, .print (line ++ "\n"), .error e⟩] ∧ r = .error (printFailure e)) ∨
      ∃ m rest, Exec W (f ()).run m rest r s' ∧ tr = ⟨s, .print (line ++ "\n"), .ok ()⟩ :: rest := by
  rcases exec_run_bind.mp h with ⟨e, hfail, rfl⟩ | ⟨_, m, t₁, rest, hfirst, hrest, rfl⟩
  · obtain ⟨a, rfl, ha⟩ := exec_println hfail
    cases a with
    | error e' =>
      cases ha
      exact .inl ⟨e', rfl, rfl⟩
    | ok => cases ha
  · obtain ⟨a, rfl, ha⟩ := exec_println hfirst
    cases a with
    | error => cases ha
    | ok => exact .inr ⟨m, rest, hrest, rfl⟩

/-- One of the lines could not be printed. -/
structure Panics (lines : List String) (tr : List (Event W)) (r : Except (Failure ε) α) : Prop where
  silent : inner tr = []
  tried : ∀ w ∈ prints tr, ∃ line ∈ lines, w.1 = line ++ "\n"
  failed : ∃ e, r = .error (printFailure e)

theorem exec_printlns {lines : List String} {next : Printing Op Res ε α} {r : Except (Failure ε) α}
    (h : Exec W (printlns lines next).run s tr r s') :
    Panics lines tr r ∨
      ∃ m t₁ t₂, inner t₁ = [] ∧ prints t₁ = lines.map (fun line => (line ++ "\n", .ok ())) ∧
        Exec W next.run m t₂ r s' ∧ tr = t₁ ++ t₂ := by
  induction lines generalizing s tr with
  | nil => exact .inr ⟨s, [], tr, rfl, rfl, h, rfl⟩
  | cons line lines ih =>
    rcases exec_println_bind h with ⟨e, rfl, rfl⟩ | ⟨m, rest, hrest, rfl⟩
    · refine .inl ⟨rfl, fun w hw => ⟨line, List.mem_cons_self, ?_⟩, e, rfl⟩
      exact congrArg Prod.fst (List.mem_singleton.mp hw)
    rcases ih hrest with ⟨hsilent, htried, hfailed⟩ | ⟨m', t₁, t₂, hsilent, hprints, hnext, rfl⟩
    · refine .inl ⟨hsilent, List.forall_mem_cons.mpr ⟨⟨line, List.mem_cons_self, rfl⟩, ?_⟩, hfailed⟩
      intro w hw
      obtain ⟨line', hmem, hline⟩ := htried w hw
      exact ⟨line', List.mem_cons_of_mem _ hmem, hline⟩
    · exact .inr ⟨m', ⟨s, .print (line ++ "\n"), .ok ()⟩ :: t₁, t₂, hsilent, congrArg (List.cons _) hprints,
        hnext, rfl⟩

end

end BpfRbacd.Interaction
