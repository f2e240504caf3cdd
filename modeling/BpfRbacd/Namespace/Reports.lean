import BpfRbacd.Lib.Numeral
import BpfRbacd.Namespace.Restore

/-!
# What an error says

The two functions stop at the first step that fails, up to the mount or
unmount; the way back is taken whatever came of that, and its outcome is not
looked at. An error carries the text of the step that failed, and no two steps
share a text, so the error tells how far the call went (`error_names_step`) and
where the thread was left (`error_locates_thread`).
-/

namespace BpfRbacd.Namespace

open Interaction

-- ---------------------------------------------------------------------------
-- The steps
-- ---------------------------------------------------------------------------

def openText (proc : Proc) (nsType : NsType) : String := "Failed to open " ++ nsPath proc nsType

/-- The steps on the way in, each with the text of its failure. -/
def NsFiles.wayIn (files : NsFiles) (pid : UInt32) : List (Op × String) := [
  (.openNs .self .user, openText .self .user),
  (.openNs .self .mnt, openText .self .mnt),
  (.openNs (.pid pid) .user, openText (.pid pid) .user),
  (.openNs (.pid pid) .mnt, openText (.pid pid) .mnt),
  (.setns files.targetUserns .newUser, "Failed to enter target user namespace"),
  (.setns files.targetMntns .newNs, "Failed to enter target mount namespace")]

def DelegationCall.remount : DelegationCall → Op × String
  | .delegate _ mountPath opts =>
    (.mount (some "bpf") mountPath (some "bpf") [.nosuid, .nodev, .noexec, .relatime]
      (some opts.toMountData), "Failed to mount bpffs in target namespace")
  | .revoke _ mountPath => (.umount mountPath, "Failed to unmount bpffs")

def NsFiles.wayBack (files : NsFiles) : List Op :=
  [.setns files.selfUserns .newUser, .setns files.selfMntns .newNs]

/-- The texts of the steps that are looked at. -/
def DelegationCall.texts (call : DelegationCall) : List String := [
  openText .self .user, openText .self .mnt, openText (.pid call.target.pid) .user,
  openText (.pid call.target.pid) .mnt, "Failed to enter target user namespace",
  "Failed to enter target mount namespace", call.remount.2]

section
variable {W : World Op Res} {s s' : W.State} {tr : List (Event W)} {target : TargetNamespace}
  {call : DelegationCall} {r : Except String Unit}

def succeeded (e : Event W) : Bool :=
  match e with
  | ⟨_, .ino .., .error _⟩ | ⟨_, .openNs .., .error _⟩ | ⟨_, .setns .., .error _⟩
  | ⟨_, .mount .., .error _⟩ | ⟨_, .umount _, .error _⟩ => false
  | _ => true

/-- The namespace files that were opened. -/
def openedFiles (tr : List (Event W)) : List NsFile :=
  tr.filterMap fun
    | ⟨_, .openNs .., .ok file⟩ => some file
    | _ => none

def NsFiles.all (files : NsFiles) : List NsFile :=
  [files.selfUserns, files.selfMntns, files.targetUserns, files.targetMntns]

/-- The steps were taken one after the other and succeeded. -/
def Taken (steps : List (Op × String)) (tr : List (Event W)) : Prop :=
  tr.map (·.op) = steps.map (·.1) ∧ ∀ e ∈ tr, succeeded e = true

variable (call) in
/-- How a call goes: a step on the way in fails and is the last one, or the
call goes all the way. -/
inductive Goes (files : NsFiles) : List (Event W) → Except String Unit → Prop
  | stopped (before : List (Op × String)) (tr : List (Event W)) {rest : List (Op × String)} {text : String}
      {e : Event W} :
      files.wayIn call.target.pid = before ++ (e.op, text) :: rest → Taken before tr → succeeded e = false →
      Goes files (tr ++ [e]) (.error text)
  | through (tr : List (Event W)) {back : List (Event W)} {e : Event W} :
      Taken (files.wayIn call.target.pid) tr → e.op = call.remount.1 → back.map (·.op) = files.wayBack →
      Goes files (tr ++ e :: back) (if succeeded e then .ok () else .error call.remount.2)

-- ---------------------------------------------------------------------------
-- A call goes this way
-- ---------------------------------------------------------------------------

theorem open_bind_error {f : NsFile → NamespaceM α} {text : String}
    (h : Exec W (openNsFd proc nsType >>= f).run s tr (.error text) s') :
    (∃ e, tr = [⟨s, .openNs proc nsType, .error e⟩] ∧ text = openText proc nsType) ∨
      ∃ file m t, Exec W (f file).run m t (.error text) s' ∧ tr = ⟨s, .openNs proc nsType, .ok file⟩ :: t := by
  rcases exec_run_bind.mp h with ⟨_, hopen, hr⟩ | ⟨file, m, _, t, hopen, hrest, rfl⟩
  · obtain ⟨answer, hrun, ha⟩ := exec_context.mp hopen
    obtain ⟨-, rfl⟩ := exec_issue.mp hrun
    cases answer with
    | error e =>
      cases hr
      cases ha
      exact .inl ⟨e, rfl, rfl⟩
    | ok => cases ha
  · obtain ⟨answer, hrun, ha⟩ := exec_context.mp hopen
    obtain ⟨-, rfl⟩ := exec_issue.mp hrun
    cases answer with
    | error => cases ha
    | ok =>
      cases ha
      exact .inr ⟨file, m, t, hrest, rfl⟩

/-- Opening fails at one of the four files. -/
theorem openNamespaces_error {text : String}
    (h : Exec W (openNamespaces call.target).run s tr (.error text) s') :
    (∃ proc nsType, text = openText proc nsType) ∧
      ∃ files, openedFiles tr <+: files.all ∧ Goes call files tr (.error text) := by
  let unopened : NsFile := ⟨.self, .user, 0⟩
  unfold openNamespaces at h
  rcases open_bind_error h with ⟨e, rfl, rfl⟩ | ⟨f₁, m₁, _, h₁, rfl⟩
  · refine ⟨⟨_, _, rfl⟩, ⟨unopened, unopened, unopened, unopened⟩, List.nil_prefix, .stopped [] [] rfl ?_ rfl⟩
    simp [Taken]
  rcases open_bind_error h₁ with ⟨e, rfl, rfl⟩ | ⟨f₂, m₂, _, h₂, rfl⟩
  · let files : NsFiles := ⟨f₁, unopened, unopened, unopened⟩
    refine ⟨⟨_, _, rfl⟩, files, ⟨files.all.drop 1, rfl⟩, ?_⟩
    refine .stopped ((files.wayIn call.target.pid).take 1) [_] rfl ?_ rfl
    simp [Taken, NsFiles.wayIn, succeeded]
  rcases open_bind_error h₂ with ⟨e, rfl, rfl⟩ | ⟨f₃, m₃, _, h₃, rfl⟩
  · let files : NsFiles := ⟨f₁, f₂, unopened, unopened⟩
    refine ⟨⟨_, _, rfl⟩, files, ⟨files.all.drop 2, rfl⟩, ?_⟩
    refine .stopped ((files.wayIn call.target.pid).take 2) [_, _] rfl ?_ rfl
    simp [Taken, NsFiles.wayIn, succeeded]
  rcases open_bind_error h₃ with ⟨e, rfl, rfl⟩ | ⟨f₄, m₄, _, h₄, rfl⟩
  · let files : NsFiles := ⟨f₁, f₂, f₃, unopened⟩
    refine ⟨⟨_, _, rfl⟩, files, ⟨files.all.drop 3, rfl⟩, ?_⟩
    refine .stopped ((files.wayIn call.target.pid).take 3) [_, _, _] rfl ?_ rfl
    simp [Taken, NsFiles.wayIn, succeeded]
  obtain ⟨-, hok, -⟩ := exec_run_pure.mp h₄
  cases hok

/-- The mount or unmount, with its outcome. -/
theorem act_goes (h : Exec W call.act.run s tr r s') :
    ∃ e : Event W, tr = [e] ∧ e.op = call.remount.1 ∧
      r = if succeeded e then .ok () else .error call.remount.2 := by
  cases call with
  | delegate target mountPath opts =>
    obtain ⟨a, hmount, rfl⟩ := exec_context.mp h
    obtain ⟨-, rfl⟩ := exec_issue.mp hmount
    refine ⟨_, rfl, rfl, ?_⟩
    cases a <;> rfl
  | revoke target mountPath =>
    obtain ⟨a, humount, rfl⟩ := exec_context.mp h
    obtain ⟨-, rfl⟩ := exec_issue.mp humount
    refine ⟨_, rfl, rfl, ?_⟩
    cases a <;> rfl

theorem call_goes (h : Exec W call.body.run s tr r s') :
    ∃ files, openedFiles tr <+: files.all ∧ Goes call files tr r := by
  rw [DelegationCall.body_eq] at h
  rcases inTargetNamespace_ok h with ⟨e, hopen, rfl⟩ | ⟨files, m, t₁, t₂, hopen, hvisit, rfl⟩
  · exact (openNamespaces_error hopen).2
  obtain ⟨s₁, s₂, s₃, -, -, -, -, rfl⟩ := openNamespaces_ok hopen
  cases hvisit with
  | userRefused =>
    refine ⟨files, ⟨[], rfl⟩, .stopped ((files.wayIn call.target.pid).take 4) [_, _, _, _] rfl ?_ rfl⟩
    simp [Taken, NsFiles.wayIn, succeeded]
  | mountRefused =>
    refine ⟨files, ⟨[], rfl⟩, .stopped ((files.wayIn call.target.pid).take 5) [_, _, _, _, _] rfl ?_ rfl⟩
    simp [Taken, NsFiles.wayIn, succeeded]
  | visited _ _ hact =>
    obtain ⟨e, rfl, hop, rfl⟩ := act_goes hact
    refine ⟨files, ?_, .through [_, _, _, _, _, _] (by simp [Taken, NsFiles.wayIn, succeeded]) hop rfl⟩
    obtain ⟨m, op, a⟩ := e
    cases call <;> cases hop <;> exact ⟨[], rfl⟩

-- ---------------------------------------------------------------------------
-- The texts
-- ---------------------------------------------------------------------------

theorem nsPath_nsType {proc proc' : Proc} {nsType nsType' : NsType}
    (h : nsPath proc nsType = nsPath proc' nsType') : nsType = nsType' := by
  have hlast := congrArg (fun text => text.toList.getLast?) h
  cases nsType <;> cases nsType' <;> simp [nsPath, List.getLast?_cons, List.getLast?_append] at hlast ⊢

/-- A process number is not `self`. -/
theorem nsPath_self_ne (pid : UInt32) (nsType nsType' : NsType) :
    nsPath .self nsType ≠ nsPath (.pid pid) nsType' := by
  intro h
  obtain rfl := nsPath_nsType h
  have hproc := (String.append_left_inj _).mp ((String.append_left_inj _).mp h)
  have hself : "self" = toString pid := (String.append_right_inj _).mp hproc
  have hdigits : "self".toList = Nat.toDigits 10 pid.toNat := by
    rw [hself]
    exact Nat.toList_repr
  have hletter : 's' ∈ Nat.toDigits 10 pid.toNat := hdigits ▸ List.mem_cons_self
  exact Numeral.not_mem_toDigits (by simp) (by simp) _ rfl hletter

theorem openText_inj {proc proc' : Proc} {nsType nsType' : NsType} :
    openText proc nsType = openText proc' nsType' ↔ nsPath proc nsType = nsPath proc' nsType' :=
  String.append_right_inj _

/-- "Failed to o". -/
theorem openText_ne {proc : Proc} {nsType : NsType} {text : String} (h : text.toList[10]? ≠ some 'o') :
    openText proc nsType ≠ text := by
  rintro rfl
  exact h (by simp [openText])

theorem texts_nodup (call : DelegationCall) : call.texts.Nodup := by
  have hself : ∀ nsType nsType', openText .self nsType ≠ openText (.pid call.target.pid) nsType' :=
    fun nsType nsType' heq => nsPath_self_ne _ _ _ (openText_inj.mp heq)
  have hkind : ∀ proc, openText proc .user ≠ openText proc .mnt := by
    intro proc heq
    cases nsPath_nsType (openText_inj.mp heq)
  have hopen : ∀ proc nsType, openText proc nsType ≠ "Failed to enter target user namespace" ∧
      openText proc nsType ≠ "Failed to enter target mount namespace" ∧
      openText proc nsType ≠ call.remount.2 := by
    intro proc nsType
    refine ⟨openText_ne (by simp), openText_ne (by simp), openText_ne ?_⟩
    cases call <;> simp [DelegationCall.remount]
  have henter : "Failed to enter target user namespace" ≠ call.remount.2 ∧
      "Failed to enter target mount namespace" ≠ call.remount.2 := by
    cases call <;> simp [DelegationCall.remount]
  simp [DelegationCall.texts, hself, hkind, hopen, henter]

theorem wayIn_texts (files : NsFiles) (call : DelegationCall) :
    (files.wayIn call.target.pid).map (·.2) ++ [call.remount.2] = call.texts := rfl

theorem text_eq_iff {k n : Nat} {text text' : String} (hn : call.texts[n]? = some text)
    (hk : call.texts[k]? = some text') : text = text' ↔ k = n := by
  constructor
  · rintro rfl
    have hlt : k < call.texts.length := (List.getElem?_eq_some_iff.mp hk).1
    exact (List.getElem?_inj hlt (texts_nodup call)).mp (hk.trans hn.symm)
  · rintro rfl
    exact Option.some.inj (hn.symm.trans hk)

/-- After steps that succeeded. -/
theorem failed_at_iff {tr back : List (Event W)} {e : Event W} (hok : ∀ e ∈ tr, succeeded e = true) {k : Nat}
    (hk : k ≤ tr.length ∨ back = []) :
    (∃ x, (tr ++ e :: back)[k]? = some x ∧ succeeded x = false) ↔ k = tr.length ∧ succeeded e = false := by
  rcases Nat.lt_trichotomy k tr.length with hlt | rfl | hgt
  · rw [List.getElem?_append_left hlt]
    constructor
    · rintro ⟨x, hx, hfailed⟩
      rw [hok x (List.mem_of_getElem? hx)] at hfailed
      cases hfailed
    · rintro ⟨rfl, -⟩
      exact absurd hlt (Nat.lt_irrefl _)
  · simp
  · obtain rfl := hk.resolve_left (Nat.not_le.mpr hgt)
    rw [List.getElem?_eq_none (by simp; omega)]
    constructor
    · rintro ⟨x, hx, -⟩
      cases hx
    · rintro ⟨rfl, -⟩
      exact absurd hgt (Nat.lt_irrefl _)

theorem Taken.length {steps : List (Op × String)} (h : Taken steps tr) : tr.length = steps.length := by
  simpa using congrArg List.length h.1

/-- The text of the error is that of the step that failed. -/
theorem Goes.error_iff {files : NsFiles} (h : Goes call files tr r) {k : Nat} {text : String}
    (hk : call.texts[k]? = some text) : r = .error text ↔ ∃ e, tr[k]? = some e ∧ succeeded e = false := by
  cases h with
  | @stopped before tr rest text' e hsplit htaken hfailed =>
    have htext : call.texts[before.length]? = some text' := by
      rw [← wayIn_texts files call, hsplit]
      simp
    rw [failed_at_iff htaken.2 (.inr rfl), htaken.length, and_iff_left hfailed, ← text_eq_iff htext hk]
    simp
  | @through tr back e htaken hop hback =>
    have hlength : tr.length = 6 := htaken.length
    have hlt : k < call.texts.length := (List.getElem?_eq_some_iff.mp hk).1
    rw [failed_at_iff htaken.2 (.inl ?_), hlength]
    · cases hsucceeded : succeeded e with
      | true => simp
      | false =>
        have hremount : call.texts[6]? = some call.remount.2 := rfl
        rw [and_iff_left rfl, ← text_eq_iff hremount hk]
        simp
    · rw [hlength]
      exact Nat.le_of_lt_succ hlt

theorem Goes.ok_iff {files : NsFiles} (h : Goes call files tr r) :
    r = .ok () ↔ ∃ e, tr[6]? = some e ∧ succeeded e = true := by
  cases h with
  | @stopped before tr rest text e hsplit htaken hfailed =>
    have hsix : before.length + (rest.length + 1) = 6 := by
      simpa [NsFiles.wayIn] using (congrArg List.length hsplit).symm
    rw [List.getElem?_eq_none (by simp [htaken.length]; omega)]
    simp
  | @through tr back e htaken hop hback =>
    have hlength : tr.length = 6 := htaken.length
    rw [List.getElem?_append_right (Nat.le_of_eq hlength), hlength]
    cases hsucceeded : succeeded e <;> simp [hsucceeded]

/-- All that a call does if nothing on the way in fails. -/
def DelegationCall.operations (call : DelegationCall) (files : NsFiles) : List Op :=
  (files.wayIn call.target.pid).map (·.1) ++ call.remount.1 :: files.wayBack

theorem Goes.operations {files : NsFiles} (h : Goes call files tr r) :
    tr.map (·.op) <+: call.operations files ∧ (6 < tr.length → tr.map (·.op) = call.operations files) := by
  cases h with
  | @stopped before tr rest text e hsplit htaken hfailed =>
    have hsix : before.length + (rest.length + 1) = 6 := by
      simpa [NsFiles.wayIn] using (congrArg List.length hsplit).symm
    constructor
    · rw [DelegationCall.operations, hsplit, List.map_append, htaken.1]
      exact ⟨rest.map (·.1) ++ call.remount.1 :: files.wayBack, by simp⟩
    · intro hlong
      simp [htaken.length] at hlong
      omega
  | @through tr back e htaken hop hback =>
    have hall : (tr ++ e :: back).map (·.op) = call.operations files := by
      rw [List.map_append, List.map_cons, htaken.1, hop, hback, DelegationCall.operations]
    exact ⟨hall ▸ List.prefix_refl _, fun _ => hall⟩

variable (call) in
/-- An error names the step that failed. A call takes its steps in order with
the files it opened, and it goes back once it has come to the mount or unmount. -/
theorem error_names_step (h : Exec W call.body.run s tr r s') :
    call.texts.Nodup ∧ (∀ (k : Nat) (text : String), call.texts[k]? = some text →
      (r = .error text ↔ ∃ e, tr[k]? = some e ∧ succeeded e = false)) ∧
    (r = .ok () ↔ ∃ e, tr[6]? = some e ∧ succeeded e = true) ∧
    ∃ files, openedFiles tr <+: files.all ∧ tr.map (·.op) <+: call.operations files ∧
      (6 < tr.length → tr.map (·.op) = call.operations files) := by
  obtain ⟨files, hopened, hgoes⟩ := call_goes h
  exact ⟨texts_nodup call, fun _ _ => hgoes.error_iff, hgoes.ok_iff, files, hopened, hgoes.operations⟩

end

/-- The error of `delegation false` is its sixth step's. -/
theorem unreachable_step_named : ∃ e, (delegation false).1[5]? = some e ∧ succeeded e = false :=
  ((error_names_step (.delegate ⟨4242, 2⟩ "/sys/fs/bpf" .allowAll) (delegation_exec false)).2.1 5 _ rfl).mp rfl

-- ---------------------------------------------------------------------------
-- Where the thread is
-- ---------------------------------------------------------------------------

/-- After any error but two the thread is where it was. After one of them it
is in the target's user namespace, and the other says nothing about it. -/
theorem error_locates_thread (call : DelegationCall) (thread thread' : Thread) (tr : List (Event threadWorld))
    (text : String) (h : Exec threadWorld call.body.run thread tr (.error text) thread') :
    (text ≠ "Failed to enter target mount namespace" → text ≠ call.remount.2 → thread' = thread) ∧
      (text = "Failed to enter target mount namespace" →
        ∃ file ∈ openedFiles tr, file.proc = .pid call.target.pid ∧ file.nsType = .user ∧
          thread' = thread.enter file .newUser) := by
  rw [DelegationCall.body_eq] at h
  rcases inTargetNamespace_ok h with ⟨e, hopen, hr⟩ | ⟨files, m, t₁, t₂, hopen, hvisit, rfl⟩
  · cases hr
    obtain ⟨proc, nsType, rfl⟩ := (openNamespaces_error hopen).1
    refine ⟨fun _ _ => (openNamespaces_thread hopen).1, fun htext => absurd htext (openText_ne (by simp))⟩
  · obtain rfl : m = thread := (openNamespaces_thread hopen).1
    obtain ⟨s₁, s₂, s₃, -, -, ⟨htarget, hnsType, -⟩, -, rfl⟩ := openNamespaces_ok hopen
    cases hvisit with
    | userRefused huser =>
      obtain rfl : thread' = m := huser
      exact ⟨fun _ _ => rfl, fun htext => absurd htext (by simp)⟩
    | mountRefused huser hmnt =>
      refine ⟨fun hne => absurd rfl hne, fun _ => ⟨files.targetUserns, by simp [openedFiles], htarget, hnsType, ?_⟩⟩
      exact Eq.trans hmnt huser
    | visited _ _ hact =>
      obtain ⟨e, -, -, hr⟩ := act_goes hact
      obtain rfl : text = call.remount.2 := by
        split at hr
        · cases hr
        · exact Except.error.inj hr
      refine ⟨fun _ hne => absurd rfl hne, fun htext => absurd htext ?_⟩
      cases call <;> simp [DelegationCall.remount]

theorem unreachable_thread_moved : ∃ file, (delegation false).2.2 = Thread.enter ⟨1, 10⟩ file .newUser := by
  have hlocated := error_locates_thread (.delegate ⟨4242, 2⟩ "/sys/fs/bpf" .allowAll) ⟨1, 10⟩
    (delegation false).2.2 (delegation false).1 _ (delegation_exec false)
  obtain ⟨file, -, -, -, hthread⟩ := hlocated.2 rfl
  exact ⟨file, hthread⟩

end BpfRbacd.Namespace
