import BpfRbacd.Policy.Default
import Mathlib.Data.List.Find

/-!
# A user in more groups

The roles are tried in one fixed order: the well-known ones by priority, then
all of them as enumerated. More groups match more roles, so a user keeps a
role, but a newly matched one that comes earlier takes the old one's place with
whatever it permits (`Policy.keeps_of_subset`).
-/

namespace BpfRbacd

section
variable {α : Type} [DecidableEq α] {p q : α → Bool} {l : List α} {a : α}

/-- Where more elements qualify, the first of them is the old first, or one
that is new and earlier. -/
theorem find?_grow (hpq : ∀ x, p x = true → q x = true) (h : l.find? p = some a) :
    ∃ b, l.find? q = some b ∧
      (b = a ∨ p b = false ∧ q b = true ∧ l.idxOf b < l.idxOf a) ∧
      (b = a ↔ ∀ x, q x = true → l.idxOf x < l.idxOf a → p x = true) := by
  induction l with
  | nil => cases h
  | cons x l ih =>
    cases hp : p x with
    | true =>
      obtain rfl : x = a := by simpa [hp] using h
      exact ⟨x, by simp [hpq x hp], .inl rfl, by simp⟩
    | false =>
      have hl : l.find? p = some a := by simpa [hp] using h
      have ha : p a = true := List.find?_some hl
      have hxa : x ≠ a := by
        rintro rfl
        simp [ha] at hp
      cases hq : q x with
      | true =>
        have hfirst : (x :: l).idxOf x < (x :: l).idxOf a := by simp [List.idxOf_cons_ne l hxa]
        refine ⟨x, by simp [hq], .inr ⟨hp, hq, hfirst⟩, ?_⟩
        refine iff_of_false hxa fun hnew => ?_
        simpa [hp] using hnew x hq hfirst
      | false =>
        obtain ⟨b, hb, hcases, hiff⟩ := ih hl
        have hshift : ∀ y, q y = true →
            ((x :: l).idxOf y < (x :: l).idxOf a ↔ l.idxOf y < l.idxOf a) := by
          intro y hy
          have hxy : x ≠ y := by
            rintro rfl
            simp [hy] at hq
          rw [List.idxOf_cons_ne l hxy, List.idxOf_cons_ne l hxa, Nat.succ_lt_succ_iff]
        refine ⟨b, by simp [hq, hb], ?_, hiff.trans ?_⟩
        · exact hcases.imp id fun ⟨hnot, hb, hlt⟩ => ⟨hnot, hb, (hshift b hb).mpr hlt⟩
        · constructor
          · intro hnew y hy hlt
            exact hnew y hy ((hshift y hy).mp hlt)
          · intro hnew y hy hlt
            exact hnew y hy ((hshift y hy).mpr hlt)

end

-- ---------------------------------------------------------------------------
-- One order for all roles
-- ---------------------------------------------------------------------------

/-- The roles as `getRoleForGroups` tries them. -/
def Policy.order (policy : Policy) : List String := priority ++ policy.config.roles.keys

def Policy.Precedes (policy : Policy) (a b : String) : Prop :=
  policy.order.idxOf a < policy.order.idxOf b

section
variable {policy : Policy} {userGroups groups : List String}

theorem Policy.getRoleForGroups_eq_find :
    policy.getRoleForGroups userGroups = policy.order.find? (policy.wellKnownMatch userGroups) := by
  have hentries : policy.config.roles.entries.find? (fun entry => entry.2.hasMember userGroups) =
      policy.config.roles.entries.find? (policy.wellKnownMatch userGroups ∘ Sigma.fst) := by
    refine List.find?_congr fun entry hentry => ?_
    obtain ⟨name, role⟩ := entry
    have hrole : policy.config.roles.lookup name = some role := AList.mem_lookup_iff.mpr hentry
    simp [Policy.wellKnownMatch, hrole]
  rw [Policy.getRoleForGroups_eq, Policy.order, List.find?_append, hentries]
  exact congrArg _ List.find?_map.symm

theorem Policy.Matches.mono (hsub : userGroups ⊆ groups) (h : policy.Matches userGroups name) :
    policy.Matches groups name := by
  obtain ⟨role, hrole, hmem⟩ := h
  obtain ⟨group, hgroup, huser⟩ := Role.hasMember_iff.mp hmem
  exact ⟨role, hrole, Role.hasMember_iff.mpr ⟨group, hgroup, hsub huser⟩⟩

/-- The role was matched by joining groups and comes before the old one. -/
structure Policy.Supersedes (policy : Policy) (userGroups groups : List String) (old new : String) :
    Prop where
  matched : policy.Matches groups new
  unmatched : ¬ policy.Matches userGroups new
  precedes : policy.Precedes new old

/-- With the new groups there is a role. It is the old one, with what it permits,
unless a role that comes earlier is matched now; access is kept if every such
role permits the request. -/
def Policy.Keeps (policy : Policy) (userGroups groups : List String) (r : String) (request : Request) : Prop :=
  ∃ r', policy.getRoleForGroups groups = some r' ∧
    (r' = r ∨ policy.Supersedes userGroups groups r r') ∧
    (r' = r ↔ ∀ name, ¬ policy.Supersedes userGroups groups r name) ∧
    ((∀ name, policy.Supersedes userGroups groups r name → policy.isAllowed name request = true) →
      policy.isAllowed r' request = true)

theorem Policy.keeps_of_subset {request : Request} (hsub : ∀ group ∈ userGroups, group ∈ groups)
    (hr : policy.getRoleForGroups userGroups = some r) (hallowed : policy.isAllowed r request = true) :
    policy.Keeps userGroups groups r request := by
  rw [Policy.getRoleForGroups_eq_find] at hr
  have hmono : ∀ name, policy.wellKnownMatch userGroups name = true →
      policy.wellKnownMatch groups name = true := by
    intro name hm
    exact Policy.wellKnownMatch_iff.mpr ((Policy.wellKnownMatch_iff.mp hm).mono fun _ h => hsub _ h)
  obtain ⟨r', hr', hcases, hiff⟩ := find?_grow hmono hr
  have hsuper : ∀ name, policy.Supersedes userGroups groups r name ↔
      policy.wellKnownMatch userGroups name = false ∧ policy.wellKnownMatch groups name = true ∧
        policy.order.idxOf name < policy.order.idxOf r := by
    intro name
    rw [← Bool.not_eq_true, Policy.wellKnownMatch_iff, Policy.wellKnownMatch_iff]
    exact ⟨fun h => ⟨h.unmatched, h.matched, h.precedes⟩, fun ⟨hnot, hm, hlt⟩ => ⟨hm, hnot, hlt⟩⟩
  refine ⟨r', Policy.getRoleForGroups_eq_find.trans hr', ?_, ?_, ?_⟩
  · rwa [hsuper]
  · rw [hiff]
    refine forall_congr' fun name => ?_
    rw [hsuper, ← Bool.not_eq_true]
    tauto
  · intro hkept
    rcases hcases with rfl | hnew
    · exact hallowed
    · exact hkept r' ((hsuper r').mpr hnew)

end

end BpfRbacd
