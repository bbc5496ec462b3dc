import Mathlib.Data.Set.Basic

/-! # Role graphs with direct and group paths

Users reach roles by direct edges and through the groups they belong to. A role
that is active gives its grants, and some permissions come from outside the
graph. The permissions of one user depend on few edges, and this locality is
what any rule about whose permissions a change can alter rests on.
-/

set_option autoImplicit false

structure AccessGraph (User Group Role Perm : Type) where
  direct : User → Role → Prop
  member : User → Group → Prop
  carries : Group → Role → Prop
  active : Role → Prop
  grants : Role → Perm → Prop
  outside : User → Perm → Prop

namespace AccessGraph

variable {User Group Role Perm : Type} {G H : AccessGraph User Group Role Perm} {u : User} {r : Role}

def Reaches (G : AccessGraph User Group Role Perm) (u : User) (r : Role) : Prop :=
  G.direct u r ∨ ∃ g, G.member u g ∧ G.carries g r

def Holds (G : AccessGraph User Group Role Perm) (u : User) (r : Role) : Prop :=
  G.active r ∧ G.Reaches u r

def effective (G : AccessGraph User Group Role Perm) (u : User) : Set Perm :=
  {p | (∃ r, G.Holds u r ∧ G.grants r p) ∨ G.outside u p}

/-- Two graphs agree on everything that starts at one user. -/
structure AgreeAt (G H : AccessGraph User Group Role Perm) (u : User) : Prop where
  direct : ∀ r, G.direct u r ↔ H.direct u r
  member : ∀ g, G.member u g ↔ H.member u g
  outside : ∀ p, G.outside u p ↔ H.outside u p

theorem AgreeAt.reaches_iff (h : AgreeAt G H u)
    (hc : ∀ g, G.member u g → (G.carries g r ↔ H.carries g r)) : G.Reaches u r ↔ H.Reaches u r := by
  constructor
  · rintro (hd | ⟨g, hm, hg⟩)
    · exact Or.inl ((h.direct r).mp hd)
    · exact Or.inr ⟨g, (h.member g).mp hm, (hc g hm).mp hg⟩
  · rintro (hd | ⟨g, hm, hg⟩)
    · exact Or.inl ((h.direct r).mpr hd)
    · have hm' := (h.member g).mpr hm
      exact Or.inr ⟨g, hm', (hc g hm').mpr hg⟩

/-- A user's permissions depend on the own edges, on what the own groups carry
and on what the reached roles give. -/
theorem AgreeAt.effective_eq (h : AgreeAt G H u)
    (hc : ∀ g, G.member u g → ∀ r, G.carries g r ↔ H.carries g r)
    (ha : ∀ r, G.Reaches u r → (G.active r ↔ H.active r))
    (hg : ∀ r, G.Reaches u r → ∀ p, G.grants r p ↔ H.grants r p) : G.effective u = H.effective u := by
  have hr : ∀ r, G.Reaches u r ↔ H.Reaches u r := fun r => h.reaches_iff fun g hm => hc g hm r
  ext p
  constructor
  · rintro (⟨r, ⟨hact, hre⟩, hp⟩ | ho)
    · exact Or.inl ⟨r, ⟨(ha r hre).mp hact, (hr r).mp hre⟩, (hg r hre p).mp hp⟩
    · exact Or.inr ((h.outside p).mp ho)
  · rintro (⟨r, ⟨hact, hre⟩, hp⟩ | ho)
    · have hre' := (hr r).mpr hre
      exact Or.inl ⟨r, ⟨(ha r hre').mpr hact, hre'⟩, (hg r hre' p).mpr hp⟩
    · exact Or.inr ((h.outside p).mpr ho)

/-- How a user can come to hold a role: an own edge appeared, a group that the
user belongs to took the role up, or the role became active. -/
theorem Holds.new (h : H.Holds u r) :
    G.Holds u r ∨ (H.direct u r ∧ ¬ G.direct u r) ∨
      (∃ g, H.member u g ∧ H.carries g r ∧ ¬ G.member u g) ∨
      (∃ g, H.member u g ∧ H.carries g r ∧ ¬ G.carries g r) ∨ (H.Reaches u r ∧ ¬ G.active r) := by
  by_cases hact : G.active r
  · rcases h.2 with hd | ⟨g, hm, hg⟩
    · by_cases hd' : G.direct u r
      · exact Or.inl ⟨hact, Or.inl hd'⟩
      · exact Or.inr (Or.inl ⟨hd, hd'⟩)
    · by_cases hm' : G.member u g
      · by_cases hg' : G.carries g r
        · exact Or.inl ⟨hact, Or.inr ⟨g, hm', hg'⟩⟩
        · exact Or.inr (Or.inr (Or.inr (Or.inl ⟨g, hm, hg, hg'⟩)))
      · exact Or.inr (Or.inr (Or.inl ⟨g, hm, hg, hm'⟩))
  · exact Or.inr (Or.inr (Or.inr (Or.inr ⟨h.2, hact⟩)))

end AccessGraph
