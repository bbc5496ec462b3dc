import VerigenceSecurity.Library.Table

/-! # What becomes of a row

Between two versions of a table every old row is still there, as a row that stands in a given
relation to it.
-/

namespace Relational
set_option autoImplicit false

namespace Table

variable {ρ κ : Type} {keys : ρ → List κ} {R : ρ → ρ → Prop} {t u v : Table ρ κ keys}

def Followed (R : ρ → ρ → Prop) (t u : Table ρ κ keys) : Prop :=
  ∀ r ∈ t.rows, ∃ r' ∈ u.rows, R r r'

theorem Followed.refl (h : ∀ r, R r r) (t : Table ρ κ keys) : t.Followed R t :=
  fun r hr => ⟨r, hr, h r⟩

theorem Followed.trans (h : ∀ {a b c}, R a b → R b c → R a c) (htu : t.Followed R u)
    (huv : u.Followed R v) : t.Followed R v := by
  intro r hr
  obtain ⟨r', hr', hfirst⟩ := htu r hr
  obtain ⟨r'', hr'', hsecond⟩ := huv r' hr'
  exact ⟨r'', hr'', h hfirst hsecond⟩

theorem followed_insert [DecidableEq κ] (h : ∀ r, R r r) (t : Table ρ κ keys) (row : ρ) :
    t.Followed R (t.insert row) :=
  fun r hr => ⟨r, mem_insert_of_mem hr, h r⟩

theorem followed_map {where? : ρ → Bool} {set : ρ → ρ}
    (hrows : u.rows = t.rows.map fun r => if where? r then set r else r)
    (h : ∀ r, R r r) (hset : ∀ r, where? r = true → R r (set r)) : t.Followed R u := by
  intro r hr
  rw [hrows]
  cases hw : where? r with
  | true => exact ⟨set r, List.mem_map.mpr ⟨r, hr, by simp [hw]⟩, hset r hw⟩
  | false => exact ⟨r, List.mem_map.mpr ⟨r, hr, by simp [hw]⟩, h r⟩

/-- The row keeps its identity, and everything once it is no longer live. -/
structure Lifecycle {ι : Type} (identity : ρ → ι) (live : ρ → Prop) (r r' : ρ) : Prop where
  identity : identity r' = identity r
  settled : ¬ live r → r' = r

namespace Lifecycle

variable {ι : Type} {identity : ρ → ι} {live : ρ → Prop} {a b c : ρ}

theorem refl (r : ρ) : Lifecycle identity live r r := ⟨rfl, fun _ => rfl⟩

theorem trans (hab : Lifecycle identity live a b) (hbc : Lifecycle identity live b c) :
    Lifecycle identity live a c where
  identity := hbc.identity.trans hab.identity
  settled hnot := by
    have hsame := hab.settled hnot
    rw [hbc.settled (hsame ▸ hnot), hsame]

theorem of_live (hidentity : identity b = identity a) (hlive : live a) :
    Lifecycle identity live a b :=
  ⟨hidentity, fun hnot => absurd hlive hnot⟩

end Lifecycle

/-- Rows that are never changed. -/
theorem Followed.subset (h : t.Followed Eq u) : t.rows ⊆ u.rows := by
  intro r hr
  obtain ⟨r', hr', hsame⟩ := h r hr
  rwa [hsame]

end Table

end Relational
