import Mathlib.Data.List.GetD
import VerigenceSecurity.GeoSchedule
import VerigenceSecurity.Library.Bisection

/-! # Time zones as tables of transitions

A zone of the time zone database: an initial UTC offset and the instants at which it
changes. An instant is looked up among the transitions, a wall-clock time among the local
times at which they have happened by every clock, the later of the two readings.
-/

namespace VerigenceSecurity
set_option autoImplicit false

open Bisection

structure ZoneTransition where
  instant : Instant
  offset : Int
  deriving DecidableEq, Repr

/-- Python takes no offset of a whole day. -/
structure ZoneTable where
  initialOffset : Int
  transitions : List ZoneTransition
  increasing : (transitions.map (·.instant)).Pairwise (· < ·)
  bounded : ∀ offset ∈ initialOffset :: transitions.map (·.offset),
    -dayLength < offset ∧ offset < dayLength

namespace ZoneTable

/-- The periods are counted from the one before the first transition. -/
def offset (table : ZoneTable) (period : Nat) : Int :=
  (table.initialOffset :: table.transitions.map (·.offset)).getD period 0

def ending (table : ZoneTable) (period : Nat) : Instant :=
  (table.transitions.map (·.instant)).getD period 0

/-- `_ts_to_local` for datetimes whose fold is 0. -/
def wallTransitions : Int → List ZoneTransition → List Int
  | _, [] => []
  | before, transition :: transitions =>
    (transition.instant + max before transition.offset) ::
      wallTransitions transition.offset transitions

def periodAt (table : ZoneTable) (t : Instant) : Nat :=
  bisectRight (table.transitions.map (·.instant)) t

def periodOfWall (table : ZoneTable) (wall : Int) : Nat :=
  bisectRight (wallTransitions table.initialOffset table.transitions) wall

def zone (table : ZoneTable) : Zone where
  offsetAt t := table.offset (table.periodAt t)
  offsetOfWall wall := table.offset (table.periodOfWall wall)

theorem toWall_zone (table : ZoneTable) (t : Instant) :
    table.zone.toWall t = t + table.offset (table.periodAt t) :=
  rfl

theorem ofWall_zone (table : ZoneTable) (wall : Int) :
    table.zone.ofWall wall = wall - table.offset (table.periodOfWall wall) :=
  rfl

theorem offset_bounds (table : ZoneTable) (period : Nat) :
    -dayLength < table.offset period ∧ table.offset period < dayLength := by
  unfold offset
  rcases Nat.lt_or_ge period (table.initialOffset :: table.transitions.map (·.offset)).length
    with hlt | hge
  · rw [List.getD_eq_getElem _ _ hlt]
    exact table.bounded _ (List.getElem_mem hlt)
  · rw [List.getD_eq_default _ _ hge]
    decide

@[simp] theorem length_wallTransitions (before : Int) (transitions : List ZoneTransition) :
    (wallTransitions before transitions).length = transitions.length := by
  induction transitions generalizing before with
  | nil => rfl
  | cons transition transitions ih => simp [wallTransitions, ih]

theorem getElem?_wallTransitions (before : Int) (transitions : List ZoneTransition) (k : Nat)
    (h : k < transitions.length) : (wallTransitions before transitions)[k]? =
      some ((transitions.map (·.instant)).getD k 0 +
        max ((before :: transitions.map (·.offset)).getD k 0)
          ((before :: transitions.map (·.offset)).getD (k + 1) 0)) := by
  induction transitions generalizing before k with
  | nil => simp at h
  | cons transition transitions ih =>
    cases k with
    | zero => simp [wallTransitions]
    | succ k =>
      have hk : k < transitions.length := by simpa using h
      simpa [wallTransitions] using ih transition.offset k hk

/-! ## The period of an instant -/

theorem periodAt_le (table : ZoneTable) (t : Instant) :
    table.periodAt t ≤ table.transitions.length := by
  simpa [periodAt] using bisectRight_le (table.transitions.map (·.instant)) t

theorem getElem?_instants (table : ZoneTable) {k : Nat} (h : k < table.transitions.length) :
    (table.transitions.map (·.instant))[k]? = some (table.ending k) := by
  simp [ending, h]

/-- A period has ended by an instant exactly if the instant lies in a later one. -/
theorem lt_periodAt_iff (table : ZoneTable) {k : Nat} (h : k < table.transitions.length)
    {t : Instant} : k < table.periodAt t ↔ table.ending k ≤ t :=
  lt_bisectRight_iff table.increasing (table.getElem?_instants h)

theorem ending_lt_ending (table : ZoneTable) {j k : Nat} (hjk : j < k)
    (hk : k < table.transitions.length) : table.ending j < table.ending k := by
  have hj : j < table.transitions.length := by omega
  have h := List.pairwise_iff_getElem.mp table.increasing j k (by simpa using hj)
    (by simpa using hk) hjk
  simpa [ending, hj, hk] using h

theorem ending_mono (table : ZoneTable) {j k : Nat} (hjk : j ≤ k)
    (hk : k < table.transitions.length) : table.ending j ≤ table.ending k := by
  rcases Nat.eq_or_lt_of_le hjk with rfl | hlt
  · exact le_rfl
  · exact (table.ending_lt_ending hlt hk).le

theorem periodAt_mono (table : ZoneTable) {s t : Instant} (hst : s ≤ t) :
    table.periodAt s ≤ table.periodAt t := by
  by_contra hlt
  have hk : table.periodAt t < table.transitions.length := by
    have := table.periodAt_le s
    omega
  have hs := (table.lt_periodAt_iff hk).mp (by omega : table.periodAt t < table.periodAt s)
  have ht := (table.lt_periodAt_iff hk).mpr (le_trans hs hst)
  omega

theorem periodAt_ending (table : ZoneTable) {k : Nat} (h : k < table.transitions.length)
    {t : Instant} (ht : table.periodAt t = k + 1) :
    table.ending k ≤ t ∧ table.periodAt (table.ending k) = k + 1 := by
  have hle := (table.lt_periodAt_iff h).mp (by omega : k < table.periodAt t)
  have hlt := (table.lt_periodAt_iff h).mpr (le_refl (table.ending k))
  have hmono := table.periodAt_mono hle
  exact ⟨hle, by omega⟩

/-- The last change before an instant of a later period. -/
theorem exists_change_of_periodAt_lt (table : ZoneTable) {s t : Instant}
    (h : table.periodAt s < table.periodAt t) : ∃ k < table.transitions.length,
    table.periodAt t = k + 1 ∧ table.periodAt (table.ending k) = k + 1 ∧
      s < table.ending k ∧ table.ending k ≤ t := by
  obtain ⟨k, hk⟩ : ∃ k, table.periodAt t = k + 1 := ⟨table.periodAt t - 1, by omega⟩
  have hlen : k < table.transitions.length := by
    have := table.periodAt_le t
    omega
  obtain ⟨hle, hperiod⟩ := table.periodAt_ending hlen hk
  have hafter := (table.lt_periodAt_iff hlen (t := s)).not.mp (by omega)
  exact ⟨k, hlen, hk, hperiod, lt_of_not_ge hafter, hle⟩

/-! ## The period of a wall-clock time -/

theorem periodOfWall_le (table : ZoneTable) (wall : Int) :
    table.periodOfWall wall ≤ table.transitions.length := by
  simpa [periodOfWall] using
    bisectRight_le (wallTransitions table.initialOffset table.transitions) wall

/-- Both clocks of the transition that begins the period have passed it. -/
theorem le_of_periodOfWall (table : ZoneTable) {wall : Int} {k : Nat}
    (h : table.periodOfWall wall = k + 1) :
    table.ending k + max (table.offset k) (table.offset (k + 1)) ≤ wall := by
  have hk : k < table.transitions.length := by
    have := table.periodOfWall_le wall
    omega
  exact (bounds_bisectRight (wallTransitions table.initialOffset table.transitions) wall).before k
    _ h.symm (getElem?_wallTransitions _ _ k hk)

/-- One clock of the transition that ends the period has not reached it. -/
theorem lt_of_periodOfWall (table : ZoneTable) {wall : Int} {k : Nat}
    (h : table.periodOfWall wall = k) (hk : k < table.transitions.length) :
    wall < table.ending k + max (table.offset k) (table.offset (k + 1)) := by
  subst h
  exact (bounds_bisectRight (wallTransitions table.initialOffset table.transitions) wall).at_end
    _ (getElem?_wallTransitions _ _ _ hk)

end ZoneTable

end VerigenceSecurity
