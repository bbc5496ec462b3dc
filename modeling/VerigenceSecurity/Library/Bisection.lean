import Mathlib.Order.Lattice
import Mathlib.Data.List.Basic

/-! # Binary search

`bisect_right` on a list. On any list the entry before the place found is not greater than
the value, and the entry at it is; on an ordered one this holds of all entries before and
after.
-/

namespace Bisection
set_option autoImplicit false

variable {α : Type} [LinearOrder α] {xs : List α} {x : α}

def bisectLoop (xs : List α) (x : α) : Nat → Nat → Nat → Nat
  | 0, lo, _ => lo
  | fuel + 1, lo, hi =>
    if lo < hi then
      let mid := (lo + hi) / 2
      if xs[mid]?.any (decide <| x < ·) then bisectLoop xs x fuel lo mid
      else bisectLoop xs x fuel (mid + 1) hi
    else lo

/-- The interval loses at least one place in every round. -/
def bisectRight (xs : List α) (x : α) : Nat := bisectLoop xs x xs.length 0 xs.length

/-- What lies between is not known; the entries at the borders are. -/
structure Bounds (xs : List α) (x : α) (lo hi : Nat) : Prop where
  le : lo ≤ hi
  le_length : hi ≤ xs.length
  before : ∀ i a, i + 1 = lo → xs[i]? = some a → a ≤ x
  at_end : ∀ a, xs[hi]? = some a → x < a

theorem Bounds.bisectLoop {fuel lo hi : Nat} (h : Bounds xs x lo hi) (hfuel : hi ≤ lo + fuel) :
    Bounds xs x (bisectLoop xs x fuel lo hi) (bisectLoop xs x fuel lo hi) := by
  induction fuel generalizing lo hi with
  | zero =>
    have heq : lo = hi := Nat.le_antisymm h.le (by omega)
    subst heq
    exact h
  | succ fuel ih =>
    simp only [Bisection.bisectLoop]
    split
    · rename_i hlt
      split
      · rename_i hmid
        apply ih
        · refine ⟨by omega, by have := h.le_length; omega, h.before, ?_⟩
          intro a ha
          simpa [ha] using hmid
        · omega
      · rename_i hmid
        apply ih
        · refine ⟨by omega, h.le_length, ?_, h.at_end⟩
          intro i a hi' ha
          obtain rfl : i = (lo + hi) / 2 := by omega
          simpa [ha] using hmid
        · omega
    · have heq : lo = hi := Nat.le_antisymm h.le (by omega)
      subst heq
      exact h

theorem bounds_bisectRight (xs : List α) (x : α) :
    Bounds xs x (bisectRight xs x) (bisectRight xs x) := by
  apply Bounds.bisectLoop
  · refine ⟨Nat.zero_le _, Nat.le_refl _, ?_, ?_⟩
    · intro i a hi
      omega
    · intro a ha
      simp at ha
  · omega

theorem bisectRight_le (xs : List α) (x : α) : bisectRight xs x ≤ xs.length :=
  (bounds_bisectRight xs x).le_length

/-- Ordered entries: those before the place found are not greater, the others are. -/
theorem lt_bisectRight_iff (h : xs.Pairwise (· < ·)) {i : Nat} {a : α} (ha : xs[i]? = some a) :
    i < bisectRight xs x ↔ a ≤ x := by
  have bounds := bounds_bisectRight xs x
  obtain ⟨hi, rfl⟩ := List.getElem?_eq_some_iff.mp ha
  constructor
  · intro hlt
    obtain ⟨j, hj⟩ : ∃ j, j + 1 = bisectRight xs x := ⟨bisectRight xs x - 1, by omega⟩
    have hjlen : j < xs.length := by have := bounds.le_length; omega
    have hle := bounds.before j xs[j] hj (List.getElem?_eq_getElem hjlen)
    rcases Nat.lt_or_ge i j with hij | hij
    · exact (List.pairwise_iff_getElem.mp h i j hi hjlen hij).le.trans hle
    · obtain rfl : i = j := by omega
      exact hle
  · intro hle
    by_contra hnot
    have hlen : bisectRight xs x < xs.length := by omega
    have hlt := bounds.at_end _ (List.getElem?_eq_getElem hlen)
    rcases Nat.lt_or_ge (bisectRight xs x) i with hij | hij
    · exact absurd (hle.trans_lt hlt)
        (List.pairwise_iff_getElem.mp h _ i hlen hi hij).not_gt
    · have heq : bisectRight xs x = i := by omega
      simp only [heq] at hlt
      exact absurd hle hlt.not_ge

end Bisection
