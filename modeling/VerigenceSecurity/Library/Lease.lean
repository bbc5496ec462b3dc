import VerigenceSecurity.Library.RelyGuarantee

/-! # What holds as long as a lock is held

A lease is a lock with a property of the rows that only those can end who hold a
conflicting lock. Whoever has found the property under the lock finds it again at every
later statement and at the commit.
-/

namespace Transaction
set_option autoImplicit false

variable {Db Edit Lock Label ε α β : Type}

structure Lease (Db Lock : Type) where
  lock : Lock
  holds : Db → Prop

namespace Lease

/-- Who holds the lock and found the property at its last statement would find it now. -/
def Current (L : Lease Db Lock) (g : Progress Db Edit Lock Label) (db : Db) : Prop :=
  L.lock ∈ g.locks → ∀ e ∈ g.history.head?, L.holds e.committed → L.holds db

def Found (L : Lease Db Lock) (g : Progress Db Edit Lock Label) : Prop :=
  L.lock ∈ g.locks ∧ ∃ e ∈ g.history.head?, L.holds e.committed

section Found

variable {L : Lease Db Lock} {g : Progress Db Edit Lock Label} {db : Db}

theorem found_ran {label : Label} {o : Outcome Edit Lock β} (hlock : L.lock ∈ o.locks)
    (h : L.holds db) : L.Found (g.ran label db o) :=
  ⟨List.mem_append_left _ hlock, _, rfl, h⟩

theorem Found.holds (h : L.Found g) (hdb : L.Current g db) : L.holds db := by
  obtain ⟨hlock, e, he, hholds⟩ := h
  exact hdb hlock e he hholds

theorem Found.ran (h : L.Found g) (hdb : L.Current g db) (label : Label) (o : Outcome Edit Lock β) :
    L.Found (g.ran label db o) :=
  ⟨List.mem_append_right _ h.1, _, rfl, h.holds hdb⟩

theorem Found.failed (h : L.Found g) (hdb : L.Current g db) (label : Label) :
    L.Found (g.failed label db) :=
  ⟨h.1, _, rfl, h.holds hdb⟩

end Found

variable [Replay Db Edit] {conflict : Lock → Lock → Bool}

/-- The edit does not end the property, or a lock that it needs conflicts with the lease. -/
def Respects (conflict : Lock → Lock → Bool) (L : Lease Db Lock) (needs : Edit → List Lock)
    (e : Edit) : Prop :=
  (∀ db, L.holds db → L.holds (Replay.replay e db)) ∨ ∃ l ∈ needs e, conflict l L.lock = true

/-- A lease stays current when the calls follow a protocol whose edits respect it. -/
theorem current_step {L : Lease Db Lock} {R : Protocol Db Edit Lock}
    (hrespects : ∀ e, L.Respects conflict R.needs e) {s t : State Db Edit Lock Label ε α} {i : Nat}
    (hs : s.Protected R conflict)
    (hcurrent : ∀ (j : Nat) (c : Call Db Edit Lock Label ε α), s.calls[j]? = some c →
      c.finished = false → L.Current c.progress s.committed)
    (h : s.step conflict i = some t) : ∀ (j : Nat) (c : Call Db Edit Lock Label ε α),
      t.calls[j]? = some c → c.finished = false → L.Current c.progress t.committed := by
  obtain ⟨c, c', hc, ha, hcalls⟩ := State.step_cases h
  intro j d hd hunfinished hlock e he hholds
  rcases State.call_cases hcalls hd with ⟨rfl, rfl⟩ | ⟨hji, hd⟩
  · rcases Call.progress_of_advance ha with hended | ⟨hdb, hhead⟩
    · rw [hended] at hlock
      cases hlock
    · rw [hdb, ← hhead e he]
      exact hholds
  · have hbefore := hcurrent j d hd hunfinished hlock e he hholds
    rcases State.committed_of_advance ha with ⟨_, hdb⟩ | ⟨hcommit, hdb⟩
    · rwa [hdb]
    · -- The other call would hold a conflicting lock.
      have hunfinished' := Call.unfinished_of_committing hcommit
      rw [hdb]
      refine Program.replayAll_keeps (Q := fun e => e ∈ c.progress.pending) (R := L.holds) ?_
        (fun _ he => he) hbefore
      intro e' db he' hdb'
      rcases hrespects e' with hkeeps | ⟨l, hl, hconflict⟩
      · exact hkeeps db hdb'
      · have hheld := (hs.claims i c hc).locked hunfinished' e' he' l hl
        have hno := hs.exclusive i j c d (Ne.symm hji) hc hd l hheld L.lock
          (by rwa [Call.held_of_unfinished hunfinished])
        rw [hconflict] at hno
        cases hno

omit [Replay Db Edit] in
theorem current_initial (L : Lease Db Lock) (db : Db)
    (programs : List (Program Db Edit Lock Label ε α)) :
    ∀ (j : Nat) (c : Call Db Edit Lock Label ε α), (State.initial db programs).calls[j]? = some c →
      c.finished = false → L.Current c.progress (State.initial db programs).committed := by
  intro j c hc _ hlock
  simp only [State.initial, List.getElem?_map] at hc
  obtain ⟨p, _, rfl⟩ := Option.map_eq_some_iff.mp hc
  cases hlock

end Lease

end Transaction
