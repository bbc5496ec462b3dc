import VerigenceSecurity.Library.Transaction

/-! # The order of commits

A run commits its calls in some order. When every commit changes what one observes
of the committed rows by a function of its call alone, the run does to it what these
functions do one after another in that order.
-/

namespace Transaction
set_option autoImplicit false

variable {Db Edit Lock Label ε α A : Type} [Replay Db Edit]

namespace State

variable {conflict : Lock → Lock → Bool}

omit [Replay Db Edit] in
def commitsNext (s : State Db Edit Lock Label ε α) (i : Nat) : Bool := s.calls[i]?.any Call.committing

omit [Replay Db Edit] in
def orderAfter (s : State Db Edit Lock Label ε α) (i : Nat) (order : List Nat) : List Nat :=
  order ++ if s.commitsNext i then [i] else []

def commitOrder (conflict : Lock → Lock → Bool) (s : State Db Edit Lock Label ε α) :
    List Nat → List Nat
  | [] => []
  | i :: is =>
    match s.step conflict i with
    | none => []
    | some t => (if s.commitsNext i then [i] else []) ++ t.commitOrder conflict is

theorem committed_of_not_commitsNext {s t : State Db Edit Lock Label ε α} {i : Nat}
    (h : s.step conflict i = some t) (hi : s.commitsNext i = false) : t.committed = s.committed := by
  obtain ⟨c, c', hc, ha, _⟩ := step_cases h
  rcases committed_of_advance ha with ⟨_, hdb⟩ | ⟨hcommit, _⟩
  · exact hdb
  · rw [commitsNext, hc, Option.any_some, hcommit] at hi
    cases hi

/-- What a step keeps of the state and of the commits so far, a run keeps. -/
theorem invariant_of_run {P : List Nat → State Db Edit Lock Label ε α → Prop}
    (hstep : ∀ order s t i, P order s → s.step conflict i = some t → P (s.orderAfter i order) t)
    {s t : State Db Edit Lock Label ε α} {order schedule : List Nat} (hs : P order s)
    (hrun : s.run conflict schedule = some t) : P (order ++ s.commitOrder conflict schedule) t := by
  induction schedule generalizing s order with
  | nil =>
    cases hrun
    rwa [commitOrder, List.append_nil]
  | cons i is ih =>
    obtain ⟨u, hu, ht⟩ := Option.bind_eq_some_iff.mp hrun
    have hnext := ih (hstep order s u i hs hu) ht
    simp only [commitOrder, hu]
    rwa [orderAfter, List.append_assoc] at hnext

/-- The effect of a run, read off from the calls it commits. -/
theorem observe_of_run {observe : Db → A} {effect : Nat → A → A}
    {ok : State Db Edit Lock Label ε α → Nat → Prop} {inv : State Db Edit Lock Label ε α → Prop}
    (hinv : ∀ s t i, inv s → s.step conflict i = some t → inv t)
    (hcommit : ∀ s t i, inv s → ok s i → s.step conflict i = some t → s.commitsNext i = true →
      observe t.committed = effect i (observe s.committed))
    {s t : State Db Edit Lock Label ε α} {schedule : List Nat} (hs : inv s)
    (hok : s.Meets conflict ok schedule) (hrun : s.run conflict schedule = some t) :
    observe t.committed =
      (s.commitOrder conflict schedule).foldl (fun a i => effect i a) (observe s.committed) := by
  induction schedule generalizing s with
  | nil =>
    cases hrun
    rfl
  | cons i is ih =>
    obtain ⟨u, hu, ht⟩ := Option.bind_eq_some_iff.mp hrun
    have hrest := ih (hinv s u i hs hu) (hok.2 u hu) ht
    simp only [commitOrder, hu]
    rw [hrest, List.foldl_append]
    cases hi : s.commitsNext i with
    | true =>
      have hstep := hcommit s u i hs hok.1 hu hi
      simp only [if_true, List.foldl_cons, List.foldl_nil, hstep]
    | false =>
      have hsame := committed_of_not_commitsNext hu hi
      simp [hsame]

end State

end Transaction
