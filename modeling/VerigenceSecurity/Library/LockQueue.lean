import VerigenceSecurity.Library.RelyGuarantee
import Mathlib.Logic.Relation

/-! # Calls that wait for their locks

A statement meets its rows one by one, in an order that the database chooses. Here a
call that starts a statement queues its locks and takes them one at a time; it goes on
when the queue is empty and releases what it holds when its transaction ends. It waits
for the calls that hold a lock in conflict with the first one of its queue.
-/

namespace Transaction
set_option autoImplicit false

variable {Db Edit Lock Label ε α β γ : Type}

section

variable [Replay Db Edit]

def Call.asks (db : Db) (c : Call Db Edit Lock Label ε α) : List Lock :=
  match c.program with
  | .statement _ run _ _ =>
    match run (replayAll c.progress.pending db) with
    | .error _ => []
    | .ok o => o.locks
  | _ => []

end

def Call.ends (c : Call Db Edit Lock Label ε α) : Bool :=
  match c.program with
  | .commit _ => true
  | .rollback _ => true
  | _ => false

structure Waiting (Db Edit Lock Label ε α : Type) where
  base : State Db Edit Lock Label ε α
  held : Nat → List Lock
  queue : Nat → List Lock

/-- `ask` starts the call's next statement, its locks to be taken in that order. -/
inductive Move (Lock : Type)
  | ask (i : Nat) (order : List Lock)
  | take (i : Nat)

namespace Waiting

def initial (db : Db) (programs : List (Program Db Edit Lock Label ε α)) :
    Waiting Db Edit Lock Label ε α :=
  ⟨.initial db programs, fun _ => [], fun _ => []⟩

/-- A call that has returned holds nothing any more. -/
def holds (s : Waiting Db Edit Lock Label ε α) (i : Nat) : List Lock :=
  match s.base.calls[i]? with
  | none => []
  | some c => if c.finished && (s.queue i).isEmpty then [] else s.held i

def grantable (conflict : Lock → Lock → Bool) (s : Waiting Db Edit Lock Label ε α) (i : Nat)
    (l : Lock) : Bool :=
  (List.range s.base.calls.length).all fun j =>
    decide (j = i) || (s.holds j).all fun k => !conflict l k

variable [Replay Db Edit] [DecidableEq Lock]

def ask (s : Waiting Db Edit Lock Label ε α) (i : Nat) (order : List Lock) :
    Option (Waiting Db Edit Lock Label ε α) :=
  match s.base.calls[i]?, s.queue i with
  | some c, [] =>
    if order.Perm (c.asks s.base.committed) then
      (s.base.step (fun _ _ => false) i).map fun t =>
        ⟨t, if c.ends then Function.update s.held i [] else s.held, Function.update s.queue i order⟩
    else none
  | _, _ => none

omit [Replay Db Edit] [DecidableEq Lock] in
def take (conflict : Lock → Lock → Bool) (s : Waiting Db Edit Lock Label ε α) (i : Nat) :
    Option (Waiting Db Edit Lock Label ε α) :=
  match s.base.calls[i]?, s.queue i with
  | some _, l :: rest =>
    if s.grantable conflict i l then
      some { s with
        held := Function.update s.held i (l :: s.held i)
        queue := Function.update s.queue i rest }
    else none
  | _, _ => none

def step (conflict : Lock → Lock → Bool) (s : Waiting Db Edit Lock Label ε α) :
    Move Lock → Option (Waiting Db Edit Lock Label ε α)
  | .ask i order => s.ask i order
  | .take i => s.take conflict i

def run (conflict : Lock → Lock → Bool) (s : Waiting Db Edit Lock Label ε α) :
    List (Move Lock) → Option (Waiting Db Edit Lock Label ε α)
  | [] => some s
  | m :: ms => (s.step conflict m).bind fun t => t.run conflict ms

inductive Reaches (conflict : Lock → Lock → Bool)
    (ok : Waiting Db Edit Lock Label ε α → Move Lock → Prop) (s : Waiting Db Edit Lock Label ε α) :
    Waiting Db Edit Lock Label ε α → Prop
  | refl : Reaches conflict ok s s
  | step {t u : Waiting Db Edit Lock Label ε α} {m : Move Lock} : Reaches conflict ok s t →
      ok t m → t.step conflict m = some u → Reaches conflict ok s u

/-- The call waits for a lock of that kind, and the other call holds one in conflict. -/
def Waits (conflict : Lock → Lock → Bool) (kind : Lock → Bool)
    (s : Waiting Db Edit Lock Label ε α) (i j : Nat) : Prop :=
  i ≠ j ∧ ∃ l ∈ (s.queue i).head?, kind l = true ∧ ∃ k ∈ s.holds j, conflict l k = true

instance (conflict : Lock → Lock → Bool) (kind : Lock → Bool) (s : Waiting Db Edit Lock Label ε α)
    (i j : Nat) : Decidable (s.Waits conflict kind i j) :=
  inferInstanceAs (Decidable (_ ∧ _))

/-- Calls that wait for each other in a circle. -/
def Deadlocked (conflict : Lock → Lock → Bool) (kind : Lock → Bool)
    (s : Waiting Db Edit Lock Label ε α) : Prop :=
  ∃ i, Relation.TransGen (s.Waits conflict kind) i i

end Waiting

/-! ## One move -/

variable [Replay Db Edit]

namespace Waiting

variable [DecidableEq Lock] {conflict : Lock → Lock → Bool}
  {s t : Waiting Db Edit Lock Label ε α} {i j : Nat}

theorem ask_cases {order : List Lock} (h : s.ask i order = some t) :
    ∃ c, s.base.calls[i]? = some c ∧ s.queue i = [] ∧ order.Perm (c.asks s.base.committed) ∧
      s.base.step (fun _ _ => false) i = some t.base ∧
      t.held = (if c.ends then Function.update s.held i [] else s.held) ∧
      t.queue = Function.update s.queue i order := by
  unfold ask at h
  split at h
  · rename_i c hc hqueue
    split at h
    · rename_i hperm
      obtain ⟨u, hu, rfl⟩ := Option.map_eq_some_iff.mp h
      exact ⟨c, hc, hqueue, hperm, hu, rfl, rfl⟩
    · cases h
  · cases h

omit [Replay Db Edit] [DecidableEq Lock] in
theorem take_cases (h : s.take conflict i = some t) :
    ∃ c l rest, s.base.calls[i]? = some c ∧ s.queue i = l :: rest ∧
      s.grantable conflict i l = true ∧ t.base = s.base ∧
      t.held = Function.update s.held i (l :: s.held i) ∧
      t.queue = Function.update s.queue i rest := by
  unfold take at h
  split at h
  · rename_i c l rest hc hqueue
    split at h
    · rename_i hfree
      cases h
      exact ⟨c, l, rest, hc, hqueue, hfree, rfl, rfl, rfl⟩
    · cases h
  · cases h

omit [Replay Db Edit] [DecidableEq Lock] in
theorem holds_subset : ∀ l ∈ s.holds i, l ∈ s.held i := by
  intro l hl
  unfold holds at hl
  split at hl
  · cases hl
  · split at hl
    · cases hl
    · exact hl

omit [Replay Db Edit] [DecidableEq Lock] in
theorem holds_of_queue {c : Call Db Edit Lock Label ε α} {l : Lock} {rest : List Lock}
    (hc : s.base.calls[i]? = some c) (h : s.queue i = l :: rest) : s.holds i = s.held i := by
  simp [holds, hc, h]

omit [Replay Db Edit] [DecidableEq Lock] in
theorem holds_of_unfinished {c : Call Db Edit Lock Label ε α} (hc : s.base.calls[i]? = some c)
    (h : c.finished = false) : s.holds i = s.held i := by
  simp [holds, hc, h]

omit [Replay Db Edit] [DecidableEq Lock] in
theorem call_of_holds {l : Lock} (hl : l ∈ s.holds i) : ∃ c, s.base.calls[i]? = some c := by
  cases hc : s.base.calls[i]? with
  | none => simp [holds, hc] at hl
  | some c => exact ⟨c, rfl⟩

omit [Replay Db Edit] [DecidableEq Lock] in
theorem holds_congr (hcall : t.base.calls[j]? = s.base.calls[j]?) (hheld : t.held j = s.held j)
    (hqueue : t.queue j = s.queue j) : t.holds j = s.holds j := by
  unfold holds
  rw [hcall, hheld, hqueue]

/-- What a call holds after a move, it held before, or it has just taken it. -/
theorem holds_of_step {m : Move Lock} (h : s.step conflict m = some t) {l : Lock}
    (hl : l ∈ t.holds j) : l ∈ s.holds j ∨
      m = .take j ∧ l ∈ (s.queue j).head? ∧ s.grantable conflict j l = true := by
  cases m with
  | ask i order =>
    obtain ⟨c, hc, _, _, hstep, hheld, hqueue⟩ := ask_cases h
    obtain ⟨d, c', hd, ha, hcalls⟩ := State.step_cases hstep
    rw [hc, Option.some.injEq] at hd
    subst hd
    left
    by_cases hji : j = i
    · subst hji
      rw [holds_of_unfinished hc (Call.unfinished_of_advance ha)]
      have hkept := holds_subset l hl
      rw [hheld] at hkept
      split at hkept
      · simp at hkept
      · exact hkept
    · have hsame : t.held j = s.held j := by
        rw [hheld]
        split
        · exact Function.update_of_ne hji ..
        · rfl
      rwa [holds_congr (s := s) (by rw [hcalls, List.getElem?_set_ne (Ne.symm hji)]) hsame
        (by rw [hqueue, Function.update_of_ne hji])] at hl
  | take i =>
    obtain ⟨c, l', rest, hc, hfirst, hfree, hbase, hheld, hqueue⟩ := take_cases h
    by_cases hji : j = i
    · subst hji
      rw [holds_of_queue hc hfirst]
      have hkept := holds_subset l hl
      rw [hheld, Function.update_self] at hkept
      rcases List.mem_cons.mp hkept with rfl | hkept
      · exact Or.inr ⟨rfl, by rw [hfirst]; rfl, hfree⟩
      · exact Or.inl hkept
    · left
      rwa [holds_congr (s := s) (by rw [hbase]) (by rw [hheld, Function.update_of_ne hji])
        (by rw [hqueue, Function.update_of_ne hji])] at hl

/-! ## Exclusion -/

def Exclusive (conflict : Lock → Lock → Bool) (s : Waiting Db Edit Lock Label ε α) : Prop :=
  ∀ i j, i ≠ j → ∀ l ∈ s.holds i, ∀ k ∈ s.holds j, conflict l k = false

omit [Replay Db Edit] [DecidableEq Lock] in
theorem exclusive_initial (db : Db) (programs : List (Program Db Edit Lock Label ε α)) :
    (initial db programs).Exclusive conflict := fun _ _ _ l hl => nomatch holds_subset l hl

omit [Replay Db Edit] [DecidableEq Lock] in
theorem not_conflict_of_grantable {l k : Lock} (h : s.grantable conflict i l = true) (hij : j ≠ i)
    (hk : k ∈ s.holds j) : conflict l k = false := by
  obtain ⟨c, hc⟩ := call_of_holds hk
  have hj := (List.getElem?_eq_some_iff.mp hc).1
  have hall := List.all_eq_true.mp h j (List.mem_range.mpr hj)
  simp only [Bool.or_eq_true, decide_eq_true_eq, hij, false_or, List.all_eq_true] at hall
  simpa using hall k hk

theorem Exclusive.step (hcomm : ∀ l k, conflict l k = conflict k l) (hs : s.Exclusive conflict)
    {m : Move Lock} (h : s.step conflict m = some t) : t.Exclusive conflict := by
  intro i j hij l hl k hk
  rcases holds_of_step h hl with hl | ⟨rfl, _, hfree⟩
  · rcases holds_of_step h hk with hk | ⟨rfl, _, hfree⟩
    · exact hs i j hij l hl k hk
    · rw [hcomm]
      exact not_conflict_of_grantable hfree hij hl
  · rcases holds_of_step h hk with hk | ⟨hm, _, _⟩
    · exact not_conflict_of_grantable hfree (Ne.symm hij) hk
    · cases hm
      exact absurd rfl hij

/-! ## Runs -/

variable {ok : Waiting Db Edit Lock Label ε α → Move Lock → Prop}

theorem Reaches.trans {u : Waiting Db Edit Lock Label ε α} (h : Reaches conflict ok s t)
    (k : Reaches conflict ok t u) : Reaches conflict ok s u := by
  induction k with
  | refl => exact h
  | step _ hok hs ih => exact ih.step hok hs

/-- An invariant of every move holds in every reachable state. -/
theorem Reaches.induct {P : Waiting Db Edit Lock Label ε α → Prop} (h : Reaches conflict ok s t)
    (hs : P s) (hstep : ∀ t u m, P t → ok t m → t.step conflict m = some u → P u) : P t := by
  induction h with
  | refl => exact hs
  | step _ hok hmove ih => exact hstep _ _ _ ih hok hmove

def Meets (conflict : Lock → Lock → Bool) (ok : Waiting Db Edit Lock Label ε α → Move Lock → Prop)
    (s : Waiting Db Edit Lock Label ε α) : List (Move Lock) → Prop
  | [] => True
  | m :: ms => ok s m ∧ ∀ t ∈ s.step conflict m, t.Meets conflict ok ms

instance decidableMeets [∀ s m, Decidable (ok s m)] (s : Waiting Db Edit Lock Label ε α) :
    ∀ moves, Decidable (s.Meets conflict ok moves)
  | [] => isTrue trivial
  | m :: ms =>
    have : ∀ t, Decidable (Meets conflict ok t ms) := fun t => decidableMeets t ms
    inferInstanceAs (Decidable (ok s m ∧ ∀ t ∈ s.step conflict m, t.Meets conflict ok ms))

theorem meets_true (s : Waiting Db Edit Lock Label ε α) (moves : List (Move Lock)) :
    s.Meets conflict (fun _ _ => True) moves := by
  induction moves generalizing s with
  | nil => trivial
  | cons m ms ih => exact ⟨trivial, fun t _ => ih t⟩

theorem reaches_of_run {moves : List (Move Lock)} (hok : s.Meets conflict ok moves)
    (h : s.run conflict moves = some t) : Reaches conflict ok s t := by
  induction moves generalizing s with
  | nil =>
    rw [← Option.some.inj h]
    exact .refl
  | cons m ms ih =>
    obtain ⟨u, hu, ht⟩ := Option.bind_eq_some_iff.mp h
    exact (Reaches.refl.step hok.1 hu).trans (ih (hok.2 u hu) ht)

theorem Reaches.exclusive (hcomm : ∀ l k, conflict l k = conflict k l) {db : Db}
    {programs : List (Program Db Edit Lock Label ε α)}
    (h : Reaches conflict ok (initial db programs) t) : t.Exclusive conflict :=
  h.induct (exclusive_initial db programs) fun _ _ _ ht _ hmove => ht.step hcomm hmove

/-- The statements and ends of transactions of a run are a run in which nothing waits. -/
theorem Reaches.base (h : Reaches conflict ok s t) :
    State.Reaches (fun _ _ => false) (fun _ _ => True) s.base t.base := by
  refine Reaches.induct (P := fun t => State.Reaches _ _ s.base t.base) h .refl ?_
  intro t u m ht _ hmove
  cases m with
  | ask i order =>
    obtain ⟨_, _, _, _, hstep, _⟩ := ask_cases hmove
    exact ht.step trivial hstep
  | take i =>
    obtain ⟨_, _, _, _, _, _, hbase, _⟩ := take_cases hmove
    rwa [hbase]

omit [Replay Db Edit] [DecidableEq Lock] in
/-- A call in a circle waits for another one that is in a circle. -/
theorem exists_waits {kind : Lock → Bool}
    (h : Relation.TransGen (s.Waits conflict kind) i i) :
    ∃ j, s.Waits conflict kind i j ∧ Relation.TransGen (s.Waits conflict kind) j j := by
  obtain ⟨j, hij, hji⟩ := Relation.TransGen.head'_iff.mp h
  refine ⟨j, hij, ?_⟩
  exact Relation.TransGen.tail' hji hij

omit [Replay Db Edit] [DecidableEq Lock] in
/-- A call in a circle is waited for by another one that is in a circle. -/
theorem exists_waited {kind : Lock → Bool}
    (h : Relation.TransGen (s.Waits conflict kind) i i) :
    ∃ j, s.Waits conflict kind j i ∧ Relation.TransGen (s.Waits conflict kind) j j := by
  obtain ⟨j, hij, hji⟩ := Relation.TransGen.tail'_iff.mp h
  exact ⟨j, hji, Relation.TransGen.head' hji hij⟩

end Waiting

end Transaction
