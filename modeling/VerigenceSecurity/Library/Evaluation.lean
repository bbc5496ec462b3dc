import VerigenceSecurity.Library.Transaction

/-! # Programs that evaluate before they write

`EvaluatesTo`: the first part of a program only reads, and what it finds out is a value computed
from the rows. The program goes on with that value, or raises the failure of the computation.
-/

namespace Transaction
set_option autoImplicit false

variable {Db Edit Lock Label ε α β γ : Type} [Replay Db Edit]

theorem except_bind_ok_iff {x : Except ε α} {f : α → Except ε β} {b : β} :
    (x >>= f) = .ok b ↔ ∃ a, x = .ok a ∧ f a = .ok b := by
  cases x <;> simp [bind, Except.bind]

namespace Program

def EvaluatesTo (p : Program Db Edit Lock Label ε γ) (s : Session Db) (x : Except ε α)
    (rest : α → Program Db Edit Lock Label ε γ) : Prop :=
  match x with
  | .ok a => p.exec s = (rest a).exec s
  | .error e => ∃ t, p.exec s = (.error e, t)

variable {p : Program Db Edit Lock Label ε γ} {s : Session Db}
  {rest : α → Program Db Edit Lock Label ε γ}

abbrev Computes (q : Program Db Edit Lock Label ε β) (s : Session Db) (y : Except ε β) : Prop :=
  q.EvaluatesTo s y pure

theorem evaluatesTo_congr {q : Program Db Edit Lock Label ε γ} {x : Except ε α}
    (h : p.exec s = q.exec s) : p.EvaluatesTo s x rest ↔ q.EvaluatesTo s x rest := by
  unfold EvaluatesTo
  rw [h]

theorem computes_of_exec {q : Program Db Edit Lock Label ε β} {y : Except ε β}
    (h : q.exec s = (y, s)) : q.Computes s y := by
  cases y with
  | ok b => exact h
  | error e => exact ⟨s, h⟩

/-- A program that succeeds has found its value, and goes on with it. -/
theorem EvaluatesTo.exec_ok {x : Except ε α} {c : γ} {t : Session Db} (hp : p.EvaluatesTo s x rest)
    (h : p.exec s = (.ok c, t)) : ∃ a, x = .ok a ∧ (rest a).exec s = (.ok c, t) := by
  cases x with
  | ok a => exact ⟨a, rfl, (show p.exec s = (rest a).exec s from hp).symm.trans h⟩
  | error e =>
    obtain ⟨u, hu⟩ := hp
    rw [hu] at h
    cases h

/-- A computation that succeeds has found its value and changed nothing. -/
theorem exec_computes_ok {q : Program Db Edit Lock Label ε β} {y : Except ε β} {b : β}
    {t : Session Db} (hq : q.Computes s y) (h : q.exec s = (.ok b, t)) : y = .ok b ∧ t = s := by
  obtain ⟨a, hy, hpure⟩ := hq.exec_ok h
  obtain ⟨hvalue, rfl⟩ := Prod.mk.inj hpure
  exact ⟨hy.trans hvalue, rfl⟩

theorem computes_pure (b : β) : (pure b : Program Db Edit Lock Label ε β).Computes s (.ok b) := rfl

theorem computes_done (y : Except ε β) : (done y : Program Db Edit Lock Label ε β).Computes s y :=
  computes_of_exec rfl

theorem computes_query (label : Label) (read : Db → Except ε β) :
    (query label read : Program Db Edit Lock Label ε β).Computes s (read s.view) :=
  computes_of_exec (exec_query label read s)

/-- A first step that only reads leaves the evaluation to the rest. -/
theorem evaluatesTo_after {q : Program Db Edit Lock Label ε β} {b : β} {x : Except ε α}
    {k : β → Program Db Edit Lock Label ε γ} (hq : q.exec s = (.ok b, s))
    (hk : (k b).EvaluatesTo s x rest) : (q >>= k).EvaluatesTo s x rest :=
  (evaluatesTo_congr (exec_bind_of_ok hq)).mpr hk

theorem evaluatesTo_bind {q : Program Db Edit Lock Label ε β} {y : Except ε β}
    {k : β → Program Db Edit Lock Label ε γ} {f : β → Except ε α} (hq : q.Computes s y)
    (hk : ∀ b, y = .ok b → (k b).EvaluatesTo s (f b) rest) : (q >>= k).EvaluatesTo s (y >>= f) rest := by
  cases y with
  | ok b => exact evaluatesTo_after hq (hk b rfl)
  | error e =>
    obtain ⟨t, ht⟩ := hq
    exact ⟨t, exec_bind_of_error ht⟩

theorem exec_attempt_of_ok {handler : ε → Program Db Edit Lock Label ε γ} {t : Session Db} {c : γ}
    (h : p.exec s = (.ok c, t)) : (attempt handler p).exec s = (.ok c, t) := by
  rw [exec_attempt, h]

theorem exec_attempt_of_error {handler : ε → Program Db Edit Lock Label ε γ} {t : Session Db} {e : ε}
    (hhandler : ∀ e t, ∃ u, (handler e).exec t = (.error e, u)) (h : p.exec s = (.error e, t)) :
    ∃ u, (attempt handler p).exec s = (.error e, u) := by
  obtain ⟨u, hu⟩ := hhandler e t
  exact ⟨u, by rw [exec_attempt, h]; exact hu⟩

theorem exec_ok_of_attempt {handler : ε → Program Db Edit Lock Label ε γ} {t : Session Db} {c : γ}
    (hhandler : ∀ e t, ∃ u, (handler e).exec t = (.error e, u))
    (h : (attempt handler p).exec s = (.ok c, t)) : p.exec s = (.ok c, t) := by
  cases hp : p.exec s with
  | mk r m =>
    cases r with
    | ok a => exact (exec_attempt_of_ok hp).symm.trans h
    | error e =>
      obtain ⟨u, hu⟩ := exec_attempt_of_error hhandler hp
      rw [hu] at h
      cases h

/-- A handler that raises what it is given does not change the evaluation. -/
theorem evaluatesTo_attempt {handler : ε → Program Db Edit Lock Label ε γ} {x : Except ε α}
    (hhandler : ∀ e t, ∃ u, (handler e).exec t = (.error e, u)) (hp : p.EvaluatesTo s x rest) :
    (attempt handler p).EvaluatesTo s x fun a => attempt handler (rest a) := by
  cases x with
  | ok a =>
    change (attempt handler p).exec s = (attempt handler (rest a)).exec s
    rw [exec_attempt, exec_attempt, show p.exec s = (rest a).exec s from hp]
  | error e =>
    obtain ⟨t, ht⟩ := hp
    exact exec_attempt_of_error hhandler ht

/-- What is guarded may go on after its first part. -/
theorem evaluatesTo_attempt_bind {handler : ε → Program Db Edit Lock Label ε γ}
    {q : Program Db Edit Lock Label ε β} {y : Except ε β} {k : β → Program Db Edit Lock Label ε γ}
    {f : β → Except ε α} (hhandler : ∀ e t, ∃ u, (handler e).exec t = (.error e, u))
    (hq : q.Computes s y) (hk : ∀ b, y = .ok b → (attempt handler (k b)).EvaluatesTo s (f b) rest) :
    (attempt handler (q >>= k)).EvaluatesTo s (y >>= f) rest := by
  cases y with
  | ok b =>
    have hrun : (attempt handler (q >>= k)).exec s = (attempt handler (k b)).exec s := by
      rw [exec_attempt, exec_attempt, exec_bind, show q.exec s = (.ok b, s) from hq]
    exact (evaluatesTo_congr hrun).mpr (hk b rfl)
  | error e =>
    obtain ⟨t, ht⟩ := hq
    exact exec_attempt_of_error hhandler (exec_bind_of_error ht)

theorem computes_attempt {handler : ε → Program Db Edit Lock Label ε β}
    {q : Program Db Edit Lock Label ε β} {y : Except ε β}
    (hhandler : ∀ e t, ∃ u, (handler e).exec t = (.error e, u)) (hq : q.Computes s y) :
    (attempt handler q).Computes s y :=
  evaluatesTo_attempt hhandler hq

end Program

end Transaction
