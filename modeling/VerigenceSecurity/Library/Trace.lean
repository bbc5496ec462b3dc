import VerigenceSecurity.Library.Transaction

/-! # What a call executes

The trace of a call that runs alone lists the labels of its statements in order.
Where a statement stands for a call of another system, the trace says what happened
to that system, whatever became of the rows.
-/

namespace Transaction
set_option autoImplicit false

variable {Db Edit Lock Label ε α β γ A : Type}

namespace Program

def trace [Replay Db Edit] : Program Db Edit Lock Label ε α → Session Db → List Label
  | done _, _ => []
  | statement label run failed next, s =>
    label :: match run s.view with
      | .error e => (failed e).trace s
      | .ok o => (next o.value).trace { s with view := replayAll o.edits s.view }
  | commit n, s => n.trace { s with committed := s.view }
  | rollback n, s => n.trace { s with view := s.committed }

section Trace

variable [Replay Db Edit]

@[simp] theorem trace_pure (a : α) (s : Session Db) :
    (pure a : Program Db Edit Lock Label ε α).trace s = [] := rfl

@[simp] theorem trace_raise (e : ε) (s : Session Db) :
    (raise e : Program Db Edit Lock Label ε α).trace s = [] := rfl

@[simp] theorem trace_query (label : Label) (read : Db → Except ε β) (s : Session Db) :
    (query label read : Program Db Edit Lock Label ε β).trace s = [label] := by
  simp only [query, execute, trace]
  cases read s.view <;> rfl

theorem trace_bind (p : Program Db Edit Lock Label ε α) (k : α → Program Db Edit Lock Label ε β)
    (s : Session Db) : (p >>= k).trace s = p.trace s ++ match p.exec s with
      | (.ok a, t) => (k a).trace t
      | (.error _, _) => [] := by
  induction p generalizing s with
  | done r => cases r <;> rfl
  | statement l run f n ihf ihn =>
    change (statement l run (fun e => (f e).bind k) (fun b => (n b).bind k)).trace s = _
    simp only [trace, exec, List.cons_append]
    congr 1
    cases run s.view with
    | error e => exact ihf e s
    | ok o => exact ihn o.value _
  | commit n ih => exact ih _
  | rollback n ih => exact ih _

/-- The trace of a sequence whose first part succeeds. -/
theorem trace_bind_ok {p : Program Db Edit Lock Label ε α} {k : α → Program Db Edit Lock Label ε β}
    {s m : Session Db} {a : α} (h : p.exec s = (.ok a, m)) :
    (p >>= k).trace s = p.trace s ++ (k a).trace m := by
  rw [trace_bind, h]

end Trace

/-! ## Programs with labels of one kind -/

def Only (Q : Label → Prop) : Program Db Edit Lock Label ε α → Prop
  | done _ => True
  | statement label _ failed next => Q label ∧ (∀ e, (failed e).Only Q) ∧ ∀ b, (next b).Only Q
  | commit n => n.Only Q
  | rollback n => n.Only Q

section Only

variable {Q : Label → Prop}

@[simp] theorem only_done (r : Except ε α) : (done r : Program Db Edit Lock Label ε α).Only Q := trivial

@[simp] theorem only_pure (a : α) : (pure a : Program Db Edit Lock Label ε α).Only Q := trivial

@[simp] theorem only_raise (e : ε) : (raise e : Program Db Edit Lock Label ε α).Only Q := trivial

@[simp] theorem only_commitNow : (commitNow : Program Db Edit Lock Label ε Unit).Only Q := trivial

@[simp] theorem only_rollbackNow : (rollbackNow : Program Db Edit Lock Label ε Unit).Only Q := trivial

theorem only_execute {label : Label} {run : Db → Except ε (Outcome Edit Lock β)} (h : Q label) :
    (execute label run).Only Q :=
  ⟨h, fun _ => trivial, fun _ => trivial⟩

theorem only_query {label : Label} {read : Db → Except ε β} (h : Q label) :
    (query label read : Program Db Edit Lock Label ε β).Only Q :=
  only_execute h

theorem only_bind {p : Program Db Edit Lock Label ε α} {k : α → Program Db Edit Lock Label ε β}
    (hp : p.Only Q) (hk : ∀ a, (k a).Only Q) : (p >>= k).Only Q := by
  induction p with
  | done r =>
    cases r with
    | ok a => exact hk a
    | error e => trivial
  | statement label run failed next ihf ihn =>
    exact ⟨hp.1, fun e => ihf e (hp.2.1 e), fun b => ihn b (hp.2.2 b)⟩
  | commit n ih => exact ih hp
  | rollback n ih => exact ih hp

theorem only_attempt {handler : ε → Program Db Edit Lock Label ε α}
    {p : Program Db Edit Lock Label ε α} (hp : p.Only Q) (hh : ∀ e, (handler e).Only Q) :
    (attempt handler p).Only Q := by
  induction p with
  | done r =>
    cases r with
    | ok a => trivial
    | error e => exact hh e
  | statement label run failed next ihf ihn =>
    exact ⟨hp.1, fun e => ihf e (hp.2.1 e), fun b => ihn b (hp.2.2 b)⟩
  | commit n ih => exact ih hp
  | rollback n ih => exact ih hp

theorem only_each {γ : Type} {body : γ → Program Db Edit Lock Label ε Unit} {xs : List γ}
    (h : ∀ x ∈ xs, (body x).Only Q) : (each body xs).Only Q := by
  induction xs with
  | nil => trivial
  | cons x xs ih =>
    exact only_bind (h x List.mem_cons_self) fun _ => ih fun y hy => h y (List.mem_cons_of_mem x hy)

theorem Only.trace [Replay Db Edit] {p : Program Db Edit Lock Label ε α} (h : p.Only Q)
    (s : Session Db) : ∀ l ∈ p.trace s, Q l := by
  induction p generalizing s with
  | done r => exact fun _ hl => nomatch hl
  | statement label run failed next ihf ihn =>
    intro l hl
    simp only [Program.trace] at hl
    rcases List.mem_cons.mp hl with rfl | hl
    · exact h.1
    · cases hrun : run s.view with
      | error e =>
        rw [hrun] at hl
        exact ihf e (h.2.1 e) s l hl
      | ok o =>
        rw [hrun] at hl
        exact ihn o.value (h.2.2 o.value) _ l hl
  | commit n ih => exact ih h _
  | rollback n ih => exact ih h _

/-- Statements of a kind that an observer ignores leave what it has observed alone. -/
theorem Only.foldl_trace [Replay Db Edit] {p : Program Db Edit Lock Label ε α} (h : p.Only Q)
    {observe : A → Label → A} (hQ : ∀ a l, Q l → observe a l = a) (s : Session Db) (a : A) :
    (p.trace s).foldl observe a = a := by
  have hall := h.trace s
  generalize p.trace s = labels at hall
  induction labels with
  | nil => rfl
  | cons l ls ih =>
    rw [List.foldl_cons, hQ a l (hall l List.mem_cons_self)]
    exact ih fun m hm => hall m (List.mem_cons_of_mem l hm)

end Only

end Program

end Transaction
