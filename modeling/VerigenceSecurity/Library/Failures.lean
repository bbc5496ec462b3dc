import VerigenceSecurity.Library.Transaction

/-! # The failures of a program

`Raises E`: whatever the rows are, the program only raises failures in `E`.
-/

namespace Transaction
set_option autoImplicit false

variable {Db Edit Lock Label ε α β γ : Type}

namespace Program

def Raises (E : ε → Prop) : Program Db Edit Lock Label ε α → Prop
  | done r => ∀ e, r = .error e → E e
  | statement _ run failed next =>
    (∀ db e, run db = .error e → (failed e).Raises E) ∧ ∀ b, (next b).Raises E
  | commit next | rollback next => next.Raises E

variable {E : ε → Prop}

@[simp] theorem raises_pure (a : α) : (pure a : Program Db Edit Lock Label ε α).Raises E :=
  fun _ h => nomatch h

theorem raises_raise {e : ε} (h : E e) : (raise e : Program Db Edit Lock Label ε α).Raises E := by
  intro f hf
  rwa [← Except.error.inj hf]

theorem raises_execute {label : Label} {run : Db → Except ε (Outcome Edit Lock β)}
    (h : ∀ db e, run db = .error e → E e) : (execute label run).Raises E :=
  ⟨fun db e hrun => raises_raise (h db e hrun), fun b => raises_pure b⟩

theorem raises_query {label : Label} {read : Db → Except ε β}
    (h : ∀ db e, read db = .error e → E e) :
    (query label read : Program Db Edit Lock Label ε β).Raises E := by
  refine raises_execute fun db e hrun => h db e ?_
  cases hread : read db with
  | error f =>
    rw [hread] at hrun
    exact congrArg Except.error (Except.error.inj hrun)
  | ok b =>
    rw [hread] at hrun
    cases hrun

@[simp] theorem raises_commitNow : (commitNow : Program Db Edit Lock Label ε Unit).Raises E :=
  fun _ h => nomatch h

@[simp] theorem raises_rollbackNow : (rollbackNow : Program Db Edit Lock Label ε Unit).Raises E :=
  fun _ h => nomatch h

theorem raises_bind {p : Program Db Edit Lock Label ε α} {k : α → Program Db Edit Lock Label ε β}
    (hp : p.Raises E) (hk : ∀ a, (k a).Raises E) : (p >>= k).Raises E := by
  induction p with
  | done r =>
    cases r with
    | ok a => exact hk a
    | error e => exact fun f hf => hp f (congrArg Except.error (Except.error.inj hf))
  | statement label run failed next ihf ihn =>
    exact ⟨fun db e hrun => ihf e (hp.1 db e hrun), fun b => ihn b (hp.2 b)⟩
  | commit n ih => exact ih hp
  | rollback n ih => exact ih hp

theorem raises_each {body : γ → Program Db Edit Lock Label ε Unit} {xs : List γ}
    (h : ∀ x ∈ xs, (body x).Raises E) : (each body xs).Raises E := by
  induction xs with
  | nil => exact raises_pure ()
  | cons x xs ih =>
    exact raises_bind (h x List.mem_cons_self) fun _ => ih fun y hy => h y (List.mem_cons_of_mem x hy)

theorem Raises.exec [Replay Db Edit] {p : Program Db Edit Lock Label ε α} (h : p.Raises E)
    {s t : Session Db} {e : ε} (hrun : p.exec s = (.error e, t)) : E e := by
  induction p generalizing s with
  | done r => exact h e (congrArg Prod.fst hrun)
  | statement label run failed next ihf ihn =>
    simp only [Program.exec] at hrun
    cases hread : run s.view with
    | error f =>
      rw [hread] at hrun
      exact ihf f (h.1 s.view f hread) hrun
    | ok o =>
      rw [hread] at hrun
      exact ihn o.value (h.2 o.value) hrun
  | commit n ih => exact ih h hrun
  | rollback n ih => exact ih h hrun

end Program

end Transaction
