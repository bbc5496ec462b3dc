import VerigenceSecurity.Library.RelyGuarantee

/-! # Injected faults

A plan of faults says which statements and commits of a program fail, counted along the run,
whatever the rows are. A statement that fails has no effect, and a commit that fails commits
nothing. Failures can be tagged with the step that they come from.
-/

namespace Transaction
set_option autoImplicit false

variable {Db Edit Lock Label ε α κ : Type}

abbrev FaultPlan (ε : Type) := Nat → Option ε

def FaultPlan.quiet : FaultPlan ε := fun _ => none

namespace Program

/-- The program with the faults of the plan, from the `n`-th statement or commit on. A commit has
no handler, so its fault ends the program: it is to be injected before a handler is attached. -/
def failing (plan : FaultPlan ε) : Program Db Edit Lock Label ε α → Nat →
    Program Db Edit Lock Label ε α
  | done r, _ => done r
  | statement label run failed next, n =>
    statement label
      (fun db => match plan n with
        | some e => .error e
        | none => run db)
      (fun e => (failed e).failing plan (n + 1)) (fun b => (next b).failing plan (n + 1))
  | commit next, n =>
    match plan n with
    | some e => done (.error e)
    | none => commit (next.failing plan (n + 1))
  | rollback next, n => rollback (next.failing plan n)

@[simp] theorem failing_quiet (p : Program Db Edit Lock Label ε α) (n : Nat) :
    p.failing FaultPlan.quiet n = p := by
  induction p generalizing n with
  | done r => rfl
  | statement label run failed next ihf ihn =>
    simp only [failing, FaultPlan.quiet]
    exact congrArg₂ (statement label run) (funext fun e => ihf e (n + 1)) (funext fun b => ihn b (n + 1))
  | commit next ih => exact congrArg commit (ih (n + 1))
  | rollback next ih => exact congrArg rollback (ih n)

theorem Within.failing {Q : Edit → Prop} {p : Program Db Edit Lock Label ε α} (h : p.Within Q)
    (plan : FaultPlan ε) (n : Nat) : (p.failing plan n).Within Q := by
  induction p generalizing n with
  | done r => trivial
  | statement label run failed next ihf ihn =>
    refine ⟨fun db o ho => ?_, fun e => ihf e (h.2.1 e) _, fun b => ihn b (h.2.2 b) _⟩
    split at ho
    · cases ho
    · exact h.1 db o ho
  | commit next ih => exact h.elim
  | rollback next ih => exact h.elim

theorem EndsAtCommit.failing {p : Program Db Edit Lock Label ε α} (h : p.EndsAtCommit)
    (plan : FaultPlan ε) (n : Nat) : (p.failing plan n).EndsAtCommit := by
  induction p generalizing n with
  | done r => trivial
  | statement label run failed next ihf ihn => exact ⟨fun e => ihf e (h.1 e) _, fun b => ihn b (h.2 b) _⟩
  | commit next ih =>
    obtain ⟨a, rfl⟩ := h
    simp only [Program.failing]
    split
    · trivial
    · exact ⟨a, rfl⟩
  | rollback next ih => exact ih h n

/-! ### Tagged failures -/

/-- The program whose failures carry a tag, such as the step that they come from. -/
def tagged (tag : κ) :
    Program Db Edit Lock Label ε α → Program Db Edit Lock Label (κ × ε) α
  | done r => done (r.mapError (tag, ·))
  | statement label run failed next =>
    statement label (fun db => (run db).mapError (tag, ·)) (fun e => (failed e.2).tagged tag)
      (fun b => (next b).tagged tag)
  | commit next => commit (next.tagged tag)
  | rollback next => rollback (next.tagged tag)

theorem Within.tagged {Q : Edit → Prop} {p : Program Db Edit Lock Label ε α} (h : p.Within Q)
    (tag : κ) : (p.tagged tag).Within Q := by
  induction p with
  | done r => trivial
  | statement label run failed next ihf ihn =>
    refine ⟨fun db o ho => ?_, fun e => ihf e.2 (h.2.1 e.2), fun b => ihn b (h.2.2 b)⟩
    dsimp only at ho
    cases hrun : run db with
    | error e =>
      rw [hrun] at ho
      cases ho
    | ok o' =>
      rw [hrun] at ho
      cases ho
      exact h.1 db o hrun
  | commit next ih => exact h.elim
  | rollback next ih => exact h.elim

theorem EndsAtCommit.tagged {p : Program Db Edit Lock Label ε α} (h : p.EndsAtCommit) (tag : κ) :
    (p.tagged tag).EndsAtCommit := by
  induction p with
  | done r => trivial
  | statement label run failed next ihf ihn =>
    exact ⟨fun e => ihf e.2 (h.1 e.2), fun b => ihn b (h.2 b)⟩
  | commit next ih =>
    obtain ⟨a, rfl⟩ := h
    exact ⟨a, rfl⟩
  | rollback next ih => exact ih h

theorem exec_tagged [Replay Db Edit] (p : Program Db Edit Lock Label ε α) (tag : κ) (s : Session Db) :
    (p.tagged tag).exec s = ((p.exec s).1.mapError (tag, ·), (p.exec s).2) := by
  induction p generalizing s with
  | done r => rfl
  | statement label run failed next ihf ihn =>
    simp only [Program.tagged, exec]
    cases run s.view with
    | error e => exact ihf e s
    | ok o => exact ihn o.value _
  | commit next ih => exact ih _
  | rollback next ih => exact ih _

end Program

end Transaction
