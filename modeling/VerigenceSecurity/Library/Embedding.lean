import VerigenceSecurity.Library.Locking

/-! # Programs over a part of the rows

A program over some rows also runs where there are more of them: its statements read the part, its
edits act on the part, and its locks lie among the locks of the whole.
-/

namespace Transaction
set_option autoImplicit false

variable {Db Edit Lock Label Db' Edit' Lock' Label' ε α β : Type}

/-- Some rows as a part of others. -/
structure Embedding (Db Edit Lock Label Db' Edit' Lock' Label' : Type) [Replay Db Edit]
    [Replay Db' Edit'] where
  view : Db' → Db
  edit : Edit → Edit'
  lock : Lock → Lock'
  label : Label → Label'
  view_replay : ∀ e db, view (Replay.replay (edit e) db) = Replay.replay e (view db)

namespace Embedding

variable [Replay Db Edit] [Replay Db' Edit']
  (E : Embedding Db Edit Lock Label Db' Edit' Lock' Label')

def outcome (o : Outcome Edit Lock β) : Outcome Edit' Lock' β where
  value := o.value
  edits := o.edits.map E.edit
  locks := o.locks.map E.lock

/-- The statement, run on the part. -/
def statement (run : Db → Except ε (Outcome Edit Lock β)) (db : Db') :
    Except ε (Outcome Edit' Lock' β) := (run (E.view db)).map E.outcome

def program : Program Db Edit Lock Label ε α → Program Db' Edit' Lock' Label' ε α
  | .done r => .done r
  | .statement label run failed next =>
    .statement (E.label label) (E.statement run) (fun e => program (failed e))
      fun b => program (next b)
  | .commit p => .commit (program p)
  | .rollback p => .rollback (program p)

theorem statement_ok {run : Db → Except ε (Outcome Edit Lock β)} {db : Db'}
    {o : Outcome Edit' Lock' β} (h : E.statement run db = .ok o) :
    ∃ o', run (E.view db) = .ok o' ∧ o = E.outcome o' := by
  unfold statement at h
  cases hrun : run (E.view db) with
  | error e =>
    rw [hrun] at h
    cases h
  | ok o' =>
    rw [hrun] at h
    exact ⟨o', rfl, (Except.ok.inj h).symm⟩

/-- The edits of the program are edits of the part. -/
theorem within_program {p : Program Db Edit Lock Label ε α} {Q : Edit → Prop} {Q' : Edit' → Prop}
    (h : p.Within Q) (hQ : ∀ e, Q e → Q' (E.edit e)) : (E.program p).Within Q' := by
  induction p with
  | done r => trivial
  | statement label run failed next ihf ihn =>
    refine ⟨fun db o ho e he => ?_, fun e => ihf e (h.2.1 e), fun b => ihn b (h.2.2 b)⟩
    obtain ⟨o', hrun, rfl⟩ := E.statement_ok ho
    obtain ⟨e', he', rfl⟩ := List.mem_map.mp he
    exact hQ e' (h.1 _ o' hrun e' he')
  | commit p ih => exact h.elim
  | rollback p ih => exact h.elim

theorem writes_program {p : Program Db Edit Lock Label ε α} {Q : Edit → Prop} {Q' : Edit' → Prop}
    (h : p.Writes Q) (hQ : ∀ e, Q e → Q' (E.edit e)) : (E.program p).Writes Q' := by
  induction p with
  | done r => trivial
  | statement label run failed next ihf ihn =>
    refine ⟨fun db o ho e he => ?_, fun e => ihf e (h.2.1 e), fun b => ihn b (h.2.2 b)⟩
    obtain ⟨o', hrun, rfl⟩ := E.statement_ok ho
    obtain ⟨e', he', rfl⟩ := List.mem_map.mp he
    exact hQ e' (h.1 _ o' hrun e' he')
  | commit p ih => exact ih h
  | rollback p ih => exact ih h

end Embedding

end Transaction
