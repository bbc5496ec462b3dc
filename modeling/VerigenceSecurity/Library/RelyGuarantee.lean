import VerigenceSecurity.Library.CommitOrder
import VerigenceSecurity.Library.Locking
import VerigenceSecurity.Library.Trace

/-! # Rely and guarantee

Terms say what a call may rely on whenever it takes a step, and what it then holds to:
always, at its commits and when it returns, each depending on how often the call has
committed. A call is checked against its terms along its program; in a run the terms
hold as long as what they rely on does.
-/

namespace Transaction
set_option autoImplicit false

variable {Db Edit Lock Label ε α β γ : Type}

structure Terms (Db Edit Lock Label ε α : Type) where
  rely : Nat → Progress Db Edit Lock Label → Db → Prop
  always : Nat → Progress Db Edit Lock Label → Prop
  commits : Nat → Progress Db Edit Lock Label → Db → Prop
  returns : Except ε α → Nat → Progress Db Edit Lock Label → Prop

namespace Terms

def part (T : Terms Db Edit Lock Label ε β) (post : α → Nat → Progress Db Edit Lock Label → Prop) :
    Terms Db Edit Lock Label ε α where
  rely := T.rely
  always := T.always
  commits := T.commits
  returns r n g := match r with
    | .ok a => post a n g
    | .error e => T.returns (.error e) n g

def guarded (T : Terms Db Edit Lock Label ε α) (post : ε → Nat → Progress Db Edit Lock Label → Prop) :
    Terms Db Edit Lock Label ε α where
  rely := T.rely
  always := T.always
  commits := T.commits
  returns r n g := match r with
    | .ok a => T.returns (.ok a) n g
    | .error e => post e n g

end Terms

variable [Replay Db Edit]

namespace Program

def Keeps (T : Terms Db Edit Lock Label ε α) :
    Program Db Edit Lock Label ε α → Nat → Progress Db Edit Lock Label → Prop
  | done r, n, g => T.always n g ∧ T.returns r n g
  | statement label run failed next, n, g => T.always n g ∧ ∀ db, T.rely n g db →
    match run (replayAll g.pending db) with
    | .error e => (failed e).Keeps T n (g.failed label db)
    | .ok o => (next o.value).Keeps T n (g.ran label db o)
  | commit p, n, g => T.always n g ∧ (∀ db, T.rely n g db → T.commits n g db) ∧ p.Keeps T (n + 1) g.ended
  | rollback p, n, g => T.always n g ∧ p.Keeps T n g.ended

theorem Keeps.always {T : Terms Db Edit Lock Label ε α} {p : Program Db Edit Lock Label ε α} {n : Nat}
    {g : Progress Db Edit Lock Label} (h : p.Keeps T n g) : T.always n g := by
  cases p <;> exact h.1

theorem Keeps.weaken {T U : Terms Db Edit Lock Label ε α} {p : Program Db Edit Lock Label ε α}
    {n : Nat} {g : Progress Db Edit Lock Label} (h : p.Keeps T n g)
    (hrely : ∀ n g db, U.rely n g db → T.rely n g db) (ha : ∀ n g, T.always n g → U.always n g)
    (hc : ∀ n g db, T.always n g → U.rely n g db → T.commits n g db → U.commits n g db)
    (hr : ∀ r n g, T.always n g → T.returns r n g → U.returns r n g) : p.Keeps U n g := by
  induction p generalizing n g with
  | done r => exact ⟨ha n g h.1, hr r n g h.1 h.2⟩
  | statement label run failed next ihf ihn =>
    refine ⟨ha n g h.1, fun db hdb => ?_⟩
    have hrest := h.2 db (hrely n g db hdb)
    cases hrun : run (replayAll g.pending db) with
    | error e =>
      rw [hrun] at hrest
      exact ihf e hrest
    | ok o =>
      rw [hrun] at hrest
      exact ihn o.value hrest
  | commit p ih =>
    exact ⟨ha n g h.1, fun db hdb => hc n g db h.1 hdb (h.2.1 db (hrely n g db hdb)), ih h.2.2⟩
  | rollback p ih => exact ⟨ha n g h.1, ih h.2⟩

/-- Terms that ask nothing are kept by every program. -/
theorem Keeps.of_forall {T : Terms Db Edit Lock Label ε α} (ha : ∀ n g, T.always n g)
    (hc : ∀ n g db, T.commits n g db) (hr : ∀ r n g, T.returns r n g)
    (p : Program Db Edit Lock Label ε α) (n : Nat) (g : Progress Db Edit Lock Label) :
    p.Keeps T n g := by
  induction p generalizing n g with
  | done r => exact ⟨ha n g, hr r n g⟩
  | statement label run failed next ihf ihn =>
    refine ⟨ha n g, fun db _ => ?_⟩
    cases run (replayAll g.pending db) with
    | error e => exact ihf e n _
    | ok o => exact ihn o.value n _
  | commit p ih => exact ⟨ha n g, fun db _ => hc n g db, ih (n + 1) _⟩
  | rollback p ih => exact ⟨ha n g, ih n _⟩

/-! ## Rules -/

section Rules

variable {T : Terms Db Edit Lock Label ε α} {n : Nat} {g : Progress Db Edit Lock Label}

theorem keeps_pure {a : α} (ha : T.always n g) (hr : T.returns (.ok a) n g) :
    (pure a : Program Db Edit Lock Label ε α).Keeps T n g := ⟨ha, hr⟩

theorem keeps_raise {e : ε} (ha : T.always n g) (hr : T.returns (.error e) n g) :
    (raise e : Program Db Edit Lock Label ε α).Keeps T n g := ⟨ha, hr⟩

theorem keeps_done_bind {r : Except ε β} {k : β → Program Db Edit Lock Label ε α}
    (hok : ∀ b, r = .ok b → (k b).Keeps T n g)
    (herr : ∀ e, r = .error e → T.always n g ∧ T.returns (.error e) n g) :
    (done r >>= k).Keeps T n g := by
  cases r with
  | ok b => exact hok b rfl
  | error e => exact herr e rfl

theorem keeps_execute_bind {label : Label} {run : Db → Except ε (Outcome Edit Lock β)}
    {k : β → Program Db Edit Lock Label ε α} (ha : T.always n g)
    (hok : ∀ db o, T.rely n g db → run (replayAll g.pending db) = .ok o →
      (k o.value).Keeps T n (g.ran label db o))
    (herr : ∀ db e, T.rely n g db → run (replayAll g.pending db) = .error e →
      T.always n (g.failed label db) ∧ T.returns (.error e) n (g.failed label db)) :
    (execute label run >>= k).Keeps T n g := by
  refine ⟨ha, fun db hdb => ?_⟩
  cases hrun : run (replayAll g.pending db) with
  | error e => exact herr db e hdb hrun
  | ok o => exact hok db o hdb hrun

theorem keeps_query_bind {label : Label} {read : Db → Except ε β}
    {k : β → Program Db Edit Lock Label ε α} (ha : T.always n g)
    (hok : ∀ db b, T.rely n g db → read (replayAll g.pending db) = .ok b →
      (k b).Keeps T n (g.failed label db))
    (herr : ∀ db e, T.rely n g db → read (replayAll g.pending db) = .error e →
      T.always n (g.failed label db) ∧ T.returns (.error e) n (g.failed label db)) :
    (query label read >>= k).Keeps T n g := by
  apply keeps_execute_bind ha
  · intro db o hdb ho
    cases hread : read (replayAll g.pending db) with
    | error e =>
      rw [hread] at ho
      cases ho
    | ok b =>
      rw [hread] at ho
      cases ho
      rw [Progress.ran_value]
      exact hok db b hdb hread
  · intro db e hdb he
    cases hread : read (replayAll g.pending db) with
    | error e' =>
      rw [hread] at he
      cases he
      exact herr db e hdb hread
    | ok b =>
      rw [hread] at he
      cases he

theorem keeps_commitNow_bind {k : Unit → Program Db Edit Lock Label ε α} (ha : T.always n g)
    (hc : ∀ db, T.rely n g db → T.commits n g db) (hk : (k ()).Keeps T (n + 1) g.ended) :
    (commitNow >>= k).Keeps T n g := ⟨ha, hc, hk⟩

theorem keeps_commitNow {T : Terms Db Edit Lock Label ε Unit} (ha : T.always n g)
    (hc : ∀ db, T.rely n g db → T.commits n g db) (hend : T.always (n + 1) g.ended)
    (hr : T.returns (.ok ()) (n + 1) g.ended) :
    (commitNow : Program Db Edit Lock Label ε Unit).Keeps T n g := ⟨ha, hc, hend, hr⟩

theorem keeps_rollbackNow_bind {k : Unit → Program Db Edit Lock Label ε α} (ha : T.always n g)
    (hk : (k ()).Keeps T n g.ended) : (rollbackNow >>= k).Keeps T n g := ⟨ha, hk⟩

theorem keeps_bind {T : Terms Db Edit Lock Label ε β} {p : Program Db Edit Lock Label ε α}
    {k : α → Program Db Edit Lock Label ε β} {n : Nat} {g : Progress Db Edit Lock Label}
    (h : p.Keeps (T.part fun a n g => (k a).Keeps T n g) n g) : (p >>= k).Keeps T n g := by
  induction p generalizing n g with
  | done r =>
    cases r with
    | ok a => exact h.2
    | error e => exact h
  | statement label run failed next ihf ihn =>
    refine ⟨h.1, fun db hdb => ?_⟩
    have hrest := h.2 db hdb
    cases hrun : run (replayAll g.pending db) with
    | error e =>
      rw [hrun] at hrest
      exact ihf e hrest
    | ok o =>
      rw [hrun] at hrest
      exact ihn o.value hrest
  | commit p ih => exact ⟨h.1, h.2.1, ih h.2.2⟩
  | rollback p ih => exact ⟨h.1, ih h.2⟩

theorem keeps_attempt {handler : ε → Program Db Edit Lock Label ε α}
    {p : Program Db Edit Lock Label ε α}
    (h : p.Keeps (T.guarded fun e n g => (handler e).Keeps T n g) n g) :
    (attempt handler p).Keeps T n g := by
  induction p generalizing n g with
  | done r =>
    cases r with
    | ok a => exact h
    | error e => exact h.2
  | statement label run failed next ihf ihn =>
    refine ⟨h.1, fun db hdb => ?_⟩
    have hrest := h.2 db hdb
    cases hrun : run (replayAll g.pending db) with
    | error e =>
      rw [hrun] at hrest
      exact ihf e hrest
    | ok o =>
      rw [hrun] at hrest
      exact ihn o.value hrest
  | commit p ih => exact ⟨h.1, h.2.1, ih h.2.2⟩
  | rollback p ih => exact ⟨h.1, ih h.2⟩

end Rules

end Program

/-! ## Parts of a transaction -/

structure Progress.Adds (L : Label → Prop) (g : Progress Db Edit Lock Label) (edits : List Edit)
    (g' : Progress Db Edit Lock Label) : Prop extends g.Extends edits g' where
  labels : ∀ e ∈ g'.history, e ∈ g.history ∨ L e.label

namespace Progress.Adds

omit [Replay Db Edit]

variable {L : Label → Prop} {g g' g'' : Progress Db Edit Lock Label} {es fs : List Edit}

theorem refl (g : Progress Db Edit Lock Label) : g.Adds L [] g :=
  ⟨Extends.refl g, fun _ he => Or.inl he⟩

theorem trans (h : g.Adds L es g') (k : g'.Adds L fs g'') : g.Adds L (es ++ fs) g'' := by
  refine ⟨h.toExtends.trans k.toExtends, fun e he => ?_⟩
  rcases k.labels e he with he | he
  · exact h.labels e he
  · exact Or.inr he

theorem ran {label : Label} (hl : L label) (db : Db) (o : Outcome Edit Lock β)
    (g : Progress Db Edit Lock Label) : g.Adds L o.edits (g.ran label db o) := by
  refine ⟨Extends.ran label db o g, fun e he => ?_⟩
  rcases List.mem_cons.mp he with rfl | he
  · exact Or.inr hl
  · exact Or.inl he

theorem failed {label : Label} (hl : L label) (db : Db) (g : Progress Db Edit Lock Label) :
    g.Adds L [] (g.failed label db) := by
  refine ⟨Extends.failed label db g, fun e he => ?_⟩
  rcases List.mem_cons.mp he with rfl | he
  · exact Or.inr hl
  · exact Or.inl he

end Progress.Adds

namespace Program

/-- A part that does not end the transaction, through which `I` is kept. -/
theorem keeps_within_bind {T : Terms Db Edit Lock Label ε β} {p : Program Db Edit Lock Label ε α}
    {k : α → Program Db Edit Lock Label ε β} {n : Nat} {g : Progress Db Edit Lock Label}
    {Q : Edit → Prop} {L : Label → Prop} (I : Progress Db Edit Lock Label → Prop) (hp : p.Within Q)
    (hl : p.Only L) (hg : I g)
    (hstep : ∀ g' db label (o : Outcome Edit Lock Unit), I g' → T.rely n g' db →
      I (g'.ran label db o))
    (halways : ∀ es g', I g' → g.Adds L es g' → (∀ e ∈ es, Q e) → T.always n g')
    (hk : ∀ a es g', I g' → g.Adds L es g' → (∀ e ∈ es, Q e) → (k a).Keeps T n g')
    (herr : ∀ e es g', I g' → g.Adds L es g' → (∀ e ∈ es, Q e) → T.returns (.error e) n g') :
    (p >>= k).Keeps T n g := by
  have along : ∀ es g', I g' → g.Adds L es g' → (∀ e ∈ es, Q e) → (p >>= k).Keeps T n g' := by
    induction p with
    | done r =>
      intro es g' hI hadds hes
      cases r with
      | ok a => exact hk a es g' hI hadds hes
      | error e => exact ⟨halways es g' hI hadds hes, herr e es g' hI hadds hes⟩
    | statement label run failed next ihf ihn =>
      intro es g' hI hadds hes
      refine ⟨halways es g' hI hadds hes, fun db hdb => ?_⟩
      cases hrun : run (replayAll g'.pending db) with
      | error e =>
        have hnext := hstep g' db label ⟨(), [], []⟩ hI hdb
        rw [Progress.ran_value] at hnext
        refine ihf e (hp.2.1 e) (hl.2.1 e) (es ++ []) _ hnext
          (hadds.trans (Progress.Adds.failed hl.1 db g')) ?_
        rwa [List.append_nil]
      | ok o =>
        refine ihn o.value (hp.2.2 _) (hl.2.2 _) (es ++ o.edits) _
          (hstep g' db label ⟨(), o.edits, o.locks⟩ hI hdb)
          (hadds.trans (Progress.Adds.ran hl.1 db o g')) ?_
        intro e he
        rcases List.mem_append.mp he with he | he
        · exact hes e he
        · exact hp.1 _ o hrun e he
    | commit n ih => exact hp.elim
    | rollback n ih => exact hp.elim
  exact along [] g hg (Progress.Adds.refl g) fun _ he => nomatch he

/-! ## Programs that end with their commit -/

omit [Replay Db Edit]

def EndsAtCommit : Program Db Edit Lock Label ε α → Prop
  | done _ => True
  | statement _ _ failed next => (∀ e, (failed e).EndsAtCommit) ∧ ∀ b, (next b).EndsAtCommit
  | commit p => ∃ a, p = done (.ok a)
  | rollback p => p.EndsAtCommit

theorem endsAtCommit_bind {Q : Edit → Prop} {p : Program Db Edit Lock Label ε α}
    {k : α → Program Db Edit Lock Label ε β} (hp : p.Within Q) (hk : ∀ a, (k a).EndsAtCommit) :
    (p >>= k).EndsAtCommit := by
  induction p with
  | done r =>
    cases r with
    | ok a => exact hk a
    | error e => trivial
  | statement label run failed next ihf ihn =>
    exact ⟨fun e => ihf e (hp.2.1 e), fun b => ihn b (hp.2.2 b)⟩
  | commit n ih => exact hp.elim
  | rollback n ih => exact hp.elim

theorem endsAtCommit_attempt {handler : ε → Program Db Edit Lock Label ε α}
    {p : Program Db Edit Lock Label ε α} (hp : p.EndsAtCommit) (hh : ∀ e, (handler e).EndsAtCommit) :
    (attempt handler p).EndsAtCommit := by
  induction p with
  | done r =>
    cases r with
    | ok a => trivial
    | error e => exact hh e
  | statement label run failed next ihf ihn =>
    exact ⟨fun e => ihf e (hp.1 e), fun b => ihn b (hp.2 b)⟩
  | commit n ih =>
    obtain ⟨a, rfl⟩ := hp
    exact ⟨a, rfl⟩
  | rollback n ih => exact ih hp

theorem EndsAtCommit.map {p : Program Db Edit Lock Label ε α} (h : p.EndsAtCommit) (g : α → β) :
    (p >>= fun a => pure (g a)).EndsAtCommit := by
  induction p with
  | done r => cases r <;> trivial
  | statement label run failed next ihf ihn =>
    exact ⟨fun e => ihf e (h.1 e), fun b => ihn b (h.2 b)⟩
  | commit n ih =>
    obtain ⟨a, rfl⟩ := h
    exact ⟨g a, rfl⟩
  | rollback n ih => exact ih h

/-- The one commit of the program is of edits that its statements have written. -/
theorem EndsAtCommit.commits [Replay Db Edit] {Q : Edit → Prop} {p : Program Db Edit Lock Label ε α}
    (h : p.EndsAtCommit) (hw : p.Writes Q) {g : Progress Db Edit Lock Label}
    (hg : ∀ e ∈ g.pending, Q e) : p.Commits (fun g => ∀ e ∈ g.pending, Q e) g := by
  induction p generalizing g with
  | done r => exact commits_done r
  | statement label run failed next ihf ihn =>
    refine ⟨trivial, fun db => ?_⟩
    cases hrun : run (replayAll g.pending db) with
    | error e => exact ihf e (h.1 e) (hw.2.1 e) hg
    | ok o =>
      refine ihn o.value (h.2 o.value) (hw.2.2 o.value) ?_
      intro e he
      rcases List.mem_append.mp he with he | he
      · exact hg e he
      · exact hw.1 _ o hrun e he
  | commit n ih =>
    obtain ⟨a, rfl⟩ := h
    exact ⟨trivial, hg, commits_done _⟩
  | rollback n ih => exact ⟨trivial, ih h hw (List.forall_mem_nil _)⟩

/-- A call that raises has committed nothing. -/
theorem EndsAtCommit.exec_error [Replay Db Edit] {p : Program Db Edit Lock Label ε α}
    (h : p.EndsAtCommit) {s t : Session Db} {e : ε} (hrun : p.exec s = (.error e, t)) :
    t.committed = s.committed := by
  induction p generalizing s with
  | done r =>
    cases hrun
    rfl
  | statement label run failed next ihf ihn =>
    simp only [exec] at hrun
    split at hrun
    · exact ihf _ (h.1 _) hrun
    · rename_i o _
      exact ihn o.value (h.2 o.value) (s := { s with view := replayAll o.edits s.view }) hrun
  | commit n ih =>
    obtain ⟨a, rfl⟩ := h
    cases hrun
  | rollback n ih => exact ih h (s := { s with view := s.committed }) hrun

theorem EndsAtCommit.alone_error [Replay Db Edit] {p : Program Db Edit Lock Label ε α}
    (h : p.EndsAtCommit) {db : Db} {e : ε} (hrun : (p.alone db).1 = .error e) :
    (p.alone db).2 = db :=
  h.exec_error (Prod.ext hrun rfl)

end Program

/-! ## Runs -/

theorem Call.keeps_advance {T : Terms Db Edit Lock Label ε α} {n : Nat}
    {c c' : Call Db Edit Lock Label ε α} {free : List Lock → Bool} {db db' : Db}
    (hc : c.program.Keeps T n c.progress) (hrely : c.finished = false → T.rely n c.progress db)
    (h : c.advance free db = some (c', db')) :
    c'.program.Keeps T (n + if c.committing then 1 else 0) c'.progress := by
  obtain ⟨program, g⟩ := c
  cases program with
  | done r => cases h
  | statement label run failed next =>
    have hrest := hc.2 db (hrely rfl)
    simp only [Call.advance] at h
    cases hrun : run (replayAll g.pending db) with
    | error e =>
      rw [hrun] at h hrest
      cases h
      exact hrest
    | ok o =>
      rw [hrun] at h hrest
      dsimp only at h
      split at h
      · cases h
        exact hrest
      · cases h
  | commit next =>
    cases h
    exact hc.2.2
  | rollback next =>
    cases h
    exact hc.2

/-- A step ended the transaction of the call, or it was a statement on the committed rows. -/
theorem Call.progress_of_advance {c c' : Call Db Edit Lock Label ε α} {free : List Lock → Bool}
    {db db' : Db} (h : c.advance free db = some (c', db')) : c'.progress = c.progress.ended ∨
      db' = db ∧ ∀ e ∈ c'.progress.history.head?, e.committed = db := by
  obtain ⟨program, g⟩ := c
  cases program with
  | done r => cases h
  | statement label run failed next =>
    simp only [Call.advance] at h
    split at h
    · cases h
      exact Or.inr ⟨rfl, fun e he => by cases he; rfl⟩
    · split at h
      · cases h
        exact Or.inr ⟨rfl, fun e he => by cases he; rfl⟩
      · cases h
  | commit next =>
    cases h
    exact Or.inl rfl
  | rollback next =>
    cases h
    exact Or.inl rfl

/-- A commit ends the transaction. -/
theorem Call.ended_of_committing {c c' : Call Db Edit Lock Label ε α} {free : List Lock → Bool}
    {db db' : Db} (hcommit : c.committing = true) (h : c.advance free db = some (c', db')) :
    c'.progress = c.progress.ended := by
  obtain ⟨program, g⟩ := c
  cases program with
  | commit next =>
    cases h
    rfl
  | done r => cases hcommit
  | statement label run failed next => cases hcommit
  | rollback next => cases hcommit

def Call.nextLabel (c : Call Db Edit Lock Label ε α) : Option Label :=
  match c.program with
  | .statement label .. => some label
  | _ => none

/-- A step runs one statement, or it adds nothing to the history. -/
theorem Call.entry_of_advance {c c' : Call Db Edit Lock Label ε α} {free : List Lock → Bool}
    {db db' : Db} (h : c.advance free db = some (c', db')) :
    c'.progress.history = c.progress.history ∨ db' = db ∧
      ∃ e, c.nextLabel = some e.label ∧ e.committed = db ∧
        c'.progress.history = e :: c.progress.history := by
  obtain ⟨program, g⟩ := c
  cases program with
  | done r => cases h
  | statement label run failed next =>
    simp only [Call.advance] at h
    split at h
    · cases h
      exact Or.inr ⟨rfl, _, rfl, rfl, rfl⟩
    · split at h
      · cases h
        exact Or.inr ⟨rfl, _, rfl, rfl, rfl⟩
      · cases h
  | commit next =>
    cases h
    exact Or.inl rfl
  | rollback next =>
    cases h
    exact Or.inl rfl

/-- A step adds at most one entry to the history. -/
theorem Call.history_of_advance {c c' : Call Db Edit Lock Label ε α} {free : List Lock → Bool}
    {db db' : Db} (h : c.advance free db = some (c', db')) :
    c'.progress.history = c.progress.history ∨
      ∃ e, e.committed = db ∧ c'.progress.history = e :: c.progress.history := by
  rcases entry_of_advance h with hsame | ⟨_, e, _, hcommitted, hnew⟩
  · exact Or.inl hsame
  · exact Or.inr ⟨e, hcommitted, hnew⟩

/-- What is committed now, and was whenever a call ran a statement, has this property. -/
structure State.Saw (P : Db → Prop) (s : State Db Edit Lock Label ε α) : Prop where
  now : P s.committed
  then_ : ∀ (i : Nat) (c : Call Db Edit Lock Label ε α), s.calls[i]? = some c →
    ∀ e ∈ c.progress.history, P e.committed

omit [Replay Db Edit] in
theorem State.saw_initial {P : Db → Prop} {db : Db} (h : P db)
    (programs : List (Program Db Edit Lock Label ε α)) : (State.initial db programs).Saw P := by
  refine ⟨h, fun i c hc e he => ?_⟩
  simp only [State.initial, List.getElem?_map] at hc
  obtain ⟨p, _, rfl⟩ := Option.map_eq_some_iff.mp hc
  cases he

theorem State.Saw.step {P : Db → Prop} {conflict : Lock → Lock → Bool}
    {s t : State Db Edit Lock Label ε α} {i : Nat} (hs : s.Saw P) (hnow : P t.committed)
    (h : s.step conflict i = some t) : t.Saw P := by
  obtain ⟨c, c', hc, ha, hcalls⟩ := State.step_cases h
  refine ⟨hnow, fun j d hd e he => ?_⟩
  rcases State.call_cases hcalls hd with ⟨rfl, rfl⟩ | ⟨_, hd⟩
  · rcases Call.history_of_advance ha with hsame | ⟨e', hcommitted, hnew⟩
    · rw [hsame] at he
      exact hs.then_ j c hc e he
    · rw [hnew] at he
      rcases List.mem_cons.mp he with rfl | he
      · rw [hcommitted]
        exact hs.now
      · exact hs.then_ j c hc e he
  · exact hs.then_ j d hd e he

def State.Since (R : Db → Db → Prop) (s : State Db Edit Lock Label ε α) : Prop :=
  ∀ (i : Nat) (c : Call Db Edit Lock Label ε α), s.calls[i]? = some c →
    ∀ e ∈ c.progress.history, R e.committed s.committed

omit [Replay Db Edit] in
theorem State.since_initial (R : Db → Db → Prop) (db : Db)
    (programs : List (Program Db Edit Lock Label ε α)) : (State.initial db programs).Since R := by
  intro i c hc e he
  simp only [State.initial, List.getElem?_map] at hc
  obtain ⟨p, _, rfl⟩ := Option.map_eq_some_iff.mp hc
  cases he

theorem State.Since.step {R : Db → Db → Prop} {conflict : Lock → Lock → Bool}
    {s t : State Db Edit Lock Label ε α} {i : Nat} (htrans : ∀ a b c, R a b → R b c → R a c)
    (hs : s.Since R) (hR : R s.committed t.committed) (h : s.step conflict i = some t) :
    t.Since R := by
  obtain ⟨c, c', hc, ha, hcalls⟩ := State.step_cases h
  intro j d hd e he
  rcases State.call_cases hcalls hd with ⟨rfl, rfl⟩ | ⟨_, hd⟩
  · rcases Call.history_of_advance ha with hsame | ⟨e', hcommitted, hnew⟩
    · rw [hsame] at he
      exact htrans _ _ _ (hs j c hc e he) hR
    · rw [hnew] at he
      rcases List.mem_cons.mp he with rfl | he
      · rw [hcommitted]
        exact hR
      · exact htrans _ _ _ (hs j c hc e he) hR
  · exact htrans _ _ _ (hs j d hd e he) hR

/-- Who takes a step has not returned yet. -/
theorem Call.unfinished_of_advance {c : Call Db Edit Lock Label ε α} {free : List Lock → Bool}
    {db : Db} {r : Call Db Edit Lock Label ε α × Db} (h : c.advance free db = some r) :
    c.finished = false := by
  obtain ⟨program, g⟩ := c
  cases program with
  | done r => cases h
  | statement label run failed next => rfl
  | commit next => rfl
  | rollback next => rfl

def State.Finds (F : Nat → Entry Db Edit Label → Db → Prop) (s : State Db Edit Lock Label ε α) :
    Prop :=
  ∀ (i : Nat) (c : Call Db Edit Lock Label ε α), s.calls[i]? = some c → c.finished = false →
    ∀ e ∈ c.progress.history, F i e s.committed

omit [Replay Db Edit] in
theorem State.finds_initial (F : Nat → Entry Db Edit Label → Db → Prop) (db : Db)
    (programs : List (Program Db Edit Lock Label ε α)) : (State.initial db programs).Finds F := by
  intro i c hc _ e he
  simp only [State.initial, List.getElem?_map] at hc
  obtain ⟨p, _, rfl⟩ := Option.map_eq_some_iff.mp hc
  cases he

theorem State.Finds.step {F : Nat → Entry Db Edit Label → Db → Prop} {conflict : Lock → Lock → Bool}
    {s t : State Db Edit Lock Label ε α} {i : Nat} (hs : s.Finds F)
    (hnew : ∀ c : Call Db Edit Lock Label ε α, s.calls[i]? = some c →
      ∀ e, c.nextLabel = some e.label → e.committed = s.committed → F i e s.committed)
    (hkeeps : ∀ (j : Nat) (d : Call Db Edit Lock Label ε α), s.calls[j]? = some d →
      d.finished = false → ∀ e ∈ d.progress.history, F j e s.committed → F j e t.committed)
    (h : s.step conflict i = some t) : t.Finds F := by
  obtain ⟨c, c', hc, ha, hcalls⟩ := State.step_cases h
  have hopen := Call.unfinished_of_advance ha
  have hold : ∀ e ∈ c.progress.history, F i e t.committed :=
    fun e he => hkeeps i c hc hopen e he (hs i c hc hopen e he)
  intro j d hd hunfinished e he
  rcases State.call_cases hcalls hd with ⟨rfl, rfl⟩ | ⟨_, hd⟩
  · rcases Call.entry_of_advance ha with hsame | ⟨hdb, e', hlabel, hcommitted, hadded⟩
    · rw [hsame] at he
      exact hold e he
    · rw [hadded] at he
      rcases List.mem_cons.mp he with rfl | he
      · rw [hdb]
        exact hnew c hc e hlabel hcommitted
      · exact hold e he
  · exact hkeeps j d hd hunfinished e he (hs j d hd hunfinished e he)

namespace State

variable {conflict : Lock → Lock → Bool}

/-- Each call keeps the terms with its index; `order` lists the commits so far. -/
def Keeps (T : Nat → Terms Db Edit Lock Label ε α) (order : List Nat)
    (s : State Db Edit Lock Label ε α) : Prop :=
  ∀ i (c : Call Db Edit Lock Label ε α), s.calls[i]? = some c →
    c.program.Keeps (T i) (order.count i) c.progress

theorem keeps_initial {T : Nat → Terms Db Edit Lock Label ε α} {db : Db}
    {programs : List (Program Db Edit Lock Label ε α)}
    (h : ∀ i (p : Program Db Edit Lock Label ε α), programs[i]? = some p →
      p.Keeps (T i) 0 Progress.start) : (initial db programs).Keeps T [] := by
  intro i c hc
  simp only [initial, List.getElem?_map] at hc
  obtain ⟨p, hp, rfl⟩ := Option.map_eq_some_iff.mp hc
  exact h i p hp

theorem Keeps.step {T : Nat → Terms Db Edit Lock Label ε α} {order : List Nat}
    {s t : State Db Edit Lock Label ε α} {i : Nat} (hs : s.Keeps T order)
    (hrely : ∀ c : Call Db Edit Lock Label ε α, s.calls[i]? = some c → c.finished = false →
      (T i).rely (order.count i) c.progress s.committed)
    (h : s.step conflict i = some t) : t.Keeps T (s.orderAfter i order) := by
  obtain ⟨c, c', hc, ha, hcalls⟩ := step_cases h
  have hi : s.commitsNext i = c.committing := by simp [commitsNext, hc]
  intro j d hd
  rw [orderAfter, List.count_append, hi]
  rcases call_cases hcalls hd with ⟨rfl, rfl⟩ | ⟨hji, hd⟩
  · have hcount : List.count j (if c.committing then [j] else []) = if c.committing then 1 else 0 := by
      cases c.committing <;> simp
    rw [hcount]
    exact Call.keeps_advance (hs j c hc) (hrely c hc) ha
  · have hcount : List.count j (if c.committing then [i] else []) = 0 := by
      cases c.committing
      · rfl
      · simp [Ne.symm hji]
    rw [hcount]
    exact hs j d hd

/-- A step leaves the committed rows alone, or it is a commit that keeps its terms. -/
theorem Keeps.committed {T : Nat → Terms Db Edit Lock Label ε α} {order : List Nat}
    {s t : State Db Edit Lock Label ε α} {i : Nat} (hs : s.Keeps T order)
    (hrely : ∀ c : Call Db Edit Lock Label ε α, s.calls[i]? = some c → c.finished = false →
      (T i).rely (order.count i) c.progress s.committed)
    (h : s.step conflict i = some t) :
    (s.commitsNext i = false ∧ t.committed = s.committed) ∨
      ∃ c, s.calls[i]? = some c ∧ s.commitsNext i = true ∧ c.committing = true ∧
        (T i).always (order.count i) c.progress ∧
        (T i).commits (order.count i) c.progress s.committed ∧
        t.committed = replayAll c.progress.pending s.committed := by
  obtain ⟨c, c', hc, ha, _⟩ := step_cases h
  have hi : s.commitsNext i = c.committing := by simp [commitsNext, hc]
  rw [hi]
  rcases committed_of_advance ha with ⟨hnot, hdb⟩ | ⟨hcommit, hdb⟩
  · exact Or.inl ⟨hnot, hdb⟩
  · have hown := hs i c hc
    have hr := hrely c hc
    refine Or.inr ⟨c, hc, hcommit, hcommit, hown.always, ?_, hdb⟩
    obtain ⟨program, g⟩ := c
    cases program with
    | commit next => exact hown.2.1 s.committed (hr rfl)
    | done r => cases ha
    | statement label run failed next => cases hcommit
    | rollback next => cases hcommit

section Invariant

variable {T : Nat → Terms Db Edit Lock Label ε α} {ok : State Db Edit Lock Label ε α → Nat → Prop}
  {inv : List Nat → State Db Edit Lock Label ε α → Prop}

theorem Reaches.keeps
    (hrely : ∀ order s i, s.Keeps T order → inv order s → ok s i →
      ∀ c : Call Db Edit Lock Label ε α, s.calls[i]? = some c → c.finished = false →
        (T i).rely (order.count i) c.progress s.committed)
    (hstep : ∀ order s t i, s.Keeps T order → inv order s → ok s i →
      s.step conflict i = some t → inv (s.orderAfter i order) t)
    {s t : State Db Edit Lock Label ε α} {order : List Nat} (hs : s.Keeps T order)
    (hinv : inv order s) (h : Reaches conflict ok s t) :
    ∃ order, t.Keeps T order ∧ inv order t := by
  induction h with
  | refl => exact ⟨order, hs, hinv⟩
  | step _ hok hnext ih =>
    obtain ⟨order', hkeeps, hinv'⟩ := ih
    exact ⟨_, hkeeps.step (hrely _ _ _ hkeeps hinv' hok) hnext, hstep _ _ _ _ hkeeps hinv' hok hnext⟩

end Invariant

end State

/-! ## Answers -/

namespace State

variable {conflict : Lock → Lock → Bool}

omit [Replay Db Edit] in
def answer (s : State Db Edit Lock Label ε α) (i : Nat) : Option α :=
  match s.calls[i]? with
  | some ⟨.done (.ok a), _⟩ => some a
  | _ => none

omit [Replay Db Edit] in
theorem answer_eq_some_iff {s : State Db Edit Lock Label ε α} {i : Nat} {a : α} :
    s.answer i = some a ↔
      ∃ c : Call Db Edit Lock Label ε α, s.calls[i]? = some c ∧ c.program = .done (.ok a) := by
  unfold answer
  constructor
  · intro h
    split at h
    · rename_i b g hc
      cases h
      exact ⟨_, hc, rfl⟩
    · cases h
  · rintro ⟨⟨program, g⟩, hc, rfl⟩
    rw [hc]

/-- A call that has returned takes no further step. -/
theorem answer_step {s t : State Db Edit Lock Label ε α} {i j : Nat} {a : α}
    (h : s.step conflict i = some t) (ha : s.answer j = some a) : t.answer j = some a := by
  obtain ⟨c, c', hc, hadvance, hcalls⟩ := step_cases h
  obtain ⟨d, hd, hdone⟩ := answer_eq_some_iff.mp ha
  rw [answer_eq_some_iff]
  refine ⟨d, ?_, hdone⟩
  have hij : i ≠ j := by
    rintro rfl
    rw [hc] at hd
    cases hd
    unfold Call.advance at hadvance
    rw [hdone] at hadvance
    cases hadvance
  rw [hcalls, List.getElem?_set_ne hij]
  exact hd

structure EndAtCommit (order : List Nat) (s : State Db Edit Lock Label ε α) : Prop where
  ends : ∀ (i : Nat) (c : Call Db Edit Lock Label ε α), s.calls[i]? = some c →
    c.program.EndsAtCommit
  answered : ∀ i ∈ order, ∃ a, s.answer i = some a

omit [Replay Db Edit] in
theorem endAtCommit_initial {db : Db} {programs : List (Program Db Edit Lock Label ε α)}
    (h : ∀ p ∈ programs, p.EndsAtCommit) : (initial db programs).EndAtCommit [] := by
  refine ⟨fun i c hc => ?_, nofun⟩
  simp only [initial, List.getElem?_map] at hc
  obtain ⟨p, hp, rfl⟩ := Option.map_eq_some_iff.mp hc
  exact h p (List.mem_of_getElem? hp)

/-- What a call returns that has just committed. -/
theorem EndAtCommit.answer_of_commit {order : List Nat} {s t : State Db Edit Lock Label ε α} {i : Nat}
    (hs : s.EndAtCommit order) (h : s.step conflict i = some t) (hi : s.commitsNext i = true) :
    ∃ (a : α) (c : Call Db Edit Lock Label ε α), s.calls[i]? = some c ∧
      c.program = .commit (.done (.ok a)) ∧ t.calls[i]? = some ⟨.done (.ok a), c.progress.ended⟩ ∧
      t.answer i = some a := by
  obtain ⟨c, c', hc, hadvance, hcalls⟩ := step_cases h
  have hends := hs.ends i c hc
  generalize t.committed = db at hadvance
  rw [commitsNext, hc, Option.any_some] at hi
  obtain ⟨program, g⟩ := c
  cases program with
  | commit next =>
    obtain ⟨a, rfl⟩ := hends
    cases hadvance
    have hlen : i < s.calls.length := (List.getElem?_eq_some_iff.mp hc).1
    have hnow : t.calls[i]? = some ⟨.done (.ok a), g.ended⟩ := by
      rw [hcalls, List.getElem?_set_self hlen]
    exact ⟨a, _, hc, rfl, hnow, answer_eq_some_iff.mpr ⟨_, hnow, rfl⟩⟩
  | done r => cases hi
  | statement label run failed next => cases hi
  | rollback next => cases hi

theorem EndAtCommit.step {order : List Nat} {s t : State Db Edit Lock Label ε α} {i : Nat}
    (hs : s.EndAtCommit order) (h : s.step conflict i = some t) :
    t.EndAtCommit (s.orderAfter i order) := by
  constructor
  · obtain ⟨c, c', hc, hadvance, hcalls⟩ := step_cases h
    generalize t.committed = db at hadvance
    intro j d hd
    rcases call_cases hcalls hd with ⟨rfl, rfl⟩ | ⟨_, hd⟩
    · have hends := hs.ends j c hc
      obtain ⟨program, g⟩ := c
      cases program with
      | done r => cases hadvance
      | statement label run failed next =>
        simp only [Call.advance] at hadvance
        split at hadvance
        · cases hadvance
          exact hends.1 _
        · split at hadvance
          · cases hadvance
            exact hends.2 _
          · cases hadvance
      | commit next =>
        obtain ⟨a, rfl⟩ := hends
        cases hadvance
        trivial
      | rollback next =>
        cases hadvance
        exact hends
    · exact hs.ends j d hd
  · intro j hj
    rcases List.mem_append.mp hj with hj | hj
    · obtain ⟨a, ha⟩ := hs.answered j hj
      exact ⟨a, answer_step h ha⟩
    · cases hi : s.commitsNext i with
      | true =>
        rw [hi] at hj
        obtain ⟨a, _, _, _, _, ha⟩ := hs.answer_of_commit h hi
        rw [List.mem_singleton.mp hj]
        exact ⟨a, ha⟩
      | false =>
        rw [hi] at hj
        cases hj

omit [Replay Db Edit] in
def answers (s : State Db Edit Lock Label ε α) (order : List Nat) : List (Nat × α) :=
  order.filterMap fun i => (s.answer i).map fun a => (i, a)

theorem EndAtCommit.answers_step {order : List Nat} {s t : State Db Edit Lock Label ε α} {i : Nat}
    (hs : s.EndAtCommit order) (h : s.step conflict i = some t) :
    t.answers order = s.answers order := by
  apply List.filterMap_congr
  intro j hj
  obtain ⟨a, ha⟩ := hs.answered j hj
  rw [ha, answer_step h ha]

theorem EndAtCommit.answers_commit {order : List Nat} {s t : State Db Edit Lock Label ε α} {i : Nat}
    {a : α} (hs : s.EndAtCommit order) (h : s.step conflict i = some t) (ha : t.answer i = some a) :
    t.answers (order ++ [i]) = s.answers order ++ [(i, a)] := by
  rw [← hs.answers_step h]
  simp only [answers, List.filterMap_append, List.filterMap_cons, List.filterMap_nil, ha, Option.map_some]

end State

end Transaction
