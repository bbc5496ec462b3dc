import VerigenceSecurity.Library.RelyGuarantee

/-! # Answers given by a commit

Programs that answer only by a commit, whatever fails on the way ending in an error. What such a
program commits with its answer is checked along the program; in a run, every answer dates from one
step, which committed what was checked.
-/

namespace Transaction
set_option autoImplicit false

variable {Db Edit Lock Label ε α β : Type}

namespace Program

def NeverAnswers : Program Db Edit Lock Label ε α → Prop
  | done r => ∀ a, r ≠ .ok a
  | statement _ _ failed next => (∀ e, (failed e).NeverAnswers) ∧ ∀ b, (next b).NeverAnswers
  | commit p => p.NeverAnswers
  | rollback p => p.NeverAnswers

section NeverAnswers

variable {p : Program Db Edit Lock Label ε α} {k : α → Program Db Edit Lock Label ε β}

theorem neverAnswers_raise (e : ε) : (raise e : Program Db Edit Lock Label ε α).NeverAnswers :=
  fun _ h => by cases h

theorem neverAnswers_bind_left (h : p.NeverAnswers) : (p >>= k).NeverAnswers := by
  induction p with
  | done r =>
    cases r with
    | ok a => exact absurd rfl (h a)
    | error e => exact neverAnswers_raise e
  | statement label run failed next ihf ihn => exact ⟨fun e => ihf e (h.1 e), fun b => ihn b (h.2 b)⟩
  | commit p ih => exact ih h
  | rollback p ih => exact ih h

theorem neverAnswers_bind (h : ∀ a, (k a).NeverAnswers) : (p >>= k).NeverAnswers := by
  induction p with
  | done r =>
    cases r with
    | ok a => exact h a
    | error e => exact neverAnswers_raise e
  | statement label run failed next ihf ihn => exact ⟨ihf, ihn⟩
  | commit p ih => exact ih
  | rollback p ih => exact ih

theorem neverAnswers_attempt {handler : ε → Program Db Edit Lock Label ε α} (hp : p.NeverAnswers)
    (hh : ∀ e, (handler e).NeverAnswers) : (attempt handler p).NeverAnswers := by
  induction p with
  | done r =>
    cases r with
    | ok a => exact absurd rfl (hp a)
    | error e => exact hh e
  | statement label run failed next ihf ihn => exact ⟨fun e => ihf e (hp.1 e), fun b => ihn b (hp.2 b)⟩
  | commit p ih => exact ih hp
  | rollback p ih => exact ih hp

end NeverAnswers

variable [Replay Db Edit]

/-- A part that ends no transaction: what holds where it hands over. -/
def Yields (rely : Progress Db Edit Lock Label → Db → Prop)
    (post : α → Progress Db Edit Lock Label → Prop) :
    Program Db Edit Lock Label ε α → Progress Db Edit Lock Label → Prop
  | done r, g => ∀ a, r = .ok a → post a g
  | statement label run failed next, g => ∀ db, rely g db →
    match run (replayAll g.pending db) with
    | .error e => (failed e).Yields rely post (g.failed label db)
    | .ok o => (next o.value).Yields rely post (g.ran label db o)
  | commit _, _ => False
  | rollback _, _ => False

/-- The program answers by a commit, and what it then commits stands in `R` to the answer. -/
def Answers (rely : Progress Db Edit Lock Label → Db → Prop)
    (R : α → Progress Db Edit Lock Label → Db → Prop) :
    Program Db Edit Lock Label ε α → Progress Db Edit Lock Label → Prop
  | done r, _ => ∀ a, r ≠ .ok a
  | statement label run failed next, g => ∀ db, rely g db →
    match run (replayAll g.pending db) with
    | .error e => (failed e).Answers rely R (g.failed label db)
    | .ok o => (next o.value).Answers rely R (g.ran label db o)
  | commit p, g => (∃ a, p = done (.ok a) ∧ ∀ db, rely g db → R a g db) ∨ p.NeverAnswers
  | rollback p, g => p.Answers rely R g.ended

section Rules

variable {rely : Progress Db Edit Lock Label → Db → Prop}
  {post : α → Progress Db Edit Lock Label → Prop} {R : α → Progress Db Edit Lock Label → Db → Prop}
  {g : Progress Db Edit Lock Label} {p : Program Db Edit Lock Label ε α}

theorem yields_done {r : Except ε α} (h : ∀ a, r = .ok a → post a g) :
    (done r : Program Db Edit Lock Label ε α).Yields rely post g := h

theorem yields_pure {a : α} (h : post a g) :
    (pure a : Program Db Edit Lock Label ε α).Yields rely post g :=
  fun _ ha => by cases ha; exact h

theorem yields_raise (e : ε) : (raise e : Program Db Edit Lock Label ε α).Yields rely post g :=
  fun _ h => by cases h

theorem yields_execute {label : Label} {run : Db → Except ε (Outcome Edit Lock α)}
    (h : ∀ db o, rely g db → run (replayAll g.pending db) = .ok o →
      post o.value (g.ran label db o)) : (execute label run).Yields rely post g := by
  intro db hdb
  cases hrun : run (replayAll g.pending db) with
  | error e => exact yields_raise e
  | ok o => exact yields_pure (h db o hdb hrun)

theorem yields_query {label : Label} {read : Db → Except ε α}
    (h : ∀ db a, rely g db → read (replayAll g.pending db) = .ok a →
      post a (g.ran label db (⟨a, [], []⟩ : Outcome Edit Lock α))) :
    (query label read).Yields rely post g := by
  apply yields_execute
  intro db o hdb ho
  cases hread : read (replayAll g.pending db) with
  | error e =>
    rw [hread] at ho
    cases ho
  | ok a =>
    rw [hread] at ho
    cases ho
    exact h db a hdb hread

theorem yields_bind {p : Program Db Edit Lock Label ε β} {k : β → Program Db Edit Lock Label ε α}
    (h : p.Yields rely (fun b g => (k b).Yields rely post g) g) : (p >>= k).Yields rely post g := by
  induction p generalizing g with
  | done r =>
    cases r with
    | ok b => exact h b rfl
    | error e => exact yields_raise e
  | statement label run failed next ihf ihn =>
    intro db hdb
    have hrest := h db hdb
    cases hrun : run (replayAll g.pending db) with
    | error e =>
      rw [hrun] at hrest
      exact ihf e hrest
    | ok o =>
      rw [hrun] at hrest
      exact ihn o.value hrest
  | commit p => exact h.elim
  | rollback p => exact h.elim

/-- A part whose statements keep `I`. -/
theorem yields_within {Q : Edit → Prop} (I : Progress Db Edit Lock Label → Prop) (hp : p.Within Q)
    (hI : ∀ g db label (o : Outcome Edit Lock Unit), I g → rely g db → (∀ e ∈ o.edits, Q e) →
      I (g.ran label db o)) (hg : I g) (hpost : ∀ a g', I g' → post a g') : p.Yields rely post g := by
  induction p generalizing g with
  | done r => exact fun a _ => hpost a g hg
  | statement label run failed next ihf ihn =>
    intro db hdb
    cases hrun : run (replayAll g.pending db) with
    | error e =>
      have hnext := hI g db label ⟨(), [], []⟩ hg hdb (List.forall_mem_nil _)
      rw [Progress.ran_value] at hnext
      exact ihf e (hp.2.1 e) hnext
    | ok o =>
      exact ihn o.value (hp.2.2 o.value) (hI g db label ⟨(), o.edits, o.locks⟩ hg hdb (hp.1 _ o hrun))
  | commit p => exact hp.elim
  | rollback p => exact hp.elim

/-- A part that reads before anything is written. -/
theorem yields_reads (hp : p.Within fun _ => False) (hg : g.pending = [])
    (hpost : ∀ a g', g'.pending = [] → post a g') : p.Yields rely post g := by
  refine yields_within (fun g => g.pending = []) hp (fun g' db label o hg' _ ho => ?_) hg hpost
  simp only [Progress.ran, hg', List.eq_nil_iff_forall_not_mem.mpr ho, List.append_nil]

theorem Yields.and {post' : α → Progress Db Edit Lock Label → Prop} (h : p.Yields rely post g)
    (h' : p.Yields rely post' g) : p.Yields rely (fun a g => post a g ∧ post' a g) g := by
  induction p generalizing g with
  | done r => exact fun a ha => ⟨h a ha, h' a ha⟩
  | statement label run failed next ihf ihn =>
    intro db hdb
    have hrest := h db hdb
    have hrest' := h' db hdb
    cases hrun : run (replayAll g.pending db) with
    | error e =>
      rw [hrun] at hrest hrest'
      exact ihf e hrest hrest'
    | ok o =>
      rw [hrun] at hrest hrest'
      exact ihn o.value hrest hrest'
  | commit p => exact h.elim
  | rollback p => exact h.elim

theorem Yields.weaken {post' : α → Progress Db Edit Lock Label → Prop} (h : p.Yields rely post g)
    (hpost : ∀ a g', post a g' → post' a g') : p.Yields rely post' g := by
  induction p generalizing g with
  | done r => exact fun a ha => hpost a g (h a ha)
  | statement label run failed next ihf ihn =>
    intro db hdb
    have hrest := h db hdb
    cases hrun : run (replayAll g.pending db) with
    | error e =>
      rw [hrun] at hrest
      exact ihf e hrest
    | ok o =>
      rw [hrun] at hrest
      exact ihn o.value hrest
  | commit p => exact h.elim
  | rollback p => exact h.elim

theorem NeverAnswers.answers (h : p.NeverAnswers) : p.Answers rely R g := by
  induction p generalizing g with
  | done r => exact h
  | statement label run failed next ihf ihn =>
    intro db _
    cases run (replayAll g.pending db) with
    | error e => exact ihf e (h.1 e)
    | ok o => exact ihn o.value (h.2 o.value)
  | commit p => exact Or.inr h
  | rollback p ih => exact ih h

theorem answers_raise (e : ε) : (raise e : Program Db Edit Lock Label ε α).Answers rely R g :=
  (neverAnswers_raise e).answers

theorem answers_bind {p : Program Db Edit Lock Label ε β} {k : β → Program Db Edit Lock Label ε α}
    (h : p.Yields rely (fun b g => (k b).Answers rely R g) g) : (p >>= k).Answers rely R g := by
  induction p generalizing g with
  | done r =>
    cases r with
    | ok b => exact h b rfl
    | error e => exact answers_raise e
  | statement label run failed next ihf ihn =>
    intro db hdb
    have hrest := h db hdb
    cases hrun : run (replayAll g.pending db) with
    | error e =>
      rw [hrun] at hrest
      exact ihf e hrest
    | ok o =>
      rw [hrun] at hrest
      exact ihn o.value hrest
  | commit p => exact h.elim
  | rollback p => exact h.elim

/-- A guarded part; its handler does not answer. -/
theorem answers_attempt_bind {p : Program Db Edit Lock Label ε β}
    {k : β → Program Db Edit Lock Label ε α} {handler : ε → Program Db Edit Lock Label ε β}
    (h : p.Yields rely (fun b g => (k b).Answers rely R g) g) (hh : ∀ e, (handler e).NeverAnswers) :
    (attempt handler p >>= k).Answers rely R g := by
  induction p generalizing g with
  | done r =>
    cases r with
    | ok b => exact h b rfl
    | error e => exact (neverAnswers_bind_left (hh e)).answers
  | statement label run failed next ihf ihn =>
    intro db hdb
    have hrest := h db hdb
    cases hrun : run (replayAll g.pending db) with
    | error e =>
      rw [hrun] at hrest
      exact ihf e hrest
    | ok o =>
      rw [hrun] at hrest
      exact ihn o.value hrest
  | commit p => exact h.elim
  | rollback p => exact h.elim

theorem answers_attempt {handler : ε → Program Db Edit Lock Label ε α} (h : p.Answers rely R g)
    (hh : ∀ e, (handler e).NeverAnswers) : (attempt handler p).Answers rely R g := by
  induction p generalizing g with
  | done r =>
    cases r with
    | ok a => exact absurd rfl (h a)
    | error e => exact (hh e).answers
  | statement label run failed next ihf ihn =>
    intro db hdb
    have hrest := h db hdb
    cases hrun : run (replayAll g.pending db) with
    | error e =>
      rw [hrun] at hrest
      exact ihf e hrest
    | ok o =>
      rw [hrun] at hrest
      exact ihn o.value hrest
  | commit p =>
    rcases h with ⟨a, rfl, hR⟩ | hnever
    · exact Or.inl ⟨a, rfl, hR⟩
    · exact Or.inr (neverAnswers_attempt hnever hh)
  | rollback p ih => exact ih h

theorem answers_commit {a : α} (h : ∀ db, rely g db → R a g db) :
    (commitNow >>= fun _ => pure a : Program Db Edit Lock Label ε α).Answers rely R g :=
  Or.inl ⟨a, rfl, h⟩

theorem Answers.weaken {R' : α → Progress Db Edit Lock Label → Db → Prop} (h : p.Answers rely R g)
    (hR : ∀ a g db, R a g db → R' a g db) : p.Answers rely R' g := by
  induction p generalizing g with
  | done r => exact h
  | statement label run failed next ihf ihn =>
    intro db hdb
    have hrest := h db hdb
    cases hrun : run (replayAll g.pending db) with
    | error e =>
      rw [hrun] at hrest
      exact ihf e hrest
    | ok o =>
      rw [hrun] at hrest
      exact ihn o.value hrest
  | commit p => exact h.imp_left fun ⟨a, ha, hcommit⟩ => ⟨a, ha, fun db hdb => hR a g db (hcommit db hdb)⟩
  | rollback p ih => exact ih h

theorem Answers.map {R' : β → Progress Db Edit Lock Label → Db → Prop} (f : α → β)
    (h : p.Answers rely R g) (hR : ∀ a g db, R a g db → R' (f a) g db) :
    (p >>= fun a => pure (f a)).Answers rely R' g := by
  induction p generalizing g with
  | done r =>
    cases r with
    | ok a => exact absurd rfl (h a)
    | error e => exact answers_raise e
  | statement label run failed next ihf ihn =>
    intro db hdb
    have hrest := h db hdb
    cases hrun : run (replayAll g.pending db) with
    | error e =>
      rw [hrun] at hrest
      exact ihf e hrest
    | ok o =>
      rw [hrun] at hrest
      exact ihn o.value hrest
  | commit p =>
    rcases h with ⟨a, rfl, hcommit⟩ | hnever
    · exact Or.inl ⟨f a, rfl, fun db hdb => hR a g db (hcommit db hdb)⟩
    · exact Or.inr (neverAnswers_bind_left hnever)
  | rollback p ih => exact ih h

end Rules

end Program

/-! ## Runs -/

variable [Replay Db Edit] {conflict : Lock → Lock → Bool}

namespace State

section Answering

variable {rely : Progress Db Edit Lock Label → Db → Prop}
  {R : α → Progress Db Edit Lock Label → Db → Prop}

def Answering (rely : Progress Db Edit Lock Label → Db → Prop)
    (R : α → Progress Db Edit Lock Label → Db → Prop) (s : State Db Edit Lock Label ε α) (i : Nat) :
    Prop :=
  ∀ c : Call Db Edit Lock Label ε α, s.calls[i]? = some c →
    c.program.Answers rely R c.progress ∨ ∃ a, c.program = .done (.ok a)

def AnswersAt (R : α → Progress Db Edit Lock Label → Db → Prop)
    (s t : State Db Edit Lock Label ε α) (i : Nat) (a : α) : Prop :=
  ∃ g, s.calls[i]? = some ⟨.commit (.done (.ok a)), g⟩ ∧ R a g s.committed ∧
    t.committed = replayAll g.pending s.committed

/-- A step of the call itself: either it answers by its commit, or it goes on. -/
theorem Answering.own_step {s t : State Db Edit Lock Label ε α} {i : Nat} (hs : s.Answering rely R i)
    (hrely : ∀ c : Call Db Edit Lock Label ε α, s.calls[i]? = some c → c.finished = false →
      rely c.progress s.committed) (h : s.step conflict i = some t) :
    t.Answering rely R i ∧ ∀ a, t.answer i = some a → AnswersAt R s t i a := by
  obtain ⟨c, c', hc, hadvance, hcalls⟩ := step_cases h
  have hlen : i < s.calls.length := (List.getElem?_eq_some_iff.mp hc).1
  have hnow : t.calls[i]? = some c' := by rw [hcalls, List.getElem?_set_self hlen]
  have hrelied := hrely c hc (Call.unfinished_of_advance hadvance)
  have howner := hs c hc
  have hgoes : c'.program.Answers rely R c'.progress →
      t.Answering rely R i ∧ ∀ a, t.answer i = some a → AnswersAt R s t i a := by
    refine fun hrest => ⟨fun d hd => ?_, fun a ha => ?_⟩
    · rw [hnow] at hd
      cases hd
      exact Or.inl hrest
    · obtain ⟨d, hd, hdone⟩ := answer_eq_some_iff.mp ha
      rw [hnow] at hd
      cases hd
      rw [hdone] at hrest
      exact absurd rfl (hrest a)
  unfold AnswersAt at *
  generalize t.committed = db at *
  obtain ⟨program, g⟩ := c
  cases program with
  | done r => cases hadvance
  | statement label run failed next =>
    rcases howner with howner | ⟨a, ha⟩
    · have hrest := howner s.committed hrelied
      simp only [Call.advance] at hadvance
      cases hrun : run (replayAll g.pending s.committed) with
      | error e =>
        rw [hrun] at hadvance hrest
        cases hadvance
        exact hgoes hrest
      | ok o =>
        rw [hrun] at hadvance hrest
        dsimp only at hadvance
        split at hadvance
        · cases hadvance
          exact hgoes hrest
        · cases hadvance
    · cases ha
  | rollback next =>
    rcases howner with howner | ⟨a, ha⟩
    · cases hadvance
      exact hgoes howner
    · cases ha
  | commit next =>
    rcases howner with (⟨a, rfl, hR⟩ | hnever) | ⟨a, ha⟩
    · cases hadvance
      refine ⟨fun d hd => ?_, fun b hb => ?_⟩
      · rw [hnow] at hd
        cases hd
        exact Or.inr ⟨a, rfl⟩
      · obtain ⟨d, hd, hdone⟩ := answer_eq_some_iff.mp hb
        rw [hnow] at hd
        cases hd
        cases hdone
        exact ⟨g, hc, hR s.committed hrelied, rfl⟩
    · cases hadvance
      exact hgoes hnever.answers
    · cases ha

omit [Replay Db Edit] in
theorem answer_of_other {s t : State Db Edit Lock Label ε α} {i j : Nat}
    {c' : Call Db Edit Lock Label ε α} (hcalls : t.calls = s.calls.set i c') (hij : i ≠ j) :
    t.calls[j]? = s.calls[j]? := by
  rw [hcalls, List.getElem?_set_ne hij]

theorem Answering.step {s t : State Db Edit Lock Label ε α} {i j : Nat} (hs : s.Answering rely R j)
    (hrely : ∀ c : Call Db Edit Lock Label ε α, s.calls[j]? = some c → c.finished = false →
      rely c.progress s.committed) (h : s.step conflict i = some t) :
    t.Answering rely R j ∧ (s.answer j = none → ∀ a, t.answer j = some a →
      i = j ∧ AnswersAt R s t j a) := by
  by_cases hij : i = j
  · subst hij
    obtain ⟨hgoes, hanswers⟩ := hs.own_step hrely h
    exact ⟨hgoes, fun _ a ha => ⟨rfl, hanswers a ha⟩⟩
  · obtain ⟨c, c', hc, hadvance, hcalls⟩ := step_cases h
    have hsame := answer_of_other hcalls hij
    refine ⟨fun d hd => hs d (hsame ▸ hd), fun hnone a ha => ?_⟩
    rw [answer, hsame] at ha
    rw [answer] at hnone
    rw [hnone] at ha
    cases ha

/-- The one step at which a call gave its answer, in a run whose states keep what it relies on. -/
theorem answer_by_commit {ok : State Db Edit Lock Label ε α → Nat → Prop}
    {inv : State Db Edit Lock Label ε α → Prop} {i : Nat}
    (hrely : ∀ s, inv s → ∀ c : Call Db Edit Lock Label ε α, s.calls[i]? = some c →
      c.finished = false → rely c.progress s.committed)
    (hstep : ∀ s t j, inv s → s.step conflict j = some t → inv t)
    {s t : State Db Edit Lock Label ε α} {a : α} (hinv : inv s) (hs : s.Answering rely R i)
    (hnone : s.answer i = none) (h : Reaches conflict ok s t) :
    t.Answering rely R i ∧ inv t ∧ (t.answer i = some a → ∃ before after,
      Reaches conflict ok s before ∧ before.step conflict i = some after ∧
        Reaches conflict ok after t ∧ AnswersAt R before after i a) := by
  induction h with
  | refl =>
    refine ⟨hs, hinv, fun ha => ?_⟩
    rw [hnone] at ha
    cases ha
  | @step u v j hreach hok hnext ih =>
    obtain ⟨hanswering, hu, hearlier⟩ := ih
    obtain ⟨hgoes, hanswers⟩ := hanswering.step (hrely u hu) hnext
    refine ⟨hgoes, hstep u v j hu hnext, fun ha => ?_⟩
    cases hanswered : u.answer i with
    | some b =>
      have hkept := answer_step hnext hanswered
      rw [ha] at hkept
      obtain ⟨before, after, hbefore, hown, hafter, hat⟩ := hearlier (hkept ▸ hanswered)
      exact ⟨before, after, hbefore, hown, hafter.step hok hnext, hat⟩
    | none =>
      obtain ⟨rfl, hat⟩ := hanswers hanswered a ha
      exact ⟨u, v, hreach, hnext, .refl, hat⟩

theorem answering_initial (db : Db) {programs : List (Program Db Edit Lock Label ε α)} {i : Nat}
    (h : ∀ p, programs[i]? = some p → p.Answers rely R Progress.start) :
    (initial db programs).Answering rely R i ∧ (initial db programs).answer i = none := by
  have hcalls : ∀ c : Call Db Edit Lock Label ε α, (initial db programs).calls[i]? = some c →
      c.program.Answers rely R Progress.start ∧ c.progress = Progress.start := by
    intro c hc
    simp only [initial, List.getElem?_map] at hc
    obtain ⟨p, hp, rfl⟩ := Option.map_eq_some_iff.mp hc
    exact ⟨h p hp, rfl⟩
  refine ⟨fun c hc => Or.inl ?_, ?_⟩
  · rw [(hcalls c hc).2]
    exact (hcalls c hc).1
  cases ha : (initial db programs).answer i with
  | none => rfl
  | some a =>
    obtain ⟨c, hc, hdone⟩ := answer_eq_some_iff.mp ha
    have hnot := (hcalls c hc).1
    rw [hdone] at hnot
    exact absurd rfl (hnot a)

end Answering

end State

end Transaction
