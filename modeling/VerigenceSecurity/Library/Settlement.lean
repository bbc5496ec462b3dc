import Mathlib.Data.List.Induction
import VerigenceSecurity.Library.Answers

/-! # What calls commit and then report

A program whose last commit is followed by nothing but reading: what its commits do, and what every
later answer tells about the last one, are checked along the program. In a run each answer dates from
one place of the schedule, so calls that spend the same thing are one call.
-/

namespace Transaction
set_option autoImplicit false

variable {Db Edit Lock Label ε α β : Type}

/-- What a program relies on, what its commit does, what an answer tells about the commit before it,
and which answers need no commit. -/
structure Settlement (Db Edit Lock Label α : Type) where
  rely : Progress Db Edit Lock Label → Db → Prop
  commits : Progress Db Edit Lock Label → Db → Prop
  answers : α → Progress Db Edit Lock Label → Db → Prop
  idle : α → Prop

def settlementAt {γ : Type*} (S : γ → Settlement Db Edit Lock Label α)
    (nobody : Settlement Db Edit Lock Label α) (calls : List γ) (i : Nat) :
    Settlement Db Edit Lock Label α :=
  (calls[i]?.map S).getD nobody

section Calls

variable {γ : Type*} {S : γ → Settlement Db Edit Lock Label α}
  {nobody : Settlement Db Edit Lock Label α} {calls : List γ} {call : γ} {i : Nat}

theorem settlementAt_eq (h : calls[i]? = some call) : settlementAt S nobody calls i = S call := by
  simp [settlementAt, h]

/-- What all of the calls have in common. -/
theorem settlementAt_all {P : Settlement Db Edit Lock Label α → Prop} (hnobody : P nobody)
    (h : ∀ call, P (S call)) (i : Nat) : P (settlementAt S nobody calls i) := by
  unfold settlementAt
  cases calls[i]? with
  | none => exact hnobody
  | some call => exact h call

end Calls

namespace Program

def Reports (P : α → Prop) : Program Db Edit Lock Label ε α → Prop
  | done r => ∀ a, r = .ok a → P a
  | statement _ _ failed next => (∀ e, (failed e).Reports P) ∧ ∀ b, (next b).Reports P
  | commit _ => False
  | rollback p => p.Reports P

section Reports

variable {P : α → Prop}

theorem reports_pure {a : α} (h : P a) : (pure a : Program Db Edit Lock Label ε α).Reports P :=
  fun _ ha => by cases ha; exact h

theorem reports_raise (e : ε) : (raise e : Program Db Edit Lock Label ε α).Reports P :=
  fun _ ha => by cases ha

theorem reports_query_bind {label : Label} {read : Db → Except ε β}
    {k : β → Program Db Edit Lock Label ε α} (h : ∀ b, (k b).Reports P) :
    (query label read >>= k).Reports P :=
  ⟨fun e => reports_raise e, h⟩

theorem Reports.weaken {P' : α → Prop} {p : Program Db Edit Lock Label ε α} (h : p.Reports P)
    (hP : ∀ a, P a → P' a) : p.Reports P' := by
  induction p with
  | done r => exact fun a ha => hP a (h a ha)
  | statement label run failed next ihf ihn => exact ⟨fun e => ihf e (h.1 e), fun b => ihn b (h.2 b)⟩
  | commit p => exact h.elim
  | rollback p ih => exact ih h

theorem reports_attempt {handler : ε → Program Db Edit Lock Label ε α}
    {p : Program Db Edit Lock Label ε α} (hp : p.Reports P) (hh : ∀ e, (handler e).Reports P) :
    (attempt handler p).Reports P := by
  induction p with
  | done r =>
    cases r with
    | ok a => exact hp
    | error e => exact hh e
  | statement label run failed next ihf ihn => exact ⟨fun e => ihf e (hp.1 e), fun b => ihn b (hp.2 b)⟩
  | commit p => exact hp.elim
  | rollback p ih => exact ih hp

theorem Reports.bind {P' : β → Prop} {p : Program Db Edit Lock Label ε α}
    {k : α → Program Db Edit Lock Label ε β} (h : p.Reports P) (hk : ∀ a, P a → (k a).Reports P') :
    (p >>= k).Reports P' := by
  induction p with
  | done r =>
    cases r with
    | ok a => exact hk a (h a rfl)
    | error e => exact reports_raise e
  | statement label run failed next ihf ihn => exact ⟨fun e => ihf e (h.1 e), fun b => ihn b (h.2 b)⟩
  | commit p => exact h.elim
  | rollback p ih => exact ih h

end Reports

variable [Replay Db Edit]

def Settles (S : Settlement Db Edit Lock Label α) :
    Program Db Edit Lock Label ε α → Progress Db Edit Lock Label → Prop
  | done r, _ => ∀ a, r = .ok a → S.idle a
  | statement label run failed next, g => ∀ db, S.rely g db →
    match run (replayAll g.pending db) with
    | .error e => (failed e).Settles S (g.failed label db)
    | .ok o => (next o.value).Settles S (g.ran label db o)
  | commit p, g => (∀ db, S.rely g db → S.commits g db) ∧
    (p.Settles S g.ended ∨ ∀ db, S.rely g db → p.Reports fun a => S.answers a g db)
  | rollback p, g => p.Settles S g.ended

section Rules

variable {S : Settlement Db Edit Lock Label α} {g : Progress Db Edit Lock Label}
  {p : Program Db Edit Lock Label ε α}

theorem settles_pure {a : α} (h : S.idle a) :
    (pure a : Program Db Edit Lock Label ε α).Settles S g :=
  fun _ ha => by cases ha; exact h

theorem settles_raise (e : ε) : (raise e : Program Db Edit Lock Label ε α).Settles S g :=
  fun _ ha => by cases ha

theorem settles_bind {p : Program Db Edit Lock Label ε β} {k : β → Program Db Edit Lock Label ε α}
    (h : p.Yields S.rely (fun b g => (k b).Settles S g) g) : (p >>= k).Settles S g := by
  induction p generalizing g with
  | done r =>
    cases r with
    | ok b => exact h b rfl
    | error e => exact settles_raise e
  | statement label run failed next ihf ihn =>
    intro db hdb
    have hrest := h db hdb
    cases hrun : run (replayAll g.pending db) with
    | error e =>
      rw [hrun] at hrest
      exact ihf e hrest
    | ok o =>
      rw [hrun] at hrest
      exact ihn o.value hrest
  | commit p => exact h.elim
  | rollback p => exact h.elim

theorem settles_commit_bind {k : Unit → Program Db Edit Lock Label ε α}
    (h : ∀ db, S.rely g db → S.commits g db ∧ (k ()).Reports fun a => S.answers a g db) :
    (commitNow >>= k).Settles S g :=
  ⟨fun db hdb => (h db hdb).1, Or.inr fun db hdb => (h db hdb).2⟩

/-- Only edits of one kind, and nothing that an answer would tell about them. -/
theorem Writes.settles {Q : Edit → Prop} (h : p.Writes Q) (hg : ∀ e ∈ g.pending, Q e)
    (hidle : ∀ a, S.idle a)
    (hcommits : ∀ g db, (∀ e ∈ g.pending, Q e) → S.rely g db → S.commits g db) : p.Settles S g := by
  induction p generalizing g with
  | done r => exact fun a _ => hidle a
  | statement label run failed next ihf ihn =>
    intro db hdb
    cases hrun : run (replayAll g.pending db) with
    | error e => exact ihf e (h.2.1 e) hg
    | ok o =>
      refine ihn o.value (h.2.2 o.value) fun e he => ?_
      rcases List.mem_append.mp he with he | he
      · exact hg e he
      · exact h.1 _ o hrun e he
  | commit p ih =>
    exact ⟨fun db hdb => hcommits g db hg hdb, Or.inl (ih h (List.forall_mem_nil _))⟩
  | rollback p ih => exact ih h (List.forall_mem_nil _)

theorem settles_rollback_bind {k : Unit → Program Db Edit Lock Label ε α}
    (h : (k ()).Settles S g.ended) : (rollbackNow >>= k).Settles S g := h

/-- A handler that only gives up. -/
theorem settles_attempt {handler : ε → Program Db Edit Lock Label ε α} (h : p.Settles S g)
    (hh : ∀ e g, (handler e).Settles S g) (hr : ∀ e P, (handler e).Reports P) :
    (attempt handler p).Settles S g := by
  induction p generalizing g with
  | done r =>
    cases r with
    | ok a => exact h
    | error e => exact hh e g
  | statement label run failed next ihf ihn =>
    intro db hdb
    have hrest := h db hdb
    cases hrun : run (replayAll g.pending db) with
    | error e =>
      rw [hrun] at hrest
      exact ihf e hrest
    | ok o =>
      rw [hrun] at hrest
      exact ihn o.value hrest
  | commit p ih =>
    exact ⟨h.1, h.2.imp ih fun hreports db hdb => reports_attempt (hreports db hdb) fun e => hr e _⟩
  | rollback p ih => exact ih h

/-- A part that commits, with what comes after it. -/
theorem Settles.bind {S' : Settlement Db Edit Lock Label β} {k : α → Program Db Edit Lock Label ε β}
    (h : p.Settles S g) (hrely : ∀ g db, S'.rely g db → S.rely g db)
    (hidle : ∀ a g, S.idle a → (k a).Settles S' g)
    (hcommits : ∀ g db, S.commits g db → S'.commits g db)
    (hanswers : ∀ a g db, S.answers a g db → (k a).Reports fun b => S'.answers b g db) :
    (p >>= k).Settles S' g := by
  induction p generalizing g with
  | done r =>
    cases r with
    | ok a => exact hidle a g (h a rfl)
    | error e => exact settles_raise e
  | statement label run failed next ihf ihn =>
    intro db hdb
    have hrest := h db (hrely g db hdb)
    cases hrun : run (replayAll g.pending db) with
    | error e =>
      rw [hrun] at hrest
      exact ihf e hrest
    | ok o =>
      rw [hrun] at hrest
      exact ihn o.value hrest
  | commit p ih =>
    exact ⟨fun db hdb => hcommits g db (h.1 db (hrely g db hdb)), h.2.imp ih fun hreports db hdb =>
      (hreports db (hrely g db hdb)).bind fun a => hanswers a g db⟩
  | rollback p ih => exact ih h

theorem Settles.map {S' : Settlement Db Edit Lock Label β} (f : α → β) (h : p.Settles S g)
    (hrely : ∀ g db, S'.rely g db → S.rely g db) (hidle : ∀ a, S.idle a → S'.idle (f a))
    (hcommits : ∀ g db, S.commits g db → S'.commits g db)
    (hanswers : ∀ a g db, S.answers a g db → S'.answers (f a) g db) :
    (p >>= fun a => pure (f a)).Settles S' g :=
  h.bind hrely (fun a _ ha => settles_pure (hidle a ha)) hcommits
    fun a g db ha => reports_pure (hanswers a g db ha)

end Rules

end Program

/-! ## What a call makes of the rows -/

section Ensures

variable [Replay Db Edit] {rely : Progress Db Edit Lock Label → Db → Prop} {R R' : Db → Db → Prop}
  {g : Progress Db Edit Lock Label} {db : Db}

/-- Whichever rows the call would commit on, as far as it relies on them, its edits make of them
rows that stand in this relation to them. -/
def Progress.Ensures (rely : Progress Db Edit Lock Label → Db → Prop) (R : Db → Db → Prop)
    (g : Progress Db Edit Lock Label) : Prop :=
  ∀ db, rely g db → R db (replayAll g.pending db)

def Steady (rely : Progress Db Edit Lock Label → Db → Prop) : Prop :=
  ∀ (g : Progress Db Edit Lock Label) (db db' : Db) (label : Label) (o : Outcome Edit Lock Unit),
    rely g db → rely (g.ran label db o) db' → rely g db'

omit [Replay Db Edit] in
theorem Steady.earlier (h : Steady rely) {label : Label} {o : Outcome Edit Lock β} {db' : Db}
    (hdb : rely g db) (hdb' : rely (g.ran label db o) db') : rely g db' :=
  h g db db' label ⟨(), o.edits, o.locks⟩ hdb hdb'

theorem Progress.Ensures.ran (h : g.Ensures rely R) (hsteady : Steady rely) (hdb : rely g db)
    (label : Label) (o : Outcome Edit Lock β)
    (hnext : ∀ a b, R a b → R' a (replayAll o.edits b)) : (g.ran label db o).Ensures rely R' := by
  intro db' hdb'
  have hbefore := hsteady.earlier hdb hdb'
  have hrun : replayAll (g.ran label db o).pending db' = replayAll o.edits (replayAll g.pending db') :=
    replayAll_append g.pending o.edits db'
  rw [hrun]
  exact hnext db' _ (h db' hbefore)

/-- Edits that keep the relation. -/
theorem Progress.Ensures.edits (h : g.Ensures rely R) (hsteady : Steady rely) (hdb : rely g db)
    (label : Label) (o : Outcome Edit Lock β) {Q : Edit → Prop}
    (hR : ∀ e a b, Q e → R a b → R a (Replay.replay e b)) (ho : ∀ e ∈ o.edits, Q e) :
    (g.ran label db o).Ensures rely R :=
  h.ran hsteady hdb label o fun a _ hab =>
    Program.replayAll_keeps (fun e b he hb => hR e a b he hb) ho hab

theorem Program.yields_ensures {p : Program Db Edit Lock Label ε α} {Q : Edit → Prop}
    {post : α → Progress Db Edit Lock Label → Prop} (hp : p.Within Q) (hsteady : Steady rely)
    (hR : ∀ e a b, Q e → R a b → R a (Replay.replay e b)) (hg : g.Ensures rely R)
    (hpost : ∀ a g', g'.Ensures rely R → post a g') : p.Yields rely post g :=
  Program.yields_within (fun g => g.Ensures rely R) hp
    (fun _ _ label o hg hdb ho => hg.edits hsteady hdb label o hR ho) hg hpost

theorem Progress.Ensures.weaken (h : g.Ensures rely R) (hR : ∀ a b, R a b → R' a b) :
    g.Ensures rely R' :=
  fun db hdb => hR db _ (h db hdb)

end Ensures

/-! ## Runs -/

namespace State

variable [Replay Db Edit] {conflict : Lock → Lock → Bool}

theorem run_append {s : State Db Edit Lock Label ε α} {before after : List Nat} :
    s.run conflict (before ++ after) = (s.run conflict before).bind fun t => t.run conflict after := by
  induction before generalizing s with
  | nil => rfl
  | cons i is ih =>
    simp only [List.cons_append, run, Option.bind_assoc]
    exact congrArg _ (funext fun t => ih)

/-- The states that runs reach are the states that schedules lead to. -/
theorem Reaches.exists_run {ok : State Db Edit Lock Label ε α → Nat → Prop}
    {s t : State Db Edit Lock Label ε α} (h : Reaches conflict ok s t) :
    ∃ schedule, s.run conflict schedule = some t := by
  induction h with
  | refl => exact ⟨[], rfl⟩
  | @step u v i _ _ hstep ih =>
    obtain ⟨schedule, hrun⟩ := ih
    refine ⟨schedule ++ [i], ?_⟩
    rw [run_append, hrun]
    simp [run, hstep]

structure CommitsAt (conflict : Lock → Lock → Bool) (S : Settlement Db Edit Lock Label α)
    (s t : State Db Edit Lock Label ε α) (schedule : List Nat) (i : Nat)
    (g : Progress Db Edit Lock Label) (before after : State Db Edit Lock Label ε α) (n : Nat) :
    Prop where
  place : schedule[n]? = some i
  reached : s.run conflict (schedule.take n) = some before
  step : before.step conflict i = some after
  rest : after.run conflict (schedule.drop (n + 1)) = some t
  commits : S.commits g before.committed
  committed : after.committed = replayAll g.pending before.committed

/-- Where the call with this index stands: it has not committed, or it has at one place of the
schedule, and what it may still answer tells about that. -/
def Settling (conflict : Lock → Lock → Bool) (S : Settlement Db Edit Lock Label α)
    (s t : State Db Edit Lock Label ε α) (schedule : List Nat) (i : Nat) : Prop :=
  ∀ c : Call Db Edit Lock Label ε α, t.calls[i]? = some c → c.program.Settles S c.progress ∨
    ∃ g before after n, CommitsAt conflict S s t schedule i g before after n ∧
      c.program.Reports fun a => S.answers a g before.committed

theorem CommitsAt.snoc {S : Settlement Db Edit Lock Label α} {s t u : State Db Edit Lock Label ε α}
    {schedule : List Nat} {i j n : Nat} {g : Progress Db Edit Lock Label}
    {before after : State Db Edit Lock Label ε α}
    (h : CommitsAt conflict S s t schedule i g before after n) (hstep : t.step conflict j = some u) :
    CommitsAt conflict S s u (schedule ++ [j]) i g before after n := by
  have hn : n < schedule.length := (List.getElem?_eq_some_iff.mp h.place).1
  refine { h with place := ?_, reached := ?_, rest := ?_ }
  · rw [List.getElem?_append_left hn]
    exact h.place
  · rw [List.take_append_of_le_length (Nat.le_of_lt hn)]
    exact h.reached
  · rw [List.drop_append_of_le_length hn, run_append, h.rest]
    simp [run, hstep]

/-- What a step can do to a call that settles: go on, commit and go on, or commit for good. -/
theorem settles_advance {S : Settlement Db Edit Lock Label α}
    {c c' : Call Db Edit Lock Label ε α} {free : List Lock → Bool} {db db' : Db}
    (h : c.program.Settles S c.progress) (hdb : S.rely c.progress db)
    (hadvance : c.advance free db = some (c', db')) :
    (c'.program.Settles S c'.progress ∧
        (db' = db ∨ S.commits c.progress db ∧ db' = replayAll c.progress.pending db)) ∨
      (S.commits c.progress db ∧ db' = replayAll c.progress.pending db ∧
        c'.program.Reports fun a => S.answers a c.progress db) := by
  obtain ⟨program, g⟩ := c
  cases program with
  | done r => cases hadvance
  | statement label run failed next =>
    have hrest := h db hdb
    simp only [Call.advance] at hadvance
    cases hrun : run (replayAll g.pending db) with
    | error e =>
      rw [hrun] at hadvance hrest
      cases hadvance
      exact Or.inl ⟨hrest, Or.inl rfl⟩
    | ok o =>
      rw [hrun] at hadvance hrest
      dsimp only at hadvance
      split at hadvance
      · cases hadvance
        exact Or.inl ⟨hrest, Or.inl rfl⟩
      · cases hadvance
  | commit next =>
    cases hadvance
    rcases h.2 with hgoes | hreports
    · exact Or.inl ⟨hgoes, Or.inr ⟨h.1 db hdb, rfl⟩⟩
    · exact Or.inr ⟨h.1 db hdb, rfl, hreports db hdb⟩
  | rollback next =>
    cases hadvance
    exact Or.inl ⟨h, Or.inl rfl⟩

/-- A call that only reports leaves the committed rows alone. -/
theorem reports_advance {P : α → Prop} {c c' : Call Db Edit Lock Label ε α}
    {free : List Lock → Bool} {db db' : Db} (h : c.program.Reports P)
    (hadvance : c.advance free db = some (c', db')) : c'.program.Reports P ∧ db' = db := by
  obtain ⟨program, g⟩ := c
  cases program with
  | done r => cases hadvance
  | statement label run failed next =>
    simp only [Call.advance] at hadvance
    split at hadvance
    · cases hadvance
      exact ⟨h.1 _, rfl⟩
    · split at hadvance
      · cases hadvance
        exact ⟨h.2 _, rfl⟩
      · cases hadvance
  | commit next => exact h.elim
  | rollback next =>
    cases hadvance
    exact ⟨h, rfl⟩

section Runs

variable {S : Nat → Settlement Db Edit Lock Label α} {inv : State Db Edit Lock Label ε α → Prop}
  {s t u : State Db Edit Lock Label ε α} {schedule : List Nat} {i j : Nat}

/-- A step of this call leaves the committed rows alone, or commits what has been checked. -/
def Advances (S : Nat → Settlement Db Edit Lock Label α) (j : Nat)
    (s t : State Db Edit Lock Label ε α) : Prop :=
  t.committed = s.committed ∨
    ∃ g, (S j).commits g s.committed ∧ t.committed = replayAll g.pending s.committed

theorem Settling.advances (h : Settling conflict (S j) s t schedule j)
    (hrely : ∀ c : Call Db Edit Lock Label ε α, t.calls[j]? = some c → c.finished = false →
      (S j).rely c.progress t.committed) (hstep : t.step conflict j = some u) : Advances S j t u := by
  obtain ⟨c, c', hc, hadvance, _⟩ := step_cases hstep
  rcases h c hc with hsettles | ⟨g, before, after, n, _, hreports⟩
  · rcases settles_advance hsettles (hrely c hc (Call.unfinished_of_advance hadvance)) hadvance with
      ⟨_, hsame | ⟨hcommits, hdb⟩⟩ | ⟨hcommits, hdb, _⟩
    · exact Or.inl hsame
    · exact Or.inr ⟨c.progress, hcommits, hdb⟩
    · exact Or.inr ⟨c.progress, hcommits, hdb⟩
  · exact Or.inl (reports_advance hreports hadvance).2

theorem Settling.step (h : Settling conflict (S i) s t schedule i)
    (hreached : s.run conflict schedule = some t)
    (hrely : ∀ c : Call Db Edit Lock Label ε α, t.calls[i]? = some c → c.finished = false →
      (S i).rely c.progress t.committed) (hstep : t.step conflict j = some u) :
    Settling conflict (S i) s u (schedule ++ [j]) i := by
  obtain ⟨c, c', hc, hadvance, hcalls⟩ := step_cases hstep
  intro d hd
  rcases call_cases hcalls hd with ⟨rfl, rfl⟩ | ⟨hij, hd⟩
  · rcases h c hc with hsettles | ⟨g, before, after, n, hat, hreports⟩
    · rcases settles_advance hsettles (hrely c hc (Call.unfinished_of_advance hadvance)) hadvance with
        ⟨hgoes, _⟩ | ⟨hcommits, hdb, hreports⟩
      · exact Or.inl hgoes
      · refine Or.inr ⟨c.progress, t, u, schedule.length, ⟨?_, ?_, hstep, ?_, hcommits, hdb⟩, hreports⟩
        · simp
        · simpa using hreached
        · simp [run]
    · exact Or.inr ⟨g, before, after, n, hat.snoc hstep, (reports_advance hreports hadvance).1⟩
  · exact (h d hd).imp_right fun ⟨g, before, after, n, hat, hreports⟩ =>
      ⟨g, before, after, n, hat.snoc hstep, hreports⟩

theorem settling_initial {γ : Type*} {S : γ → Settlement Db Edit Lock Label α}
    {nobody : Settlement Db Edit Lock Label α} {calls : List γ} (db : Db)
    {program : γ → Program Db Edit Lock Label ε α}
    (h : ∀ call, (program call).Settles (S call) Progress.start) (i : Nat) :
    Settling conflict (settlementAt S nobody calls i) (initial db (calls.map program))
      (initial db (calls.map program)) [] i := by
  intro c hc
  simp only [initial, List.getElem?_map] at hc
  obtain ⟨p, hp, rfl⟩ := Option.map_eq_some_iff.mp hc
  obtain ⟨call, hcall, rfl⟩ := Option.map_eq_some_iff.mp hp
  rw [settlementAt_eq hcall]
  exact Or.inl (h call)

structure Settled (conflict : Lock → Lock → Bool) (S : Nat → Settlement Db Edit Lock Label α)
    (inv : State Db Edit Lock Label ε α → Prop) (s : State Db Edit Lock Label ε α) : Prop where
  initial : inv s
  settling : ∀ i, Settling conflict (S i) s s [] i
  relies : ∀ (u : State Db Edit Lock Label ε α), inv u → ∀ (i : Nat) (c : Call Db Edit Lock Label ε α),
    u.calls[i]? = some c → c.finished = false → (S i).rely c.progress u.committed
  steps : ∀ (u v : State Db Edit Lock Label ε α) (j : Nat), inv u → u.step conflict j = some v →
    Advances S j u v → inv v

theorem Settled.run (h : Settled conflict S inv s) (hrun : s.run conflict schedule = some t) :
    inv t ∧ ∀ i, Settling conflict (S i) s t schedule i := by
  induction schedule using List.reverseRecOn generalizing t with
  | nil =>
    cases hrun
    exact ⟨h.initial, h.settling⟩
  | append_singleton schedule j ih =>
    rw [run_append] at hrun
    obtain ⟨u, hu, hlast⟩ := Option.bind_eq_some_iff.mp hrun
    simp only [run, Option.bind_eq_some_iff] at hlast
    obtain ⟨v, hstep, hv⟩ := hlast
    rw [← Option.some.inj hv]
    obtain ⟨hinv, hsettling⟩ := ih hu
    exact ⟨h.steps u v j hinv hstep ((hsettling j).advances (h.relies u hinv j) hstep),
      fun i => (hsettling i).step hu (h.relies u hinv i) hstep⟩

/-- What the steps keep of the rows, they keep from one place of the schedule to a later one. -/
theorem Settled.kept (h : Settled conflict S inv s) {P : Db → Prop} {m n : Nat}
    {v w : State Db Edit Lock Label ε α}
    (hP : ∀ (u u' : State Db Edit Lock Label ε α) (j : Nat), inv u → Advances S j u u' →
      P u.committed → P u'.committed) (hmn : m ≤ n)
    (hv : s.run conflict (schedule.take m) = some v) (hw : s.run conflict (schedule.take n) = some w)
    (hPv : P v.committed) : P w.committed := by
  induction hmn generalizing w with
  | refl =>
    rw [hv] at hw
    rwa [← Option.some.inj hw]
  | @step n hmn ih =>
    rw [List.take_add_one, run_append] at hw
    obtain ⟨u, hu, hlast⟩ := Option.bind_eq_some_iff.mp hw
    have hPu := ih hu
    obtain ⟨hinv, hsettling⟩ := h.run hu
    cases hplace : schedule[n]? with
    | none =>
      rw [hplace] at hlast
      cases hlast
      exact hPu
    | some j =>
      rw [hplace] at hlast
      simp only [Option.toList_some, State.run, Option.bind_eq_some_iff] at hlast
      obtain ⟨x, hstep, hx⟩ := hlast
      rw [← Option.some.inj hx]
      exact hP u x j hinv ((hsettling j).advances (h.relies u hinv j) hstep) hPu

/-- An answer needs no commit, or it tells about the one at a place of the schedule. -/
theorem Settling.answered {S : Settlement Db Edit Lock Label α} {a : α}
    (h : Settling conflict S s t schedule i) (ha : t.answer i = some a) : S.idle a ∨
      ∃ g before after n, CommitsAt conflict S s t schedule i g before after n ∧
        S.answers a g before.committed := by
  obtain ⟨c, hc, hdone⟩ := answer_eq_some_iff.mp ha
  rcases h c hc with hsettles | ⟨g, before, after, n, hat, hreports⟩
  · rw [hdone] at hsettles
    exact Or.inl (hsettles a rfl)
  · rw [hdone] at hreports
    exact Or.inr ⟨g, before, after, n, hat, hreports a rfl⟩

theorem reaches_of_schedule (h : s.run conflict schedule = some t) :
    Reaches conflict (fun _ _ => True) s t :=
  (reaches_of_run (meets_true s (schedule ++ [])) h).1

theorem CommitsAt.run_after {S : Settlement Db Edit Lock Label α} {g : Progress Db Edit Lock Label}
    {before after : State Db Edit Lock Label ε α} {n : Nat}
    (h : CommitsAt conflict S s t schedule i g before after n) :
    n < schedule.length ∧ s.run conflict (schedule.take (n + 1)) = some after := by
  refine ⟨(List.getElem?_eq_some_iff.mp h.place).1, ?_⟩
  rw [List.take_add_one, h.place, run_append, h.reached]
  simp [run, h.step]

/-- What a commit brings about and the steps keep is there in the end. -/
theorem Settled.kept_since (h : Settled conflict S inv s) {P : Db → Prop} {n : Nat}
    {S' : Settlement Db Edit Lock Label α} {g : Progress Db Edit Lock Label}
    {before after : State Db Edit Lock Label ε α}
    (hP : ∀ (u u' : State Db Edit Lock Label ε α) (j : Nat), inv u → Advances S j u u' →
      P u.committed → P u'.committed)
    (hat : CommitsAt conflict S' s t schedule i g before after n)
    (hrun : s.run conflict schedule = some t) (hafter : P (replayAll g.pending before.committed)) :
    P t.committed := by
  obtain ⟨hn, hreached⟩ := hat.run_after
  rw [← hat.committed] at hafter
  rw [← schedule.take_length] at hrun
  exact h.kept hP hn hreached hrun hafter

/-- Two calls whose answers tell that each has spent the same are one call. -/
theorem Settled.spent_once (h : Settled conflict S inv s) (spent : Db → Prop) {a b : α}
    (hstays : ∀ (u u' : State Db Edit Lock Label ε α) (j : Nat), inv u → Advances S j u u' →
      spent u.committed → spent u'.committed)
    (hrun : s.run conflict schedule = some t) (ha : t.answer i = some a) (hb : t.answer j = some b)
    (hidle : ¬ (S i).idle a) (hidle' : ¬ (S j).idle b)
    (hspends : ∀ g db, (S i).answers a g db → ¬ spent db ∧ spent (replayAll g.pending db))
    (hspends' : ∀ g db, (S j).answers b g db → ¬ spent db ∧ spent (replayAll g.pending db)) :
    i = j := by
  have hsettling := (h.run hrun).2
  rcases (hsettling i).answered ha with hno | ⟨g, before, after, m, hat, htold⟩
  · exact absurd hno hidle
  rcases (hsettling j).answered hb with hno | ⟨g', before', after', n, hat', htold'⟩
  · exact absurd hno hidle'
  obtain ⟨hbefore, hafter⟩ := hspends g before.committed htold
  obtain ⟨hbefore', hafter'⟩ := hspends' g' before'.committed htold'
  rw [← hat.committed] at hafter
  rw [← hat'.committed] at hafter'
  -- Whoever commits later finds it spent.
  rcases Nat.lt_trichotomy m n with hmn | rfl | hnm
  · exact absurd (h.kept hstays hmn hat.run_after.2 hat'.reached hafter) hbefore'
  · have hplace := hat.place
    rw [hat'.place] at hplace
    exact (Option.some.inj hplace).symm
  · exact absurd (h.kept hstays hnm hat'.run_after.2 hat.reached hafter') hbefore

/-- An answer needs no commit, or it tells about the one that a step of its call has made. -/
theorem Settled.answered (h : Settled conflict S inv s)
    (hreach : Reaches conflict (fun _ _ => True) s t) {a : α} (ha : t.answer i = some a) :
    (S i).idle a ∨ ∃ (g : Progress Db Edit Lock Label) (before after : State Db Edit Lock Label ε α),
      Reaches conflict (fun _ _ => True) s before ∧ before.step conflict i = some after ∧
        Reaches conflict (fun _ _ => True) after t ∧
          after.committed = replayAll g.pending before.committed ∧
            (S i).answers a g before.committed := by
  obtain ⟨schedule, hrun⟩ := hreach.exists_run
  rcases ((h.run hrun).2 i).answered ha with hidle | ⟨g, before, after, n, hat, htold⟩
  · exact Or.inl hidle
  · exact Or.inr ⟨g, before, after, reaches_of_schedule hat.reached, hat.step,
      reaches_of_schedule hat.rest, hat.committed, htold⟩

/-- Two calls whose answers tell that each has spent the same are one call, and what it has made of
it is there in the end. -/
theorem Settled.once (h : Settled conflict S inv s) (spent result : Db → Prop) {a b : α}
    (hresult : ∀ db, result db → spent db)
    (hspent : ∀ (u u' : State Db Edit Lock Label ε α) (j : Nat), inv u → Advances S j u u' →
      spent u.committed → spent u'.committed)
    (hkept : ∀ (u u' : State Db Edit Lock Label ε α) (j : Nat), inv u → Advances S j u u' →
      result u.committed → result u'.committed)
    (hreach : Reaches conflict (fun _ _ => True) s t) (ha : t.answer i = some a)
    (hb : t.answer j = some b) (hidle : ¬ (S i).idle a) (hidle' : ¬ (S j).idle b)
    (hspends : ∀ g db, (S i).answers a g db → ¬ spent db ∧ result (replayAll g.pending db))
    (hspends' : ∀ g db, (S j).answers b g db → ¬ spent db ∧ spent (replayAll g.pending db)) :
    i = j ∧ result t.committed := by
  obtain ⟨schedule, hrun⟩ := hreach.exists_run
  constructor
  · exact h.spent_once spent hspent hrun ha hb hidle hidle'
      (fun g db htold => (hspends g db htold).imp_right (hresult _)) hspends'
  · rcases ((h.run hrun).2 i).answered ha with hno | ⟨g, before, after, n, hat, htold⟩
    · exact absurd hno hidle
    · exact h.kept_since hkept hat hrun (hspends g before.committed htold).2

end Runs

end State

end Transaction
