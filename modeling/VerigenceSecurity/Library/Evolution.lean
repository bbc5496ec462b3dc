import VerigenceSecurity.Library.ProgramLogic

/-! # What the rows keep over time

A preorder on the rows that every edit follows relates the committed rows of any two moments of a
run, so that what a statement has seen tells something about every later moment.
-/

namespace Transaction
set_option autoImplicit false

variable {Db Edit Lock Label ε α : Type} [Replay Db Edit]

omit [Replay Db Edit] in
theorem Program.writes_anything (p : Program Db Edit Lock Label ε α) : p.Writes fun _ => True := by
  induction p with
  | done r => trivial
  | statement label run failed next ihf ihn => exact ⟨fun _ _ _ _ _ => trivial, ihf, ihn⟩
  | commit p ih => exact ih
  | rollback p ih => exact ih

omit [Replay Db Edit] in
theorem State.confined_anything (db : Db) (programs : List (Program Db Edit Lock Label ε α)) :
    (State.initial db programs).Confined fun _ : Edit => True :=
  State.confined_initial fun p _ => p.writes_anything

/-- A preorder that relates the rows before an edit of this kind to the rows after it. -/
structure Evolution (Q : Edit → Prop) (K : Db → Db → Prop) : Prop where
  refl : ∀ db, K db db
  trans : ∀ {db db' db''}, K db db' → K db' db'' → K db db''
  edit : ∀ e db, Q e → K db (Replay.replay e db)

/-- The statements of the call have seen rows that stand in `K` to these. -/
def Progress.Remembers (K : Db → Db → Prop) (g : Progress Db Edit Lock Label) (db : Db) : Prop :=
  ∀ e ∈ g.history, K e.committed db

/-- A step after which the rows stand in `K` to those before. -/
theorem Progress.remembers_step (K : Db → Db → Prop) {conflict : Lock → Lock → Bool}
    (htrans : ∀ {a b c}, K a b → K b c → K a c) {s t : State Db Edit Lock Label ε α} {i : Nat}
    (hlater : K s.committed t.committed)
    (hcalls : ∀ (j : Nat) (c : Call Db Edit Lock Label ε α), s.calls[j]? = some c →
      c.progress.Remembers K s.committed)
    (hstep : s.step conflict i = some t) : ∀ (j : Nat) (c : Call Db Edit Lock Label ε α),
      t.calls[j]? = some c → c.progress.Remembers K t.committed := by
  obtain ⟨c, c', hc, hadvance, hset⟩ := State.step_cases hstep
  intro j d hd e he
  rcases State.call_cases hset hd with ⟨rfl, rfl⟩ | ⟨_, hd⟩
  · have hearlier : ∀ e ∈ c.progress.history, K e.committed t.committed :=
      fun e he => htrans (hcalls j c hc e he) hlater
    generalize t.committed = db at *
    obtain ⟨program, g⟩ := c
    cases program with
    | done r => cases hadvance
    | statement label run failed next =>
      simp only [Call.advance] at hadvance
      split at hadvance
      · cases hadvance
        rcases List.mem_cons.mp he with rfl | he
        · exact hlater
        · exact hearlier e he
      · split at hadvance
        · cases hadvance
          rcases List.mem_cons.mp he with rfl | he
          · exact hlater
          · exact hearlier e he
        · cases hadvance
    | commit next =>
      cases hadvance
      exact hearlier e he
    | rollback next =>
      cases hadvance
      exact hearlier e he
  · exact htrans (hcalls j d hd e he) hlater

namespace Evolution

variable {Q : Edit → Prop} {K : Db → Db → Prop} {conflict : Lock → Lock → Bool}

theorem replayAll (h : Evolution Q K) {es : List Edit} (hes : ∀ e ∈ es, Q e) (db : Db) :
    K db (replayAll es db) :=
  Program.replayAll_keeps (R := K db) (fun e _ he hdb => h.trans hdb (h.edit e _ he)) hes (h.refl db)

theorem step (h : Evolution Q K) {s t : State Db Edit Lock Label ε α} {i : Nat} (hs : s.Confined Q)
    (hstep : s.step conflict i = some t) : K s.committed t.committed :=
  hs.committed (R := K s.committed) (fun e _ he hdb => h.trans hdb (h.edit e _ he)) hstep
    (h.refl s.committed)

theorem reaches (h : Evolution Q K) {ok : State Db Edit Lock Label ε α → Nat → Prop}
    {s t : State Db Edit Lock Label ε α} (hs : s.Confined Q)
    (hreach : State.Reaches conflict ok s t) : K s.committed t.committed := by
  induction hreach with
  | refl => exact h.refl s.committed
  | step hbefore _ hstep ih => exact h.trans ih (h.step (hbefore.confined hs) hstep)

theorem remembers_step (h : Evolution Q K) {s t : State Db Edit Lock Label ε α} {i : Nat}
    (hs : s.Confined Q)
    (hcalls : ∀ (j : Nat) (c : Call Db Edit Lock Label ε α), s.calls[j]? = some c →
      c.progress.Remembers K s.committed)
    (hstep : s.step conflict i = some t) : ∀ (j : Nat) (c : Call Db Edit Lock Label ε α),
      t.calls[j]? = some c → c.progress.Remembers K t.committed :=
  Progress.remembers_step K h.trans (h.step hs hstep) hcalls hstep

omit [Replay Db Edit] in
theorem remembers_initial (db : Db) (programs : List (Program Db Edit Lock Label ε α)) :
    ∀ (j : Nat) (c : Call Db Edit Lock Label ε α), (State.initial db programs).calls[j]? = some c →
      c.progress.Remembers K (State.initial db programs).committed := by
  intro j c hc e he
  simp only [State.initial, List.getElem?_map] at hc
  obtain ⟨p, _, rfl⟩ := Option.map_eq_some_iff.mp hc
  cases he

end Evolution

end Transaction
