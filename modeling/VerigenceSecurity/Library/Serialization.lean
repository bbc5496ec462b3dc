import VerigenceSecurity.Library.RelyGuarantee

/-! # Calls that check, then lock

A call reads and refuses, then takes a lock that excludes every other call of its kind,
writes and commits. When its checks still pass as it commits, the run is equal to calls
that run one after another: a refused call at its failing read, a committed one at its
commit.
-/

namespace Transaction
set_option autoImplicit false

variable {Db Edit Lock Label ε α β γ : Type} [Replay Db Edit]

namespace Program

/-! ## Checks -/

/-- The part only reads, and `P` does not hold of rows on which it fails. -/
def Checks (P : Db → Prop) : Program Db Edit Lock Label ε Unit → Prop
  | done r => ∀ e, r = .error e → ∀ db, ¬ P db
  | statement _ run failed next =>
    (∀ db e, run db = .error e → ¬ P db ∧ ∃ f, failed e = done (.error f)) ∧
    ∀ db o, run db = .ok o → o.edits = [] ∧ o.locks = [] ∧
      ((¬ P db ∧ ∃ f, next o.value = done (.error f)) ∨ (next o.value).Checks P)
  | commit _ | rollback _ => False

section Checks

variable {P Q : Db → Prop}

omit [Replay Db Edit] in
theorem Checks.weaken {p : Program Db Edit Lock Label ε Unit} (h : p.Checks P)
    (hQ : ∀ db, Q db → P db) : p.Checks Q := by
  induction p with
  | done r => exact fun e he db hdb => h e he db (hQ db hdb)
  | statement label run failed next ihf ihn =>
    constructor
    · intro db e he
      obtain ⟨hP, hf⟩ := h.1 db e he
      exact ⟨fun hdb => hP (hQ db hdb), hf⟩
    · intro db o ho
      obtain ⟨hedits, hlocks, ⟨hP, hf⟩ | hnext⟩ := h.2 db o ho
      · exact ⟨hedits, hlocks, Or.inl ⟨fun hdb => hP (hQ db hdb), hf⟩⟩
      · exact ⟨hedits, hlocks, Or.inr (ihn o.value hnext)⟩
  | commit n ih => exact h.elim
  | rollback n ih => exact h.elim

omit [Replay Db Edit] in
theorem checks_bind {p q : Program Db Edit Lock Label ε Unit} (hp : p.Checks P) (hq : q.Checks Q) :
    (p >>= fun _ => q).Checks fun db => P db ∧ Q db := by
  induction p with
  | done r =>
    cases r with
    | ok u => exact hq.weaken fun _ h => h.2
    | error e => exact fun _ _ db h => hp e rfl db h.1
  | statement label run failed next ihf ihn =>
    constructor
    · intro db e he
      obtain ⟨hP, f, hf⟩ := hp.1 db e he
      refine ⟨fun h => hP h.1, f, ?_⟩
      simp only [hf, bind]
    · intro db o ho
      obtain ⟨hedits, hlocks, ⟨hP, f, hf⟩ | hnext⟩ := hp.2 db o ho
      · refine ⟨hedits, hlocks, Or.inl ⟨fun h => hP h.1, f, ?_⟩⟩
        simp only [hf, bind]
      · exact ⟨hedits, hlocks, Or.inr (ihn o.value hnext)⟩
  | commit n ih => exact hp.elim
  | rollback n ih => exact hp.elim

/-- Checks leave the session as it is. -/
theorem Checks.exec_same {p : Program Db Edit Lock Label ε Unit} (h : p.Checks P) (s : Session Db) :
    (p.exec s).2 = s := by
  induction p with
  | done r => rfl
  | statement label run failed next ihf ihn =>
    simp only [exec]
    cases hrun : run s.view with
    | error e =>
      obtain ⟨_, f, hf⟩ := h.1 _ e hrun
      simp only [hf, exec]
    | ok o =>
      obtain ⟨hedits, _, hnext⟩ := h.2 _ o hrun
      simp only [hedits, replayAll_nil]
      rcases hnext with ⟨_, f, hf⟩ | hnext
      · simp only [hf, exec]
      · exact ihn o.value hnext
  | commit n ih => exact h.elim
  | rollback n ih => exact h.elim

def Passes (p : Program Db Edit Lock Label ε Unit) (db : Db) : Prop := (p.alone db).1 = .ok ()

instance [DecidableEq ε] (p : Program Db Edit Lock Label ε Unit) (db : Db) :
    Decidable (p.Passes db) :=
  inferInstanceAs (Decidable (_ = _))

def Rechecks (p : Program Db Edit Lock Label ε Unit) : Prop := p.Checks p.Passes

theorem rechecks_done (r : Except ε Unit) :
    (done r : Program Db Edit Lock Label ε Unit).Rechecks := by
  rintro e rfl db h
  cases h

theorem rechecks_pure : (pure () : Program Db Edit Lock Label ε Unit).Rechecks :=
  rechecks_done (.ok ())

theorem rechecks_raise (e : ε) : (raise e : Program Db Edit Lock Label ε Unit).Rechecks :=
  rechecks_done (.error e)

/-- A read whose answer alone decides. -/
theorem rechecks_query {label : Label} {read : Db → β}
    {k : β → Program Db Edit Lock Label ε Unit} (hk : ∀ b, ∃ r, k b = done r) :
    ((query label fun db => .ok (read db)) >>= k).Rechecks := by
  constructor
  · intro db e he
    cases he
  · intro db o ho
    cases ho
    refine ⟨rfl, rfl, ?_⟩
    obtain ⟨r, hr⟩ := hk (read db)
    change (_ ∧ ∃ f, k (read db) = done (.error f)) ∨ (k (read db)).Checks _
    rw [hr]
    cases r with
    | ok u => exact Or.inr fun e he => nomatch he
    | error f =>
      refine Or.inl ⟨fun hpass => ?_, f, rfl⟩
      change ((k (read db)).exec ⟨db, db⟩).1 = .ok () at hpass
      rw [hr] at hpass
      cases hpass

theorem rechecks_bind {p q : Program Db Edit Lock Label ε Unit} (hp : p.Rechecks)
    (hq : q.Rechecks) : (p >>= fun _ => q).Rechecks := by
  refine (checks_bind hp hq).weaken ?_
  intro db h
  have hexec : (p >>= fun _ => q).exec ⟨db, db⟩ =
      (.ok (), ((p >>= fun _ => q).exec ⟨db, db⟩).2) := Prod.ext h rfl
  obtain ⟨_, m, hfirst, hrest⟩ := exec_bind_ok hexec
  have hsame := hp.exec_same ⟨db, db⟩
  rw [hfirst] at hsame
  obtain rfl : m = ⟨db, db⟩ := hsame
  exact ⟨congrArg Prod.fst hfirst, congrArg Prod.fst hrest⟩

theorem rechecks_each {body : γ → Program Db Edit Lock Label ε Unit} (h : ∀ x, (body x).Rechecks)
    (xs : List γ) : (each body xs).Rechecks := by
  induction xs with
  | nil => exact rechecks_pure
  | cons x xs ih => exact rechecks_bind (h x) ih

end Checks

/-! ## Conclusions -/

def Concludes : Program Db Edit Lock Label ε α → Prop
  | done _ => False
  | statement _ _ failed next => (∀ e, (failed e).Concludes) ∧ ∀ b, (next b).Concludes
  | commit p => ∃ a, p = done (.ok a)
  | rollback p => ∃ e, p = done (.error e)

omit [Replay Db Edit] in
theorem concludes_attempt_bind {Q : Edit → Prop} {p : Program Db Edit Lock Label ε β}
    {k : β → Program Db Edit Lock Label ε α} {handler : ε → Program Db Edit Lock Label ε α}
    (hp : p.Within Q) (hh : ∀ e, (handler e).Concludes)
    (hk : ∀ b, (attempt handler (k b)).Concludes) : (attempt handler (p >>= k)).Concludes := by
  induction p with
  | done r =>
    cases r with
    | ok b => exact hk b
    | error e => exact hh e
  | statement label run failed next ihf ihn =>
    exact ⟨fun e => ihf e (hp.2.1 e), fun b => ihn b (hp.2.2 b)⟩
  | commit n ih => exact hp.elim
  | rollback n ih => exact hp.elim

/-- The first statement takes an excluding lock, or the call is rolled back. -/
def Opens (excludes : Lock → Prop) : Program Db Edit Lock Label ε α → Prop
  | statement _ run failed next =>
    (∀ e, ∃ f, failed e = rollback (done (.error f))) ∧
    ∀ db o, run db = .ok o → (∃ l ∈ o.locks, excludes l) ∧ (next o.value).Concludes
  | _ => False

structure ChecksThenLocks (excludes : Lock → Prop) (check : Program Db Edit Lock Label ε Unit)
    (p : Program Db Edit Lock Label ε α) : Prop where
  rechecks : check.Rechecks
  opens : ∃ body : Program Db Edit Lock Label ε α, p = (check >>= fun _ => body) ∧ body.Opens excludes

section Alone

variable {excludes : Lock → Prop} {check : Program Db Edit Lock Label ε Unit}
  {body : Program Db Edit Lock Label ε α} {db : Db}

theorem exec_of_passes (hcheck : check.Rechecks) (h : check.Passes db) :
    (check >>= fun _ => body).exec ⟨db, db⟩ = body.exec ⟨db, db⟩ := by
  have hsame := hcheck.exec_same ⟨db, db⟩
  have hexec : check.exec ⟨db, db⟩ = (.ok (), ⟨db, db⟩) := Prod.ext h hsame
  rw [exec_bind, hexec]

theorem alone_of_not_passes (hcheck : check.Rechecks) (h : ¬ check.Passes db) :
    ∃ e, (check >>= fun _ => body).alone db = (.error e, db) := by
  have hsame := hcheck.exec_same ⟨db, db⟩
  cases hresult : (check.exec ⟨db, db⟩).1 with
  | ok u => exact absurd hresult h
  | error e =>
    have hexec : check.exec ⟨db, db⟩ = (.error e, ⟨db, db⟩) := Prod.ext hresult hsame
    refine ⟨e, ?_⟩
    unfold alone
    rw [exec_bind, hexec]

end Alone

end Program

/-! ## The phases of a call -/

namespace Call

variable {excludes : Lock → Prop} {check : Program Db Edit Lock Label ε Unit}
  {p : Program Db Edit Lock Label ε α} {c c' : Call Db Edit Lock Label ε α}
  {free : List Lock → Bool} {db db' : Db}

structure Checking (excludes : Lock → Prop) (check : Program Db Edit Lock Label ε Unit)
    (p : Program Db Edit Lock Label ε α) (c : Call Db Edit Lock Label ε α) : Prop where
  pending : c.progress.pending = []
  locks : c.progress.locks = []
  unfinished : c.finished = false
  rest : ∃ (rest : Program Db Edit Lock Label ε Unit) (body : Program Db Edit Lock Label ε α),
    c.program = (rest >>= fun _ => body) ∧ rest.Checks check.Passes ∧ body.Opens excludes ∧
      p = (check >>= fun _ => body)

/-- The call has the lock, and goes on as it would alone on these rows. -/
structure Locked (excludes : Lock → Prop) (check : Program Db Edit Lock Label ε Unit)
    (p : Program Db Edit Lock Label ε α) (db : Db) (c : Call Db Edit Lock Label ε α) : Prop where
  locked : ∃ l ∈ c.progress.locks, excludes l
  concludes : c.program.Concludes
  agrees : check.Passes db →
    (c.program.exec ⟨db, replayAll c.progress.pending db⟩).1 = (p.alone db).1 ∧
      (c.program.exec ⟨db, replayAll c.progress.pending db⟩).2.committed = (p.alone db).2

omit [Replay Db Edit] in
def Settled (c : Call Db Edit Lock Label ε α) : Except ε α → Prop
  | .ok a => c.program = .done (.ok a)
  | .error _ => ∃ e, c.program = .done (.error e) ∨ c.program = .rollback (.done (.error e))

theorem Locked.unfinished (h : c.Locked excludes check p db) : c.finished = false := by
  have hconcludes := h.concludes
  unfold finished
  split
  · rename_i hprogram
    rw [hprogram] at hconcludes
    exact hconcludes.elim
  · rfl

/-- A settled call only rolls back. -/
theorem Settled.advance {r : Except ε α} (hc : c.Settled r) (h : c.advance free db = some (c', db')) :
    db' = db ∧ c'.Settled r ∧ c.committing = false := by
  obtain ⟨program, g⟩ := c
  cases r with
  | ok a =>
    obtain rfl : program = _ := hc
    cases h
  | error e =>
    obtain ⟨f, hprogram | hprogram⟩ := hc
    · obtain rfl : program = _ := hprogram
      cases h
    · obtain rfl : program = _ := hprogram
      cases h
      exact ⟨rfl, ⟨f, Or.inl rfl⟩, rfl⟩

omit [Replay Db Edit] in
/-- Checks that have not failed are followed by the body. -/
theorem unfinished_of_checks {P : Db → Prop} {rest : Program Db Edit Lock Label ε Unit}
    {body : Program Db Edit Lock Label ε α} (hchecks : rest.Checks P) (hopens : body.Opens excludes)
    (g : Progress Db Edit Lock Label) : (∃ f, rest = .done (.error f)) ∨
      Call.finished ⟨rest >>= fun _ => body, g⟩ = false := by
  cases rest with
  | done r =>
    cases r with
    | error e => exact Or.inl ⟨e, rfl⟩
    | ok u =>
      cases body with
      | statement label run failed next => exact Or.inr rfl
      | done r => exact hopens.elim
      | commit n => exact hopens.elim
      | rollback n => exact hopens.elim
  | statement label run failed next => exact Or.inr rfl
  | commit n => exact hchecks.elim
  | rollback n => exact hchecks.elim

/-- A checking call goes on checking, opens its body, or is refused. -/
theorem Checking.advance (hcheck : check.Rechecks) (hc : c.Checking excludes check p)
    (h : c.advance free db = some (c', db')) : db' = db ∧ c.committing = false ∧
      (c'.Checking excludes check p ∨ c'.Locked excludes check p db ∨
        (p.alone db).2 = db ∧ c'.Settled (p.alone db).1) := by
  obtain ⟨hpending, hlocks, hunfinished, rest, body, hprogram, hchecks, hopens, rfl⟩ := hc
  obtain ⟨program, g⟩ := c
  simp only at hpending hlocks hprogram
  subst hprogram
  have hrefused : ∀ (d : Call Db Edit Lock Label ε α),
      (∃ f, d.program = .done (.error f) ∨ d.program = .rollback (.done (.error f))) →
      ¬ check.Passes db → ((check >>= fun _ => body).alone db).2 = db ∧
        d.Settled ((check >>= fun _ => body).alone db).1 := by
    intro d hd hno
    obtain ⟨e, halone⟩ : ∃ e, (check >>= fun _ => body).alone db = (.error e, db) :=
      Program.alone_of_not_passes hcheck hno
    rw [halone]
    exact ⟨rfl, hd⟩
  cases rest with
  | done r =>
    cases r with
    | error e => cases hunfinished
    | ok u =>
      -- The checks are over, and the body takes its lock.
      cases body with
      | statement label run failed next =>
        change Call.advance free db ⟨.statement label run failed next, g⟩ = _ at h
        simp only [Call.advance, hpending, replayAll_nil] at h
        cases hrun : run db with
        | error e =>
          rw [hrun] at h
          cases h
          obtain ⟨f, hf⟩ := hopens.1 e
          refine ⟨rfl, rfl, Or.inr (Or.inr ?_)⟩
          by_cases hpass : check.Passes db
          · have halone : (check >>= fun _ => Program.statement label run failed next).alone db =
                (.error f, db) := by
              unfold Program.alone
              rw [Program.exec_of_passes hcheck hpass]
              simp only [Program.exec, hrun, hf]
            rw [halone]
            exact ⟨rfl, f, Or.inr hf⟩
          · exact hrefused _ ⟨f, Or.inr hf⟩ hpass
        | ok o =>
          rw [hrun] at h
          dsimp only at h
          split at h
          · cases h
            obtain ⟨⟨l, hl, hexcludes⟩, hconcludes⟩ := hopens.2 db o hrun
            refine ⟨rfl, rfl, Or.inr (Or.inl ⟨⟨l, ?_, hexcludes⟩, hconcludes, fun hpass => ?_⟩)⟩
            · exact List.mem_append_left _ hl
            · unfold Program.alone
              rw [Program.exec_of_passes hcheck hpass]
              simp only [Program.exec, hrun, Progress.ran, hpending, List.nil_append, and_self]
          · cases h
      | done r => exact hopens.elim
      | commit n => exact hopens.elim
      | rollback n => exact hopens.elim
  | statement label run failed next =>
    change Call.advance free db ⟨.statement label run (fun e => failed e >>= fun _ => body)
      (fun b => next b >>= fun _ => body), g⟩ = _ at h
    simp only [Call.advance, hpending, replayAll_nil] at h
    cases hrun : run db with
    | error e =>
      rw [hrun] at h
      cases h
      obtain ⟨hno, f, hf⟩ := hchecks.1 db e hrun
      refine ⟨rfl, rfl, Or.inr (Or.inr (hrefused _ ⟨f, Or.inl ?_⟩ hno))⟩
      simp only [hf]
      rfl
    | ok o =>
      rw [hrun] at h
      dsimp only at h
      split at h
      · cases h
        obtain ⟨hedits, htaken, ⟨hno, f, hf⟩ | hnext⟩ := hchecks.2 db o hrun
        · refine ⟨rfl, rfl, Or.inr (Or.inr (hrefused _ ⟨f, Or.inl ?_⟩ hno))⟩
          simp only [hf]
          rfl
        · rcases unfinished_of_checks hnext hopens (g.ran label db o) with ⟨f, hf⟩ | hunfinished
          · rw [hf] at hnext
            refine ⟨rfl, rfl, Or.inr (Or.inr (hrefused _ ⟨f, Or.inl ?_⟩ (hnext f rfl db)))⟩
            simp only [hf]
            rfl
          · refine ⟨rfl, rfl, Or.inl ⟨?_, ?_, hunfinished, next o.value, body, rfl, hnext, hopens, rfl⟩⟩
            · simp only [Progress.ran, hpending, hedits, List.append_nil]
            · simp only [Progress.ran, hlocks, htaken, List.append_nil]
      · cases h
  | commit n => exact hchecks.elim
  | rollback n => exact hchecks.elim

/-- A locked call goes on, or it ends as it would alone. -/
theorem Locked.advance (hcheck : Program.ChecksThenLocks excludes check p)
    (hc : c.Locked excludes check p db) (hpass : c.committing = true → check.Passes db)
    (h : c.advance free db = some (c', db')) :
    (db' = db ∧ c.committing = false ∧ c'.Locked excludes check p db) ∨
      db' = (p.alone db).2 ∧ c'.Settled (p.alone db).1 := by
  obtain ⟨program, g⟩ := c
  obtain ⟨⟨l, hl, hexcludes⟩, hconcludes, hagrees⟩ := hc
  cases program with
  | done r => exact hconcludes.elim
  | statement label run failed next =>
    simp only [Call.advance] at h
    simp only [Program.exec] at hagrees
    cases hrun : run (replayAll g.pending db) with
    | error e =>
      rw [hrun] at h
      cases h
      simp only [hrun] at hagrees
      exact Or.inl ⟨rfl, rfl, ⟨l, hl, hexcludes⟩, hconcludes.1 e, hagrees⟩
    | ok o =>
      rw [hrun] at h
      dsimp only at h
      split at h
      · cases h
        simp only [hrun] at hagrees
        refine Or.inl ⟨rfl, rfl, ⟨l, List.mem_append_right _ hl, hexcludes⟩, hconcludes.2 o.value, ?_⟩
        simp only [Progress.ran, replayAll_append]
        exact hagrees
      · cases h
  | commit next =>
    obtain ⟨a, rfl⟩ := hconcludes
    cases h
    obtain ⟨hresult, hcommitted⟩ := hagrees (hpass rfl)
    refine Or.inr ⟨hcommitted, ?_⟩
    rw [← hresult]
    rfl
  | rollback next =>
    obtain ⟨f, rfl⟩ := hconcludes
    cases h
    refine Or.inr ?_
    by_cases hpasses : check.Passes db
    · obtain ⟨hresult, hcommitted⟩ := hagrees hpasses
      refine ⟨hcommitted, ?_⟩
      rw [← hresult]
      exact ⟨f, Or.inl rfl⟩
    · obtain ⟨body, rfl, _⟩ := hcheck.opens
      obtain ⟨e, halone⟩ : ∃ e, (check >>= fun _ => body).alone db = (.error e, db) :=
        Program.alone_of_not_passes hcheck.rechecks hpasses
      rw [halone]
      exact ⟨rfl, f, Or.inl rfl⟩

end Call

/-! ## Runs -/

def serially (programs : List (Program Db Edit Lock Label ε α)) (db : Db) (order : List Nat) : Db :=
  order.foldl (fun db i => (programs[i]?).elim db fun p => (p.alone db).2) db

namespace State

variable {conflict : Lock → Lock → Bool} {excludes : Lock → Prop}
  {programs : List (Program Db Edit Lock Label ε α)}
  {checks : Nat → Program Db Edit Lock Label ε Unit} {db : Db}

/-- The calls of the order have ended, and the rows are theirs, one after another. -/
structure Serial (programs : List (Program Db Edit Lock Label ε α)) (db : Db) (order : List Nat)
    (s : State Db Edit Lock Label ε α) : Prop where
  nodup : order.Nodup
  called : ∀ i ∈ order, i < programs.length
  committed : s.committed = serially programs db order
  settled : ∀ before i after, order = before ++ i :: after →
    ∀ (p : Program Db Edit Lock Label ε α) (c : Call Db Edit Lock Label ε α),
      programs[i]? = some p → s.calls[i]? = some c →
        c.Settled (p.alone (serially programs db before)).1

structure Serialized (conflict : Lock → Lock → Bool) (excludes : Lock → Prop)
    (programs : List (Program Db Edit Lock Label ε α))
    (checks : Nat → Program Db Edit Lock Label ε Unit) (db : Db) (order : List Nat)
    (s : State Db Edit Lock Label ε α) : Prop where
  exclusive : s.Exclusive conflict
  length : s.calls.length = programs.length
  serial : s.Serial programs db order
  going : ∀ (i : Nat) (p : Program Db Edit Lock Label ε α) (c : Call Db Edit Lock Label ε α),
    programs[i]? = some p → s.calls[i]? = some c → i ∉ order →
      c.Checking excludes (checks i) p ∨ c.Locked excludes (checks i) p s.committed

theorem serially_append (i : Nat) (order : List Nat) {p : Program Db Edit Lock Label ε α}
    (hp : programs[i]? = some p) : serially programs db (order ++ [i]) =
      (p.alone (serially programs db order)).2 := by
  simp only [serially, List.foldl_append, List.foldl_cons, List.foldl_nil, hp, Option.elim_some]

/-- The order after a call has ended. -/
theorem Serial.ended {order : List Nat} {s t : State Db Edit Lock Label ε α} {i : Nat}
    {p : Program Db Edit Lock Label ε α} {c' : Call Db Edit Lock Label ε α}
    (hs : s.Serial programs db order) (hcalls : t.calls = s.calls.set i c') (hi : i ∉ order)
    (hp : programs[i]? = some p) (hcommitted : t.committed = (p.alone s.committed).2)
    (hsettled : c'.Settled (p.alone s.committed).1) : t.Serial programs db (order ++ [i]) where
  nodup := by
    rw [List.nodup_append]
    refine ⟨hs.nodup, List.pairwise_singleton _ i, ?_⟩
    intro a ha b hb hab
    rw [List.mem_singleton.mp hb] at hab
    exact hi (hab ▸ ha)
  called := by
    intro j hj
    rcases List.mem_append.mp hj with hj | hj
    · exact hs.called j hj
    · rw [List.mem_singleton.mp hj]
      exact (List.getElem?_eq_some_iff.mp hp).1
  committed := by rw [serially_append i order hp, hcommitted, hs.committed]
  settled := by
    intro before j after hsplit q d hq hd
    rcases List.eq_nil_or_concat after with rfl | ⟨after, last, rfl⟩
    · -- The call that has just ended.
      obtain ⟨rfl, hlast⟩ := List.append_inj' hsplit rfl
      cases hlast
      rw [hp] at hq
      cases hq
      rcases call_cases hcalls hd with ⟨_, rfl⟩ | ⟨hne, _⟩
      · rwa [← hs.committed]
      · exact absurd rfl hne
    · have hsplit' : order ++ [i] = (before ++ j :: after) ++ [last] := by
        rw [hsplit, List.append_assoc, List.cons_append, List.concat_eq_append]
      obtain ⟨horder, hlast⟩ := List.append_inj' hsplit' rfl
      rcases call_cases hcalls hd with ⟨rfl, _⟩ | ⟨_, hd⟩
      · rw [horder] at hi
        exact absurd (List.mem_append_right _ List.mem_cons_self) hi
      · exact hs.settled before j after horder q d hq hd

/-- A step that ends no call. -/
theorem Serial.goes_on {order : List Nat} {s t : State Db Edit Lock Label ε α} {i : Nat}
    {c' : Call Db Edit Lock Label ε α} (hs : s.Serial programs db order)
    (hcalls : t.calls = s.calls.set i c') (hcommitted : t.committed = s.committed)
    (hsettled : ∀ c r, s.calls[i]? = some c → i ∈ order → c.Settled r → c'.Settled r) :
    t.Serial programs db order where
  nodup := hs.nodup
  called := hs.called
  committed := hcommitted.trans hs.committed
  settled := by
    intro before j after hsplit q d hq hd
    rcases call_cases hcalls hd with ⟨rfl, rfl⟩ | ⟨_, hd⟩
    · have hmem : j ∈ order := by
        rw [hsplit]
        exact List.mem_append_right _ List.mem_cons_self
      have hlen : j < s.calls.length := by
        have hlt := (List.getElem?_eq_some_iff.mp hd).1
        rwa [hcalls, List.length_set] at hlt
      have hc := List.getElem?_eq_getElem hlen
      exact hsettled _ _ hc hmem (hs.settled before j after hsplit q _ hq hc)
    · exact hs.settled before j after hsplit q d hq hd

/-- Two calls never have the lock at once. -/
theorem Serialized.only_locked {order : List Nat} {s : State Db Edit Lock Label ε α}
    (hexcludes : ∀ l k, excludes l → excludes k → conflict l k = true)
    (hs : s.Serialized conflict excludes programs checks db order) {i j : Nat}
    {check check' : Program Db Edit Lock Label ε Unit} {p q : Program Db Edit Lock Label ε α}
    {c d : Call Db Edit Lock Label ε α} {db' : Db} (hc : s.calls[i]? = some c)
    (hd : s.calls[j]? = some d) (hlocked : c.Locked excludes check p db')
    (hlocked' : d.Locked excludes check' q db') : i = j := by
  by_contra hne
  obtain ⟨l, hl, hel⟩ := hlocked.locked
  obtain ⟨k, hk, hek⟩ := hlocked'.locked
  have hno := hs.exclusive i j c d hne hc hd l (by rwa [Call.held_of_unfinished hlocked.unfinished])
    k (by rwa [Call.held_of_unfinished hlocked'.unfinished])
  rw [hexcludes l k hel hek] at hno
  cases hno

theorem Serialized.step (hcomm : ∀ l k, conflict l k = conflict k l)
    (hexcludes : ∀ l k, excludes l → excludes k → conflict l k = true)
    (hprograms : ∀ (i : Nat) (p : Program Db Edit Lock Label ε α), programs[i]? = some p →
      Program.ChecksThenLocks excludes (checks i) p)
    {order : List Nat} {s t : State Db Edit Lock Label ε α} {i : Nat}
    (hs : s.Serialized conflict excludes programs checks db order)
    (hpass : s.commitsNext i = true → (checks i).Passes s.committed)
    (h : s.step conflict i = some t) :
    ∃ order, t.Serialized conflict excludes programs checks db order := by
  have hexclusive := hs.exclusive.step hcomm h
  obtain ⟨c, c', hc, hadvance, hcalls⟩ := step_cases h
  have hlength : t.calls.length = programs.length := by
    rw [hcalls, List.length_set]
    exact hs.length
  obtain ⟨p, hp⟩ : ∃ p, programs[i]? = some p := by
    have hlt := (List.getElem?_eq_some_iff.mp hc).1
    rw [hs.length] at hlt
    exact ⟨_, List.getElem?_eq_getElem hlt⟩
  have hcommitting : c.committing = true → (checks i).Passes s.committed := by
    intro hcommit
    exact hpass (by rw [commitsNext, hc, Option.any_some, hcommit])
  have hothers : ∀ (j : Nat) (q : Program Db Edit Lock Label ε α) (d : Call Db Edit Lock Label ε α),
      programs[j]? = some q → t.calls[j]? = some d → j ∉ order → j ≠ i →
        d.Checking excludes (checks j) q ∨ d.Locked excludes (checks j) q s.committed := by
    intro j q d hq hd hj hji
    rcases call_cases hcalls hd with ⟨heq, _⟩ | ⟨_, hd⟩
    · exact absurd heq hji
    · exact hs.going j q d hq hd hj
  by_cases hi : i ∈ order
  · obtain ⟨before, after, hsplit⟩ := List.append_of_mem hi
    obtain ⟨hcommitted, _, _⟩ := (hs.serial.settled before i after hsplit p c hp hc).advance hadvance
    refine ⟨order, hexclusive, hlength, hs.serial.goes_on hcalls hcommitted ?_, ?_⟩
    · intro d r hd _ hr
      rw [hc] at hd
      cases hd
      exact (hr.advance hadvance).2.1
    · intro j q d hq hd hj
      rw [hcommitted]
      exact hothers j q d hq hd hj fun hji => hj (hji ▸ hi)
  · -- The call goes on with the same rows, or it is the next of the order.
    have hgoes : t.committed = s.committed →
        (c'.Checking excludes (checks i) p ∨ c'.Locked excludes (checks i) p s.committed) →
          t.Serialized conflict excludes programs checks db order := by
      intro hcommitted hphase
      refine ⟨hexclusive, hlength, hs.serial.goes_on hcalls hcommitted fun _ _ _ hmem => absurd hmem hi, ?_⟩
      intro j q d hq hd hj
      rw [hcommitted]
      rcases call_cases hcalls hd with ⟨rfl, rfl⟩ | ⟨hji, _⟩
      · rw [hp] at hq
        cases hq
        exact hphase
      · exact hothers j q d hq hd hj hji
    rcases hs.going i p c hp hc hi with hchecking | hlocked
    · obtain ⟨hcommitted, _, hchecking | hlocked | ⟨hsame, hsettled⟩⟩ :=
        hchecking.advance (hprograms i p hp).rechecks hadvance
      · exact ⟨order, hgoes hcommitted (Or.inl hchecking)⟩
      · exact ⟨order, hgoes hcommitted (Or.inr hlocked)⟩
      · refine ⟨order ++ [i], hexclusive, hlength,
          hs.serial.ended hcalls hi hp (hcommitted.trans hsame.symm) hsettled, ?_⟩
        intro j q d hq hd hj
        rw [List.mem_append, List.mem_singleton, not_or] at hj
        rw [hcommitted]
        exact hothers j q d hq hd hj.1 hj.2
    · rcases hlocked.advance (hprograms i p hp) hcommitting hadvance with
        ⟨hcommitted, _, hlocked⟩ | ⟨hcommitted, hsettled⟩
      · exact ⟨order, hgoes hcommitted (Or.inr hlocked)⟩
      · refine ⟨order ++ [i], hexclusive, hlength,
          hs.serial.ended hcalls hi hp hcommitted hsettled, ?_⟩
        intro j q d hq hd hj
        rw [List.mem_append, List.mem_singleton, not_or] at hj
        rcases call_cases hcalls hd with ⟨heq, _⟩ | ⟨hji, hd'⟩
        · exact absurd heq hj.2
        · rcases hs.going j q d hq hd' hj.1 with hchecking | hlocked'
          · exact Or.inl hchecking
          · exact absurd (hs.only_locked hexcludes hd' hc hlocked' hlocked) hji

theorem serially_same {order : List Nat} (h : ∀ i ∈ order, ∀ p ∈ programs[i]?, (p.alone db).2 = db) :
    serially programs db order = db := by
  induction order with
  | nil => rfl
  | cons i order ih =>
    have hhead : ((programs[i]?).elim db fun p => (p.alone db).2) = db := by
      cases hp : programs[i]? with
      | none => rfl
      | some p => exact h i List.mem_cons_self p hp
    simp only [serially, List.foldl_cons, hhead]
    exact ih fun j hj => h j (List.mem_cons_of_mem i hj)

/-- The calls that are refused before they start come first. -/
theorem serialized_initial (hprograms : ∀ (i : Nat) (p : Program Db Edit Lock Label ε α),
      programs[i]? = some p → Program.ChecksThenLocks excludes (checks i) p) :
    ∃ order, (initial db programs).Serialized conflict excludes programs checks db order := by
  have hrefused : ∀ p : Program Db Edit Lock Label ε α, (Call.begin p).finished = true →
      (p.alone db).2 = db ∧ (Call.begin p).Settled (p.alone db).1 := by
    intro p hfinished
    cases p with
    | done r =>
      cases r with
      | ok a => exact ⟨rfl, rfl⟩
      | error e => exact ⟨rfl, e, Or.inl rfl⟩
    | statement label run failed next => cases hfinished
    | commit n => cases hfinished
    | rollback n => cases hfinished
  have hcall : ∀ (i : Nat) (p : Program Db Edit Lock Label ε α) (c : Call Db Edit Lock Label ε α),
      programs[i]? = some p → (initial db programs).calls[i]? = some c → c = Call.begin p := by
    intro i p c hp hc
    simp only [initial, List.getElem?_map, hp, Option.map_some, Option.some.injEq] at hc
    exact hc.symm
  let order := (List.range programs.length).filter fun i =>
    (programs[i]?).any fun p => (Call.begin p).finished
  have hfinished : ∀ i ∈ order, ∀ p ∈ programs[i]?, (Call.begin p).finished = true := by
    intro i hi p hp
    have hany := (List.mem_filter.mp hi).2
    rw [hp] at hany
    exact hany
  have hsame : ∀ before, before ⊆ order → serially programs db before = db := by
    intro before hsub
    exact serially_same fun i hi p hp => (hrefused p (hfinished i (hsub hi) p hp)).1
  refine ⟨order, exclusive_initial db programs, ?_, ⟨?_, ?_, ?_, ?_⟩, ?_⟩
  · simp [initial]
  · exact List.nodup_range.filter _
  · intro i hi
    exact List.mem_range.mp (List.mem_filter.mp hi).1
  · exact (hsame order (List.Subset.refl _)).symm
  · intro before i after hsplit p c hp hc
    have hsub : before ⊆ order := by
      rw [hsplit]
      exact List.subset_append_left _ _
    have hi : i ∈ order := by
      rw [hsplit]
      exact List.mem_append_right _ List.mem_cons_self
    rw [hcall i p c hp hc, hsame before hsub]
    exact (hrefused p (hfinished i hi p hp)).2
  · intro i p c hp hc hi
    obtain rfl := hcall i p c hp hc
    obtain ⟨body, hbody, hopens⟩ := (hprograms i p hp).opens
    have hunfinished : (Call.begin p).finished = false := by
      cases hdone : (Call.begin p).finished with
      | false => rfl
      | true =>
        have hlt := (List.getElem?_eq_some_iff.mp hp).1
        refine absurd (List.mem_filter.mpr ⟨List.mem_range.mpr hlt, ?_⟩) hi
        simp only [hp, Option.any_some, hdone]
    exact Or.inl ⟨rfl, rfl, hunfinished, checks i, body, hbody, (hprograms i p hp).rechecks, hopens,
      hbody⟩

/-- A run whose commits find their checks still passing is a run of one call after another. -/
theorem exists_serial_of_run (hcomm : ∀ l k, conflict l k = conflict k l)
    (hexcludes : ∀ l k, excludes l → excludes k → conflict l k = true)
    (hprograms : ∀ (i : Nat) (p : Program Db Edit Lock Label ε α), programs[i]? = some p →
      Program.ChecksThenLocks excludes (checks i) p)
    {schedule : List Nat} {t : State Db Edit Lock Label ε α}
    (hok : (initial db programs).Meets conflict
      (fun s i => s.commitsNext i = true → (checks i).Passes s.committed) schedule)
    (hrun : (initial db programs).run conflict schedule = some t) :
    ∃ order : List Nat, order.Nodup ∧ (∀ i ∈ order, i < programs.length) ∧
      (∀ (i : Nat) (c : Call Db Edit Lock Label ε α), t.calls[i]? = some c → c.finished = true →
        i ∈ order) ∧
      t.committed = serially programs db order ∧
      ∀ before i after, order = before ++ i :: after → ∀ p ∈ programs[i]?,
        t.answer i = (p.alone (serially programs db before)).1.toOption := by
  rw [← List.append_nil schedule] at hok
  have hreach := (reaches_of_run hok hrun).1
  have hkept : ∃ order, t.Serialized conflict excludes programs checks db order := by
    clear hrun hok
    induction hreach with
    | refl => exact serialized_initial hprograms
    | step _ hok hstep ih =>
      obtain ⟨order, hs⟩ := ih
      exact hs.step hcomm hexcludes hprograms hok hstep
  obtain ⟨order, hs⟩ := hkept
  refine ⟨order, hs.serial.nodup, hs.serial.called, ?_, hs.serial.committed, ?_⟩
  · intro i c hc hfinished
    by_contra hi
    have hlt := (List.getElem?_eq_some_iff.mp hc).1
    rw [hs.length] at hlt
    rcases hs.going i _ c (List.getElem?_eq_getElem hlt) hc hi with hchecking | hlocked
    · rw [hchecking.unfinished] at hfinished
      cases hfinished
    · rw [hlocked.unfinished] at hfinished
      cases hfinished
  · intro before i after hsplit p hp
    have hlt := (List.getElem?_eq_some_iff.mp hp).1
    rw [← hs.length] at hlt
    have hc := List.getElem?_eq_getElem hlt
    have hsettled := hs.serial.settled before i after hsplit p _ hp hc
    cases hresult : (p.alone (serially programs db before)).1 with
    | ok a =>
      rw [hresult] at hsettled
      exact answer_eq_some_iff.mpr ⟨_, hc, hsettled⟩
    | error e =>
      rw [hresult] at hsettled
      obtain ⟨f, hprogram⟩ := hsettled
      cases hanswer : t.answer i with
      | none => rfl
      | some a =>
        obtain ⟨d, hd, hdone⟩ := answer_eq_some_iff.mp hanswer
        rw [hc] at hd
        cases hd
        rw [hdone] at hprogram
        rcases hprogram with h | h <;> cases h

end State

end Transaction
