import VerigenceSecurity.Library.ProgramLogic

/-! # What row locks protect

An edit may need locks, and it may make a claim about the committed rows at the
moment it is made. When other edits can break the claim only with a conflicting
lock, it still holds when the call commits, whatever the other calls did.
-/

namespace Transaction
set_option autoImplicit false

variable {Db Edit Lock Label ε α β γ : Type}

/-- The locks that edits need, and what they claim of the committed rows. -/
structure Protocol (Db Edit Lock : Type) where
  needs : Edit → List Lock
  claim : Edit → Db → Prop

/-- A call that goes on still holds its locks. -/
theorem Call.held_of_unfinished {c : Call Db Edit Lock Label ε α} (h : c.finished = false) :
    c.held = c.progress.locks := by
  unfold finished at h
  unfold held
  split
  · rename_i r hr
    rw [hr] at h
    cases h
  · rfl

theorem Call.unfinished_of_committing {c : Call Db Edit Lock Label ε α} (h : c.committing = true) :
    c.finished = false := by
  unfold committing at h
  unfold finished
  split at h
  · rename_i hprogram
    rw [hprogram]
  · cases h

variable [Replay Db Edit]

namespace Program

/-- Every statement takes the locks its edits need and makes true claims. -/
def Follows (R : Protocol Db Edit Lock) : Program Db Edit Lock Label ε α → Prop
  | done _ => True
  | statement _ run failed next =>
    (∀ pending db o, run (replayAll pending db) = .ok o →
      ∀ e ∈ o.edits, (∀ l ∈ R.needs e, l ∈ o.locks) ∧ R.claim e db) ∧
    (∀ e, (failed e).Follows R) ∧ ∀ b, (next b).Follows R
  | commit n => n.Follows R
  | rollback n => n.Follows R

variable {R : Protocol Db Edit Lock}

@[simp] theorem follows_pure (a : α) : (pure a : Program Db Edit Lock Label ε α).Follows R := trivial

@[simp] theorem follows_raise (e : ε) : (raise e : Program Db Edit Lock Label ε α).Follows R := trivial

@[simp] theorem follows_commitNow :
    (commitNow : Program Db Edit Lock Label ε Unit).Follows R := trivial

@[simp] theorem follows_rollbackNow :
    (rollbackNow : Program Db Edit Lock Label ε Unit).Follows R := trivial

theorem follows_execute {label : Label} {run : Db → Except ε (Outcome Edit Lock β)}
    (h : ∀ pending db o, run (replayAll pending db) = .ok o →
      ∀ e ∈ o.edits, (∀ l ∈ R.needs e, l ∈ o.locks) ∧ R.claim e db) :
    (execute label run).Follows R :=
  ⟨h, fun _ => trivial, fun _ => trivial⟩

@[simp] theorem follows_query {label : Label} {read : Db → Except ε β} :
    (query label read : Program Db Edit Lock Label ε β).Follows R := by
  apply follows_execute
  intro pending db o ho e he
  cases hread : read (replayAll pending db) with
  | error e =>
    rw [hread] at ho
    cases ho
  | ok b =>
    rw [hread] at ho
    cases ho
    cases he

theorem follows_bind {p : Program Db Edit Lock Label ε α} {k : α → Program Db Edit Lock Label ε β}
    (hp : p.Follows R) (hk : ∀ a, (k a).Follows R) : (p >>= k).Follows R := by
  induction p with
  | done r =>
    cases r with
    | ok a => exact hk a
    | error e => trivial
  | statement label run failed next ihf ihn =>
    exact ⟨hp.1, fun e => ihf e (hp.2.1 e), fun b => ihn b (hp.2.2 b)⟩
  | commit n ih => exact ih hp
  | rollback n ih => exact ih hp

theorem follows_attempt {handler : ε → Program Db Edit Lock Label ε α}
    {p : Program Db Edit Lock Label ε α} (hp : p.Follows R) (hh : ∀ e, (handler e).Follows R) :
    (attempt handler p).Follows R := by
  induction p with
  | done r =>
    cases r with
    | ok a => trivial
    | error e => exact hh e
  | statement label run failed next ihf ihn =>
    exact ⟨hp.1, fun e => ihf e (hp.2.1 e), fun b => ihn b (hp.2.2 b)⟩
  | commit n ih => exact ih hp
  | rollback n ih => exact ih hp

theorem follows_each {body : γ → Program Db Edit Lock Label ε Unit} (h : ∀ x, (body x).Follows R)
    (xs : List γ) : (each body xs).Follows R := by
  induction xs with
  | nil => trivial
  | cons x xs ih => exact follows_bind (h x) fun _ => ih

theorem Writes.follows {Q : Edit → Prop} {p : Program Db Edit Lock Label ε α} (h : p.Writes Q)
    (hQ : ∀ e, Q e → R.needs e = [] ∧ ∀ db, R.claim e db) : p.Follows R := by
  induction p with
  | done r => trivial
  | statement label run failed next ihf ihn =>
    refine ⟨fun pending db o ho e he => ?_, fun e => ihf e (h.2.1 e), fun b => ihn b (h.2.2 b)⟩
    obtain ⟨hneeds, hclaim⟩ := hQ e (h.1 _ o ho e he)
    refine ⟨fun l hl => ?_, hclaim db⟩
    rw [hneeds] at hl
    cases hl
  | commit n ih => exact ih h
  | rollback n ih => exact ih h

end Program

/-! ## Exclusion -/

namespace State

variable {conflict : Lock → Lock → Bool}

def Exclusive (conflict : Lock → Lock → Bool) (s : State Db Edit Lock Label ε α) : Prop :=
  ∀ (i j : Nat) (c d : Call Db Edit Lock Label ε α), i ≠ j → s.calls[i]? = some c → s.calls[j]? = some d →
    ∀ l ∈ c.held, ∀ k ∈ d.held, conflict l k = false

end State

omit [Replay Db Edit] in
theorem State.exclusive_initial {conflict : Lock → Lock → Bool} (db : Db)
    (programs : List (Program Db Edit Lock Label ε α)) :
    (State.initial db programs).Exclusive conflict := by
  intro i j c d _ hc _ l hl
  simp only [State.initial, List.getElem?_map] at hc
  obtain ⟨p, _, rfl⟩ := Option.map_eq_some_iff.mp hc
  unfold Call.held Call.begin at hl
  split at hl <;> cases hl

/-- A step takes only locks that were free; it may also release all. -/
theorem Call.held_of_advance {c c' : Call Db Edit Lock Label ε α} {free : List Lock → Bool}
    {db db' : Db} (h : c.advance free db = some (c', db')) :
    ∃ taken, (taken = [] ∨ free taken = true) ∧ ∀ l ∈ c'.held, l ∈ taken ∨ l ∈ c.held := by
  obtain ⟨program, g⟩ := c
  have held_subset : ∀ {p : Program Db Edit Lock Label ε α} {g : Progress Db Edit Lock Label},
      ∀ l ∈ Call.held ⟨p, g⟩, l ∈ g.locks := by
    intro p g l hl
    unfold held at hl
    split at hl
    · cases hl
    · exact hl
  cases program with
  | done r => cases h
  | statement label run failed next =>
    simp only [advance] at h
    split at h
    · cases h
      exact ⟨[], Or.inl rfl, fun l hl => Or.inr (held_subset l hl)⟩
    · rename_i o _
      split at h
      · rename_i hfree
        cases h
        exact ⟨o.locks, Or.inr hfree, fun l hl => List.mem_append.mp (held_subset l hl)⟩
      · cases h
  | commit next =>
    cases h
    exact ⟨[], Or.inl rfl, fun l hl => absurd (held_subset l hl) List.not_mem_nil⟩
  | rollback next =>
    cases h
    exact ⟨[], Or.inl rfl, fun l hl => absurd (held_subset l hl) List.not_mem_nil⟩

namespace State

variable {conflict : Lock → Lock → Bool}

theorem Exclusive.step (hcomm : ∀ l k, conflict l k = conflict k l)
    {s t : State Db Edit Lock Label ε α} {i : Nat} (hs : s.Exclusive conflict)
    (h : s.step conflict i = some t) : t.Exclusive conflict := by
  obtain ⟨c, c', hc, ha, hcalls⟩ := step_cases h
  obtain ⟨taken, hfree, hheld⟩ := Call.held_of_advance ha
  have hnew : ∀ j (d : Call Db Edit Lock Label ε α), j ≠ i → s.calls[j]? = some d →
      ∀ l ∈ c'.held, ∀ k ∈ d.held, conflict l k = false := by
    intro j d hj hd l hl k hk
    rcases hheld l hl with hl | hl
    · rcases hfree with rfl | hfree
      · cases hl
      · exact not_conflict_of_free hfree hj hd l hl k hk
    · exact hs i j c d (Ne.symm hj) hc hd l hl k hk
  intro j j' d d' hj hd hd' l hl k hk
  rcases call_cases hcalls hd with ⟨rfl, rfl⟩ | ⟨hji, hd⟩
  · rcases call_cases hcalls hd' with ⟨rfl, _⟩ | ⟨hji', hd'⟩
    · exact absurd rfl hj
    · exact hnew j' d' hji' hd' l hl k hk
  · rcases call_cases hcalls hd' with ⟨rfl, rfl⟩ | ⟨_, hd'⟩
    · rw [hcomm]
      exact hnew j d hji hd k hk l hl
    · exact hs j j' d d' hj hd hd' l hl k hk

end State

/-! ## Claims -/

/-- No edit breaks the claim of another edit whose locks do not conflict. -/
def Protocol.Stable (R : Protocol Db Edit Lock) (conflict : Lock → Lock → Bool) : Prop :=
  ∀ e e' db, (∀ l ∈ R.needs e, ∀ k ∈ R.needs e', conflict l k = false) →
    R.claim e db → R.claim e (Replay.replay e' db)

theorem Protocol.Stable.replayAll {R : Protocol Db Edit Lock} {conflict : Lock → Lock → Bool}
    (h : R.Stable conflict) {e : Edit} {es : List Edit}
    (hes : ∀ e' ∈ es, ∀ l ∈ R.needs e, ∀ k ∈ R.needs e', conflict l k = false) {db : Db}
    (hdb : R.claim e db) : R.claim e (replayAll es db) := by
  induction es generalizing db with
  | nil => exact hdb
  | cons e' es ih =>
    exact ih (fun e'' he => hes e'' (List.mem_cons_of_mem _ he))
      (h e e' db (hes e' List.mem_cons_self) hdb)

namespace Call

/-- A call that goes on holds the locks of its pending edits, whose claims are true. -/
structure Claims (R : Protocol Db Edit Lock) (db : Db) (c : Call Db Edit Lock Label ε α) : Prop where
  locked : c.finished = false → ∀ e ∈ c.progress.pending, ∀ l ∈ R.needs e, l ∈ c.held
  true_claims : c.finished = false → ∀ e ∈ c.progress.pending, R.claim e db

omit [Replay Db Edit] in
theorem Claims.of_pending_nil {R : Protocol Db Edit Lock} {db : Db}
    {c : Call Db Edit Lock Label ε α} (h : c.progress.pending = []) : c.Claims R db := by
  have hnone : ∀ e, e ∉ c.progress.pending := by simp [h]
  exact ⟨fun _ e he => absurd he (hnone e), fun _ e he => absurd he (hnone e)⟩

theorem Claims.advance {R : Protocol Db Edit Lock} {c c' : Call Db Edit Lock Label ε α}
    {free : List Lock → Bool} {db db' : Db} (hc : c.Claims R db) (hf : c.program.Follows R)
    (h : c.advance free db = some (c', db')) : c'.Claims R db' ∧ c'.program.Follows R := by
  obtain ⟨program, g⟩ := c
  cases program with
  | done r => cases h
  | statement label run failed next =>
    have hlocked : ∀ e ∈ g.pending, ∀ l ∈ R.needs e, l ∈ g.locks := hc.locked rfl
    have hclaims : ∀ e ∈ g.pending, R.claim e db := hc.true_claims rfl
    simp only [Call.advance] at h
    split at h
    · cases h
      refine ⟨⟨fun hu => ?_, fun _ => hclaims⟩, hf.2.1 _⟩
      rw [held_of_unfinished hu]
      exact hlocked
    · rename_i o ho
      split at h
      · cases h
        have hedits := hf.1 g.pending db o ho
        refine ⟨⟨fun hu e he l hl => ?_, fun _ e he => ?_⟩, hf.2.2 _⟩
        · rw [held_of_unfinished hu]
          rcases List.mem_append.mp he with he | he
          · exact List.mem_append_right _ (hlocked e he l hl)
          · exact List.mem_append_left _ ((hedits e he).1 l hl)
        · rcases List.mem_append.mp he with he | he
          · exact hclaims e he
          · exact (hedits e he).2
      · cases h
  | commit next =>
    cases h
    exact ⟨Claims.of_pending_nil rfl, hf⟩
  | rollback next =>
    cases h
    exact ⟨Claims.of_pending_nil rfl, hf⟩

end Call

namespace State

variable {R : Protocol Db Edit Lock} {conflict : Lock → Lock → Bool}

structure Protected (R : Protocol Db Edit Lock) (conflict : Lock → Lock → Bool)
    (s : State Db Edit Lock Label ε α) : Prop where
  exclusive : s.Exclusive conflict
  follows : ∀ (i : Nat) (c : Call Db Edit Lock Label ε α), s.calls[i]? = some c → c.program.Follows R
  claims : ∀ (i : Nat) (c : Call Db Edit Lock Label ε α), s.calls[i]? = some c →
    c.Claims R s.committed

theorem protected_initial {db : Db} {programs : List (Program Db Edit Lock Label ε α)}
    (h : ∀ p ∈ programs, p.Follows R) : (initial db programs).Protected R conflict := by
  have hcalls : ∀ (i : Nat) (c : Call Db Edit Lock Label ε α),
      (initial db programs).calls[i]? = some c → ∃ p ∈ programs, c = Call.begin p := by
    intro i c hc
    simp only [initial, List.getElem?_map] at hc
    obtain ⟨p, hp, rfl⟩ := Option.map_eq_some_iff.mp hc
    exact ⟨p, List.mem_of_getElem? hp, rfl⟩
  refine ⟨exclusive_initial db programs, ?_, ?_⟩
  · intro i c hc
    obtain ⟨p, hp, rfl⟩ := hcalls i c hc
    exact h p hp
  · intro i c hc
    obtain ⟨p, _, rfl⟩ := hcalls i c hc
    exact Call.Claims.of_pending_nil rfl

theorem Protected.step (hcomm : ∀ l k, conflict l k = conflict k l) (hR : R.Stable conflict)
    {s t : State Db Edit Lock Label ε α} {i : Nat} (hs : s.Protected R conflict)
    (h : s.step conflict i = some t) : t.Protected R conflict := by
  obtain ⟨c, c', hc, ha, hcalls⟩ := step_cases h
  have hown := (hs.claims i c hc).advance (hs.follows i c hc) ha
  refine ⟨hs.exclusive.step hcomm h, ?_, ?_⟩
  · intro j d hd
    rcases call_cases hcalls hd with ⟨rfl, rfl⟩ | ⟨_, hd⟩
    · exact hown.2
    · exact hs.follows j d hd
  · intro j d hd
    rcases call_cases hcalls hd with ⟨rfl, rfl⟩ | ⟨hji, hd⟩
    · exact hown.1
    · have hdc := hs.claims j d hd
      refine ⟨hdc.locked, fun hu e he => ?_⟩
      rcases committed_of_advance ha with ⟨_, hdb⟩ | ⟨hcommit, hdb⟩
      · rw [hdb]
        exact hdc.true_claims hu e he
      · -- The other call's edits need locks that do not conflict with those held here.
        have hunfinished := Call.unfinished_of_committing hcommit
        rw [hdb]
        apply hR.replayAll _ (hdc.true_claims hu e he)
        intro e' he' l hl k hk
        exact hs.exclusive j i d c hji hd hc l (hdc.locked hu e he l hl) k
          ((hs.claims i c hc).locked hunfinished e' he' k hk)

theorem Reaches.protected (hcomm : ∀ l k, conflict l k = conflict k l) (hR : R.Stable conflict)
    {ok : State Db Edit Lock Label ε α → Nat → Prop} {s t : State Db Edit Lock Label ε α}
    (h : Reaches conflict ok s t) (hs : s.Protected R conflict) : t.Protected R conflict := by
  induction h with
  | refl => exact hs
  | step _ _ hstep ih => exact ih.step hcomm hR hstep

end State

end Transaction
