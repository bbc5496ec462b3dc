import VerigenceSecurity.Library.LockOrder

/-! # What a call may lock, given what it holds

A discipline says which locks a statement may ask for after the locks of the statements
before it, on rows that the other calls change in known ways only. It is checked along a
program, and holds of every call in every interleaving in which statements wait.
-/

namespace Transaction
set_option autoImplicit false

variable {Db Edit Lock Label ε α β : Type}

/-- `rely` is what the others' commits do to the rows; `asks` reads the committed rows, the
locks of the statements before and those of the statement itself. -/
structure Discipline (Db Edit Lock : Type) where
  rely : Db → Db → Prop
  asks : Db → List Lock → List Lock → Prop
  edits : Edit → Prop
  rely_refl : ∀ db, rely db db
  rely_trans : ∀ {a b c}, rely a b → rely b c → rely a c
  asks_nil : ∀ db before, asks db before []
  asks_rely : ∀ {db db' before now}, rely db db' → asks db before now → asks db' before now

variable [Replay Db Edit] {D : Discipline Db Edit Lock}

namespace Program

def Obeys (D : Discipline Db Edit Lock) (post : Except ε α → List Lock → List Edit → Db → Prop) :
    Program Db Edit Lock Label ε α → List Lock → List Edit → Db → Prop
  | done r, before, pending, db => post r before pending db
  | statement _ run failed next, before, pending, db => ∀ db', D.rely db db' →
    (∀ e, run (replayAll pending db') = .error e → (failed e).Obeys D post before pending db') ∧
    ∀ o, run (replayAll pending db') = .ok o → D.asks db' before o.locks ∧
      (∀ e ∈ o.edits, D.edits e) ∧
      (next o.value).Obeys D post (o.locks ++ before) (pending ++ o.edits) db'
  | commit n, _, pending, db =>
    ∀ db', D.rely db db' → n.Obeys D post [] [] (replayAll pending db')
  | rollback n, _, _, db => n.Obeys D post [] [] db

section Obeys

variable {post : Except ε α → List Lock → List Edit → Db → Prop} {before : List Lock}
  {pending : List Edit} {db : Db}

theorem Obeys.weaken {post' : Except ε α → List Lock → List Edit → Db → Prop}
    {p : Program Db Edit Lock Label ε α} (hp : p.Obeys D post before pending db)
    (h : ∀ r before pending db, post r before pending db → post' r before pending db) :
    p.Obeys D post' before pending db := by
  induction p generalizing before pending db with
  | done r => exact h r before pending db hp
  | statement label run failed next ihf ihn =>
    intro db' hdb
    obtain ⟨herror, hok⟩ := hp db' hdb
    refine ⟨fun e he => ihf e (herror e he), fun o ho => ?_⟩
    obtain ⟨hasks, hedits, hnext⟩ := hok o ho
    exact ⟨hasks, hedits, ihn o.value hnext⟩
  | commit n ih => exact fun db' hdb => ih (hp db' hdb)
  | rollback n ih => exact ih hp

theorem obeys_query {label : Label} {read : Db → Except ε α}
    (h : ∀ db', D.rely db db' → post (read (replayAll pending db')) before pending db') :
    (query label read).Obeys D post before pending db := by
  intro db' hdb
  have hpost := h db' hdb
  constructor
  · intro e he
    dsimp only at he
    cases hread : read (replayAll pending db') with
    | error e' =>
      rw [hread] at he hpost
      cases he
      exact hpost
    | ok a =>
      rw [hread] at he
      cases he
  · intro o ho
    dsimp only at ho
    cases hread : read (replayAll pending db') with
    | error e =>
      rw [hread] at ho
      cases ho
    | ok a =>
      rw [hread] at ho hpost
      cases ho
      refine ⟨D.asks_nil db' before, nofun, ?_⟩
      rw [List.append_nil]
      exact hpost

theorem obeys_bind {p : Program Db Edit Lock Label ε β} {k : β → Program Db Edit Lock Label ε α}
    (h : p.Obeys D (fun r before pending db => match r with
      | .ok a => (k a).Obeys D post before pending db
      | .error e => post (.error e) before pending db) before pending db) :
    (p >>= k).Obeys D post before pending db := by
  induction p generalizing before pending db with
  | done r =>
    cases r with
    | ok a => exact h
    | error e => exact h
  | statement label run failed next ihf ihn =>
    intro db' hdb
    obtain ⟨herror, hok⟩ := h db' hdb
    refine ⟨fun e he => ihf e (herror e he), fun o ho => ?_⟩
    obtain ⟨hasks, hedits, hnext⟩ := hok o ho
    exact ⟨hasks, hedits, ihn o.value hnext⟩
  | commit n ih => exact fun db' hdb => ih (h db' hdb)
  | rollback n ih => exact ih h

theorem obeys_attempt {handler : ε → Program Db Edit Lock Label ε α}
    {p : Program Db Edit Lock Label ε α}
    (h : p.Obeys D (fun r before pending db => match r with
      | .ok a => post (.ok a) before pending db
      | .error e => (handler e).Obeys D post before pending db) before pending db) :
    (attempt handler p).Obeys D post before pending db := by
  induction p generalizing before pending db with
  | done r =>
    cases r with
    | ok a => exact h
    | error e => exact h
  | statement label run failed next ihf ihn =>
    intro db' hdb
    obtain ⟨herror, hok⟩ := h db' hdb
    refine ⟨fun e he => ihf e (herror e he), fun o ho => ?_⟩
    obtain ⟨hasks, hedits, hnext⟩ := hok o ho
    exact ⟨hasks, hedits, ihn o.value hnext⟩
  | commit n ih => exact fun db' hdb => ih (h db' hdb)
  | rollback n ih => exact ih h

theorem Obeys.of_bind {p : Program Db Edit Lock Label ε β} {k : β → Program Db Edit Lock Label ε α}
    (h : (p >>= k).Obeys D post before pending db) :
    p.Obeys D (fun _ _ _ _ => True) before pending db := by
  induction p generalizing before pending db with
  | done r => trivial
  | statement label run failed next ihf ihn =>
    intro db' hdb
    obtain ⟨herror, hok⟩ := h db' hdb
    refine ⟨fun e he => ihf e (herror e he), fun o ho => ?_⟩
    obtain ⟨hasks, hedits, hnext⟩ := hok o ho
    exact ⟨hasks, hedits, ihn o.value hnext⟩
  | commit n ih => exact fun db' hdb => ih (h db' hdb)
  | rollback n ih => exact ih h

/-- A guarded part, whose handler keeps the discipline wherever the part has raised. -/
theorem obeys_attempt_bind {handler : ε → Program Db Edit Lock Label ε β}
    {p : Program Db Edit Lock Label ε β} {k : β → Program Db Edit Lock Label ε α}
    (h : (p >>= k).Obeys D post before pending db)
    (hh : ∀ e before pending db, (handler e >>= k).Obeys D post before pending db) :
    (attempt handler p >>= k).Obeys D post before pending db := by
  induction p generalizing before pending db with
  | done r =>
    cases r with
    | ok a => exact h
    | error e => exact hh e before pending db
  | statement label run failed next ihf ihn =>
    intro db' hdb
    obtain ⟨herror, hok⟩ := h db' hdb
    refine ⟨fun e he => ihf e (herror e he), fun o ho => ?_⟩
    obtain ⟨hasks, hedits, hnext⟩ := hok o ho
    exact ⟨hasks, hedits, ihn o.value hnext⟩
  | commit n ih => exact fun db' hdb => ih (h db' hdb)
  | rollback n ih => exact ih h

/-- A part that only reads. -/
theorem obeys_reads {p : Program Db Edit Lock Label ε α} (hp : p.Within fun _ => False)
    (hl : p.LocksOnly fun _ => False)
    (h : ∀ r db', D.rely db db' → post r before pending db') :
    p.Obeys D post before pending db := by
  induction p generalizing db with
  | done r => exact h r db (D.rely_refl db)
  | statement label run failed next ihf ihn =>
    intro db' hdb
    have hlater : ∀ r db'', D.rely db' db'' → post r before pending db'' :=
      fun r db'' h' => h r db'' (D.rely_trans hdb h')
    refine ⟨fun e _ => ihf e (hp.2.1 e) (hl.2.1 e) hlater, fun o ho => ?_⟩
    have hedits : o.edits = [] := List.eq_nil_iff_forall_not_mem.mpr (hp.1 _ o ho)
    have hlocks : o.locks = [] := List.eq_nil_iff_forall_not_mem.mpr (hl.1 _ o ho)
    rw [hedits, hlocks, List.append_nil]
    exact ⟨D.asks_nil db' before, nofun, ihn o.value (hp.2.2 o.value) (hl.2.2 o.value) hlater⟩
  | commit n => exact hp.elim
  | rollback n => exact hp.elim

end Obeys

end Program

/-! ## Overlapping calls -/

namespace Waiting

variable [DecidableEq Lock] {conflict : Lock → Lock → Bool}
  {s t : Waiting Db Edit Lock Label ε α} {i : Nat} {c : Call Db Edit Lock Label ε α}

/-- The call has been granted `before`; `now` are the locks of its latest statement. -/
structure Stands (D : Discipline Db Edit Lock) (s : Waiting Db Edit Lock Label ε α) (i : Nat)
    (c : Call Db Edit Lock Label ε α) (before now : List Lock) : Prop where
  program : ∃ db, D.rely db s.base.committed ∧
    c.program.Obeys D (fun _ _ _ _ => True) (now ++ before) c.progress.pending db
  edits : ∀ e ∈ c.progress.pending, D.edits e
  granted : ∀ l ∈ before, l ∈ s.held i
  held : ∀ l ∈ s.held i, l ∈ now ++ before
  asked : ∀ l ∈ now, l ∈ s.queue i ∨ l ∈ s.held i
  queue : ∀ l ∈ s.queue i, l ∈ now
  asks : D.asks s.base.committed before now

def Disciplined (D : Nat → Discipline Db Edit Lock) (s : Waiting Db Edit Lock Label ε α) : Prop :=
  ∀ (i : Nat) (c : Call Db Edit Lock Label ε α), s.base.calls[i]? = some c →
    ∃ before now, s.Stands (D i) i c before now

omit [DecidableEq Lock] in
theorem disciplined_initial {D : Nat → Discipline Db Edit Lock} {db : Db}
    {programs : List (Program Db Edit Lock Label ε α)}
    (h : ∀ (i : Nat) (p : Program Db Edit Lock Label ε α), programs[i]? = some p →
      p.Obeys (D i) (fun _ _ _ _ => True) [] [] db) :
    (initial db programs).Disciplined D := by
  intro i c hc
  simp only [initial, State.initial, List.getElem?_map] at hc
  obtain ⟨p, hp, rfl⟩ := Option.map_eq_some_iff.mp hc
  refine ⟨[], [], ⟨db, (D i).rely_refl db, h i p hp⟩, List.forall_mem_nil _,
    List.forall_mem_nil _, List.forall_mem_nil _, List.forall_mem_nil _, List.forall_mem_nil _, ?_⟩
  exact (D i).asks_nil db []

omit [DecidableEq Lock] in
/-- A call stands as before when neither its locks nor its program move. -/
theorem Stands.transfer {D : Discipline Db Edit Lock} {before now : List Lock}
    (h : s.Stands D i c before now) (hdb : D.rely s.base.committed t.base.committed)
    (hheld : ∀ l, l ∈ s.held i → l ∈ t.held i)
    (hkept : ∀ l ∈ t.held i, l ∈ now ++ before)
    (hqueue : ∀ l ∈ s.queue i, l ∈ t.queue i ∨ l ∈ t.held i)
    (hrest : ∀ l ∈ t.queue i, l ∈ s.queue i) : t.Stands D i c before now := by
  obtain ⟨db, hrely, hprogram⟩ := h.program
  refine ⟨⟨db, D.rely_trans hrely hdb, hprogram⟩, h.edits, fun l hl => hheld l (h.granted l hl),
    hkept, fun l hl => ?_, fun l hl => h.queue l (hrest l hl), D.asks_rely hdb h.asks⟩
  rcases h.asked l hl with hq | hh
  · exact hqueue l hq
  · exact Or.inr (hheld l hh)

omit [DecidableEq Lock] in
/-- The call starts its next statement or ends its transaction. -/
theorem Stands.ask {D : Discipline Db Edit Lock} {before now order : List Lock}
    {c' : Call Db Edit Lock Label ε α} {free : List Lock → Bool} (h : s.Stands D i c before now)
    (hempty : s.queue i = []) (hperm : order.Perm (c.asks s.base.committed))
    (ha : c.advance free s.base.committed = some (c', t.base.committed))
    (hheld : t.held i = if c.ends then [] else s.held i) (hqueue : t.queue i = order) :
    ∃ before now, t.Stands D i c' before now := by
  obtain ⟨db, hrely, hprogram⟩ := h.program
  have hall : ∀ l ∈ now ++ before, l ∈ s.held i := by
    intro l hl
    rcases List.mem_append.mp hl with hl | hl
    · rcases h.asked l hl with hq | hh
      · rw [hempty] at hq
        cases hq
      · exact hh
    · exact h.granted l hl
  obtain ⟨program, g⟩ := c
  cases program with
  | done r => cases ha
  | statement label run failed next =>
    obtain ⟨herror, hok⟩ := hprogram s.base.committed hrely
    simp only [Call.ends, Bool.false_eq_true, if_false] at hheld
    simp only [Call.advance] at ha
    split at ha
    · rename_i e he
      simp only [Option.some.injEq, Prod.mk.injEq] at ha
      obtain ⟨rfl, hdb⟩ := ha
      have hnone : order = [] := by simpa [Call.asks, he] using hperm
      rw [hnone] at hqueue
      refine ⟨now ++ before, [], ⟨s.base.committed, ?_, herror e he⟩, h.edits, ?_, ?_,
        List.forall_mem_nil _, ?_, ?_⟩
      · rw [← hdb]
        exact D.rely_refl _
      · rwa [hheld]
      · rw [hheld]
        exact h.held
      · rw [hqueue]
        exact List.forall_mem_nil _
      · exact D.asks_nil _ _
    · rename_i o ho
      split at ha
      · simp only [Option.some.injEq, Prod.mk.injEq] at ha
        obtain ⟨rfl, hdb⟩ := ha
        obtain ⟨hasks, hedits, hnext⟩ := hok o ho
        have hasked : order.Perm o.locks := by simpa [Call.asks, ho] using hperm
        refine ⟨now ++ before, o.locks, ⟨s.base.committed, ?_, hnext⟩, ?_, ?_, ?_, ?_, ?_, ?_⟩
        · rw [← hdb]
          exact D.rely_refl _
        · intro e he
          rcases List.mem_append.mp he with he | he
          · exact h.edits e he
          · exact hedits e he
        · rwa [hheld]
        · rw [hheld]
          exact fun l hl => List.mem_append_right _ (h.held l hl)
        · rw [hqueue]
          exact fun l hl => Or.inl (hasked.mem_iff.mpr hl)
        · rw [hqueue]
          exact fun l hl => hasked.mem_iff.mp hl
        · rw [← hdb]
          exact hasks
      · cases ha
  | commit next =>
    simp only [Call.ends, if_true] at hheld
    have hnone : order = [] := hperm.eq_nil
    rw [hnone] at hqueue
    simp only [Call.advance, Option.some.injEq, Prod.mk.injEq] at ha
    obtain ⟨rfl, hdb⟩ := ha
    refine ⟨[], [], ⟨t.base.committed, D.rely_refl _, ?_⟩, List.forall_mem_nil _,
      List.forall_mem_nil _, ?_, List.forall_mem_nil _, ?_, D.asks_nil _ _⟩
    · rw [← hdb]
      exact hprogram s.base.committed hrely
    · rw [hheld]
      exact List.forall_mem_nil _
    · rw [hqueue]
      exact List.forall_mem_nil _
  | rollback next =>
    simp only [Call.ends, if_true] at hheld
    have hnone : order = [] := hperm.eq_nil
    rw [hnone] at hqueue
    simp only [Call.advance, Option.some.injEq, Prod.mk.injEq] at ha
    obtain ⟨rfl, hdb⟩ := ha
    refine ⟨[], [], ⟨db, ?_, hprogram⟩, List.forall_mem_nil _,
      List.forall_mem_nil _, ?_, List.forall_mem_nil _, ?_, D.asks_nil _ _⟩
    · rwa [← hdb]
    · rw [hheld]
      exact List.forall_mem_nil _
    · rw [hqueue]
      exact List.forall_mem_nil _

omit [DecidableEq Lock] in
theorem rely_replayAll {es : List Edit} {db : Db}
    (h : ∀ e ∈ es, ∀ db, D.rely db (Replay.replay e db)) : D.rely db (replayAll es db) := by
  induction es generalizing db with
  | nil => exact D.rely_refl db
  | cons e es ih =>
    exact D.rely_trans (h e List.mem_cons_self db) (ih fun e' he => h e' (List.mem_cons_of_mem _ he))

theorem Disciplined.step {D : Nat → Discipline Db Edit Lock} (hs : s.Disciplined D)
    (hrely : ∀ i j, i ≠ j → ∀ e, (D j).edits e → ∀ db, (D i).rely db (Replay.replay e db))
    {m : Move Lock} (h : s.step conflict m = some t) : t.Disciplined D := by
  intro j d hd
  cases m with
  | ask i order =>
    obtain ⟨c, hc, hempty, hperm, hstep, hheld, hqueue⟩ := ask_cases h
    obtain ⟨c₀, c', hc₀, ha, hcalls⟩ := State.step_cases hstep
    rw [hc, Option.some.injEq] at hc₀
    subst hc₀
    obtain ⟨before, now, hstands⟩ := hs i c hc
    rcases State.call_cases hcalls hd with ⟨rfl, rfl⟩ | ⟨hji, hd⟩
    · refine hstands.ask hempty hperm ha ?_ (by rw [hqueue, Function.update_self])
      rw [hheld]
      split <;> simp
    · obtain ⟨before', now', hother⟩ := hs j d hd
      have hsame : t.held j = s.held j := by
        rw [hheld]
        split
        · exact Function.update_of_ne hji ..
        · rfl
      have hqueued : t.queue j = s.queue j := by rw [hqueue, Function.update_of_ne hji]
      have hdb : (D j).rely s.base.committed t.base.committed := by
        rcases State.committed_of_advance ha with ⟨_, hdb⟩ | ⟨_, hdb⟩
        · rw [hdb]
          exact (D j).rely_refl _
        · rw [hdb]
          exact rely_replayAll fun e he db => hrely j i hji e (hstands.edits e he) db
      refine ⟨before', now', hother.transfer hdb ?_ ?_ ?_ ?_⟩
      · rw [hsame]
        exact fun l hl => hl
      · rw [hsame]
        exact hother.held
      · rw [hqueued]
        exact fun l hl => Or.inl hl
      · rw [hqueued]
        exact fun l hl => hl
  | take i =>
    obtain ⟨c, l, rest, hc, hfirst, _, hbase, hheld, hqueue⟩ := take_cases h
    rw [hbase] at hd
    obtain ⟨before, now, hstands⟩ := hs j d hd
    have hdb : (D j).rely s.base.committed t.base.committed := by
      rw [hbase]
      exact (D j).rely_refl _
    by_cases hji : j = i
    · subst hji
      have hheldj : t.held j = l :: s.held j := by rw [hheld, Function.update_self]
      have hqueuej : t.queue j = rest := by rw [hqueue, Function.update_self]
      have hl : l ∈ now := hstands.queue l (by rw [hfirst]; exact List.mem_cons_self)
      refine ⟨before, now, hstands.transfer hdb ?_ ?_ ?_ ?_⟩
      · rw [hheldj]
        exact fun k hk => List.mem_cons_of_mem _ hk
      · rw [hheldj]
        intro k hk
        rcases List.mem_cons.mp hk with rfl | hk
        · exact List.mem_append_left _ hl
        · exact hstands.held k hk
      · rw [hfirst, hheldj, hqueuej]
        intro k hk
        rcases List.mem_cons.mp hk with rfl | hk
        · exact Or.inr List.mem_cons_self
        · exact Or.inl hk
      · rw [hfirst, hqueuej]
        exact fun k hk => List.mem_cons_of_mem _ hk
    · have hsame : t.held j = s.held j := by rw [hheld, Function.update_of_ne hji]
      have hqueued : t.queue j = s.queue j := by rw [hqueue, Function.update_of_ne hji]
      refine ⟨before, now, hstands.transfer hdb ?_ ?_ ?_ ?_⟩
      · rw [hsame]
        exact fun k hk => hk
      · rw [hsame]
        exact hstands.held
      · rw [hqueued]
        exact fun k hk => Or.inl hk
      · rw [hqueued]
        exact fun k hk => hk

theorem Reaches.disciplined {D : Nat → Discipline Db Edit Lock}
    {ok : Waiting Db Edit Lock Label ε α → Move Lock → Prop} (h : Reaches conflict ok s t)
    (hs : s.Disciplined D)
    (hrely : ∀ i j, i ≠ j → ∀ e, (D j).edits e → ∀ db, (D i).rely db (Replay.replay e db)) :
    t.Disciplined D :=
  h.induct hs fun _ _ _ ht _ hmove => ht.step hrely hmove

end Waiting

end Transaction
