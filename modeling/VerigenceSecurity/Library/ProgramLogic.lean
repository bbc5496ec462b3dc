import VerigenceSecurity.Library.Transaction
import Mathlib.Data.List.Forall2

/-! # A logic for transaction programs

A contract says what holds of a call's progress at every point, when it commits
and when it returns, whatever the other calls commit in between. It is checked
along the program once, one rule for each way of building programs, and then
holds of the call in every interleaving and of the call alone. A contract lets
a call commit at most once.
-/

namespace Transaction
set_option autoImplicit false

variable {Db Edit Lock Label ε α β γ : Type}

structure Contract (Db Edit Lock Label ε α : Type) where
  always : Progress Db Edit Lock Label → Prop
  commits : Progress Db Edit Lock Label → Prop
  returns : Except ε α → Progress Db Edit Lock Label → Prop

namespace Contract

def closed (C : Contract Db Edit Lock Label ε α) : Contract Db Edit Lock Label ε α :=
  { C with commits := fun _ => False }

/-- The contract of a part whose result `post` has to hold for the rest to keep `C`. -/
def part (C : Contract Db Edit Lock Label ε β) (commits : Progress Db Edit Lock Label → Prop)
    (post : α → Progress Db Edit Lock Label → Prop) : Contract Db Edit Lock Label ε α where
  always := C.always
  commits := commits
  returns r g := match r with
    | .ok a => post a g
    | .error e => C.returns (.error e) g

/-- The contract of a guarded part, its errors being left to the handler. -/
def guarded (C : Contract Db Edit Lock Label ε α)
    (post : ε → Progress Db Edit Lock Label → Prop) : Contract Db Edit Lock Label ε α where
  always := C.always
  commits := C.commits
  returns r g := match r with
    | .ok a => C.returns (.ok a) g
    | .error e => post e g

end Contract

@[simp] theorem Progress.ran_value {label : Label} {db : Db} {b : β}
    {g : Progress Db Edit Lock Label} : g.ran label db { value := b } = g.failed label db := by
  simp [Progress.ran, Progress.failed]

/-- The later progress keeps the history and the locks, and has new edits pending. -/
structure Progress.Extends (g : Progress Db Edit Lock Label) (edits : List Edit)
    (g' : Progress Db Edit Lock Label) : Prop where
  pending : g'.pending = g.pending ++ edits
  history : ∀ e ∈ g.history, e ∈ g'.history
  locks : ∀ l ∈ g.locks, l ∈ g'.locks

namespace Progress.Extends

variable {g g' g'' : Progress Db Edit Lock Label} {es fs : List Edit}

theorem refl (g : Progress Db Edit Lock Label) : g.Extends [] g :=
  ⟨(List.append_nil _).symm, fun _ h => h, fun _ h => h⟩

theorem trans (h : g.Extends es g') (k : g'.Extends fs g'') : g.Extends (es ++ fs) g'' :=
  ⟨by rw [k.pending, h.pending, List.append_assoc], fun e he => k.history e (h.history e he),
    fun l hl => k.locks l (h.locks l hl)⟩

theorem ran (label : Label) (db : Db) (o : Outcome Edit Lock β) (g : Progress Db Edit Lock Label) :
    g.Extends o.edits (g.ran label db o) :=
  ⟨rfl, fun _ he => List.mem_cons_of_mem _ he, fun _ hl => List.mem_append_right _ hl⟩

theorem failed (label : Label) (db : Db) (g : Progress Db Edit Lock Label) :
    g.Extends [] (g.failed label db) :=
  ⟨(List.append_nil _).symm, fun _ he => List.mem_cons_of_mem _ he, fun _ hl => hl⟩

end Progress.Extends

variable [Replay Db Edit]

namespace Program

def Upholds (C : Contract Db Edit Lock Label ε α) :
    Program Db Edit Lock Label ε α → Progress Db Edit Lock Label → Prop
  | done r, g => C.always g ∧ C.returns r g
  | statement label run failed next, g => C.always g ∧ ∀ db,
    match run (replayAll g.pending db) with
    | .error e => (failed e).Upholds C (g.failed label db)
    | .ok o => (next o.value).Upholds C (g.ran label db o)
  | commit n, g => C.always g ∧ C.commits g ∧ n.Upholds C.closed g.ended
  | rollback n, g => C.always g ∧ n.Upholds C g.ended

theorem Upholds.always {C : Contract Db Edit Lock Label ε α} {p : Program Db Edit Lock Label ε α}
    {g : Progress Db Edit Lock Label} (h : p.Upholds C g) : C.always g := by
  cases p <;> exact h.1

theorem Upholds.weaken {C D : Contract Db Edit Lock Label ε α} {p : Program Db Edit Lock Label ε α}
    {g : Progress Db Edit Lock Label} (h : p.Upholds C g) (ha : ∀ g, C.always g → D.always g)
    (hc : ∀ g, C.always g → C.commits g → D.commits g)
    (hr : ∀ r g, C.always g → C.returns r g → D.returns r g) : p.Upholds D g := by
  induction p generalizing g C D with
  | done r => exact ⟨ha g h.1, hr r g h.1 h.2⟩
  | statement label run failed next ihf ihn =>
    refine ⟨ha g h.1, fun db => ?_⟩
    have hdb := h.2 db
    cases hrun : run (replayAll g.pending db) with
    | error e =>
      rw [hrun] at hdb
      exact ihf e hdb ha hc hr
    | ok o =>
      rw [hrun] at hdb
      exact ihn o.value hdb ha hc hr
  | commit n ih => exact ⟨ha g h.1, hc g h.1 h.2.1, ih h.2.2 ha (fun _ _ hf => hf) hr⟩
  | rollback n ih => exact ⟨ha g h.1, ih h.2 ha hc hr⟩

theorem Upholds.of_closed {C : Contract Db Edit Lock Label ε α} {p : Program Db Edit Lock Label ε α}
    {g : Progress Db Edit Lock Label} (h : p.Upholds C.closed g) : p.Upholds C g :=
  h.weaken (fun _ h => h) (fun _ _ hf => hf.elim) (fun _ _ _ h => h)

/-! ## Rules -/

theorem upholds_pure {C : Contract Db Edit Lock Label ε α} {a : α} {g : Progress Db Edit Lock Label}
    (ha : C.always g) (hr : C.returns (.ok a) g) :
    (pure a : Program Db Edit Lock Label ε α).Upholds C g := ⟨ha, hr⟩

theorem upholds_raise {C : Contract Db Edit Lock Label ε α} {e : ε} {g : Progress Db Edit Lock Label}
    (ha : C.always g) (hr : C.returns (.error e) g) :
    (raise e : Program Db Edit Lock Label ε α).Upholds C g := ⟨ha, hr⟩

theorem upholds_execute {C : Contract Db Edit Lock Label ε β} {label : Label}
    {run : Db → Except ε (Outcome Edit Lock β)} {g : Progress Db Edit Lock Label} (ha : C.always g)
    (hok : ∀ db o, run (replayAll g.pending db) = .ok o →
      C.always (g.ran label db o) ∧ C.returns (.ok o.value) (g.ran label db o))
    (herr : ∀ db e, run (replayAll g.pending db) = .error e →
      C.always (g.failed label db) ∧ C.returns (.error e) (g.failed label db)) :
    (execute label run).Upholds C g := by
  refine ⟨ha, fun db => ?_⟩
  cases hrun : run (replayAll g.pending db) with
  | error e => exact herr db e hrun
  | ok o => exact hok db o hrun

theorem upholds_execute_bind {C : Contract Db Edit Lock Label ε α} {label : Label}
    {run : Db → Except ε (Outcome Edit Lock β)} {k : β → Program Db Edit Lock Label ε α}
    {g : Progress Db Edit Lock Label} (ha : C.always g)
    (hok : ∀ db o, run (replayAll g.pending db) = .ok o → (k o.value).Upholds C (g.ran label db o))
    (herr : ∀ db e, run (replayAll g.pending db) = .error e →
      C.always (g.failed label db) ∧ C.returns (.error e) (g.failed label db)) :
    (execute label run >>= k).Upholds C g := by
  refine ⟨ha, fun db => ?_⟩
  cases hrun : run (replayAll g.pending db) with
  | error e => exact herr db e hrun
  | ok o => exact hok db o hrun

theorem upholds_query_bind {C : Contract Db Edit Lock Label ε α} {label : Label}
    {read : Db → Except ε β} {k : β → Program Db Edit Lock Label ε α}
    {g : Progress Db Edit Lock Label} (ha : C.always g)
    (hok : ∀ db b, read (replayAll g.pending db) = .ok b → (k b).Upholds C (g.failed label db))
    (herr : ∀ db e, read (replayAll g.pending db) = .error e →
      C.always (g.failed label db) ∧ C.returns (.error e) (g.failed label db)) :
    (query label read >>= k).Upholds C g := by
  apply upholds_execute_bind ha
  · intro db o ho
    cases hread : read (replayAll g.pending db) with
    | error e =>
      rw [hread] at ho
      cases ho
    | ok b =>
      rw [hread] at ho
      cases ho
      rw [Progress.ran_value]
      exact hok db b hread
  · intro db e he
    cases hread : read (replayAll g.pending db) with
    | error e' =>
      rw [hread] at he
      cases he
      exact herr db e hread
    | ok b =>
      rw [hread] at he
      cases he

theorem upholds_commitNow_bind {C : Contract Db Edit Lock Label ε α}
    {k : Unit → Program Db Edit Lock Label ε α} {g : Progress Db Edit Lock Label}
    (ha : C.always g) (hc : C.commits g) (hk : (k ()).Upholds C.closed g.ended) :
    (commitNow >>= k).Upholds C g := ⟨ha, hc, hk⟩

theorem upholds_rollbackNow_bind {C : Contract Db Edit Lock Label ε α}
    {k : Unit → Program Db Edit Lock Label ε α} {g : Progress Db Edit Lock Label}
    (ha : C.always g) (hk : (k ()).Upholds C g.ended) : (rollbackNow >>= k).Upholds C g := ⟨ha, hk⟩

/-- A sequence whose first part does not commit. -/
theorem upholds_bind {C : Contract Db Edit Lock Label ε β} {p : Program Db Edit Lock Label ε α}
    {k : α → Program Db Edit Lock Label ε β} {g : Progress Db Edit Lock Label}
    (h : p.Upholds (C.part (fun _ => False) fun a g => (k a).Upholds C g) g) :
    (p >>= k).Upholds C g := by
  induction p generalizing g with
  | done r =>
    cases r with
    | ok a => exact h.2
    | error e => exact ⟨h.1, h.2⟩
  | statement label run failed next ihf ihn =>
    refine ⟨h.1, fun db => ?_⟩
    have hdb := h.2 db
    cases hrun : run (replayAll g.pending db) with
    | error e =>
      rw [hrun] at hdb
      exact ihf e hdb
    | ok o =>
      rw [hrun] at hdb
      exact ihn o.value hdb
  | commit n ih => exact h.2.1.elim
  | rollback n ih => exact ⟨h.1, ih h.2⟩

/-- A sequence whose second part does not commit. -/
theorem upholds_bind_closed {C : Contract Db Edit Lock Label ε β}
    {p : Program Db Edit Lock Label ε α} {k : α → Program Db Edit Lock Label ε β}
    {g : Progress Db Edit Lock Label}
    (h : p.Upholds (C.part C.commits fun a g => (k a).Upholds C.closed g) g) :
    (p >>= k).Upholds C g := by
  induction p generalizing g with
  | done r =>
    cases r with
    | ok a => exact Upholds.of_closed h.2
    | error e => exact ⟨h.1, h.2⟩
  | statement label run failed next ihf ihn =>
    refine ⟨h.1, fun db => ?_⟩
    have hdb := h.2 db
    cases hrun : run (replayAll g.pending db) with
    | error e =>
      rw [hrun] at hdb
      exact ihf e hdb
    | ok o =>
      rw [hrun] at hdb
      exact ihn o.value hdb
  | commit n ih => exact ⟨h.1, h.2.1, upholds_bind (C := C.closed) h.2.2⟩
  | rollback n ih => exact ⟨h.1, ih h.2⟩

/-- `try ... except` around a part that may commit, with a handler that does not. -/
theorem upholds_attempt {C : Contract Db Edit Lock Label ε α}
    {handler : ε → Program Db Edit Lock Label ε α} {p : Program Db Edit Lock Label ε α}
    {g : Progress Db Edit Lock Label}
    (h : p.Upholds (C.guarded fun e g => (handler e).Upholds C.closed g) g) :
    (attempt handler p).Upholds C g := by
  induction p generalizing g C with
  | done r =>
    cases r with
    | ok a => exact h
    | error e => exact Upholds.of_closed h.2
  | statement label run failed next ihf ihn =>
    refine ⟨h.1, fun db => ?_⟩
    have hdb := h.2 db
    cases hrun : run (replayAll g.pending db) with
    | error e =>
      rw [hrun] at hdb
      exact ihf e hdb
    | ok o =>
      rw [hrun] at hdb
      exact ihn o.value hdb
  | commit n ih => exact ⟨h.1, h.2.1, ih (C := C.closed) h.2.2⟩
  | rollback n ih => exact ⟨h.1, ih h.2⟩

/-- A loop keeps an invariant of the elements it has gone through. -/
theorem upholds_each_bind {C : Contract Db Edit Lock Label ε α}
    {body : γ → Program Db Edit Lock Label ε Unit} {k : Unit → Program Db Edit Lock Label ε α}
    (inv : List γ → Progress Db Edit Lock Label → Prop) (seen : List γ) {xs : List γ}
    {g : Progress Db Edit Lock Label}
    (hbody : ∀ seen x g, x ∈ xs → inv seen g →
      (body x).Upholds (C.part (fun _ => False) fun _ g => inv (seen ++ [x]) g) g)
    (hend : ∀ g, inv (seen ++ xs) g → (k ()).Upholds C g) (hg : inv seen g) :
    (each body xs >>= k).Upholds C g := by
  apply upholds_bind
  induction xs generalizing seen g with
  | nil =>
    have hk := hend g (by rwa [List.append_nil])
    exact ⟨hk.always, hk⟩
  | cons x xs ih =>
    apply upholds_bind
    refine Upholds.weaken (hbody seen x g List.mem_cons_self hg) (fun _ h => h) (fun _ _ hf => hf) ?_
    intro r g' _ hr
    cases r with
    | error e => exact hr
    | ok u =>
      exact ih _ (fun seen y g hy => hbody seen y g (List.mem_cons_of_mem x hy))
        (fun g h => hend g (by rwa [List.append_assoc, List.singleton_append] at h)) hr

/-! ## Contracts about the commit only -/

/-- Whenever the call commits, its progress satisfies `P`. -/
def Commits (P : Progress Db Edit Lock Label → Prop) (p : Program Db Edit Lock Label ε α)
    (g : Progress Db Edit Lock Label) : Prop :=
  p.Upholds ⟨fun _ => True, P, fun _ _ => True⟩ g

section Commits

variable {P : Progress Db Edit Lock Label → Prop} {g : Progress Db Edit Lock Label}

@[simp] theorem commits_done (r : Except ε α) :
    (done r : Program Db Edit Lock Label ε α).Commits P g := ⟨trivial, trivial⟩

@[simp] theorem commits_pure (a : α) :
    (pure a : Program Db Edit Lock Label ε α).Commits P g := ⟨trivial, trivial⟩

@[simp] theorem commits_raise (e : ε) :
    (raise e : Program Db Edit Lock Label ε α).Commits P g := ⟨trivial, trivial⟩

theorem commits_execute_bind {label : Label} {run : Db → Except ε (Outcome Edit Lock β)}
    {k : β → Program Db Edit Lock Label ε α}
    (h : ∀ db o, run (replayAll g.pending db) = .ok o → (k o.value).Commits P (g.ran label db o)) :
    (execute label run >>= k).Commits P g :=
  upholds_execute_bind trivial h fun _ _ _ => ⟨trivial, trivial⟩

theorem commits_query_bind {label : Label} {read : Db → Except ε β}
    {k : β → Program Db Edit Lock Label ε α}
    (h : ∀ db b, read (replayAll g.pending db) = .ok b → (k b).Commits P (g.failed label db)) :
    (query label read >>= k).Commits P g :=
  upholds_query_bind trivial h fun _ _ _ => ⟨trivial, trivial⟩

@[simp] theorem commits_execute {label : Label} {run : Db → Except ε (Outcome Edit Lock α)} :
    (execute label run).Commits P g :=
  upholds_execute trivial (fun _ _ _ => ⟨trivial, trivial⟩) fun _ _ _ => ⟨trivial, trivial⟩

@[simp] theorem commits_query {label : Label} {read : Db → Except ε α} :
    (query label read).Commits P g := commits_execute

theorem commits_commitNow_bind {k : Unit → Program Db Edit Lock Label ε α} (hc : P g)
    (hk : (k ()).Commits (fun _ => False) g.ended) : (commitNow >>= k).Commits P g :=
  upholds_commitNow_bind trivial hc hk

theorem commits_commitNow (hc : P g) :
    (commitNow : Program Db Edit Lock Label ε Unit).Commits P g := ⟨trivial, hc, commits_pure ()⟩

theorem commits_rollbackNow_bind {k : Unit → Program Db Edit Lock Label ε α}
    (hk : (k ()).Commits P g.ended) : (rollbackNow >>= k).Commits P g :=
  upholds_rollbackNow_bind trivial hk

theorem Commits.weaken {Q : Progress Db Edit Lock Label → Prop} {p : Program Db Edit Lock Label ε α}
    (h : p.Commits P g) (hPQ : ∀ g, P g → Q g) : p.Commits Q g :=
  Upholds.weaken h (fun _ h => h) (fun g _ h => hPQ g h) (fun _ _ _ h => h)

theorem commits_each_bind {body : γ → Program Db Edit Lock Label ε Unit}
    {k : Unit → Program Db Edit Lock Label ε α}
    (inv : List γ → Progress Db Edit Lock Label → Prop) {xs : List γ}
    (hbody : ∀ seen x g, x ∈ xs → inv seen g → (body x).Upholds
      ⟨fun _ => True, fun _ => False, fun r g => ∀ u, r = .ok u → inv (seen ++ [x]) g⟩ g)
    (hend : ∀ g, inv xs g → (k ()).Commits P g) (hg : inv [] g) :
    (each body xs >>= k).Commits P g := by
  refine upholds_each_bind inv [] ?_ hend hg
  intro seen x g hx hg
  refine Upholds.weaken (hbody seen x g hx hg) (fun _ h => h) (fun _ _ hf => hf) ?_
  intro r g' _ hr
  cases r with
  | error e => trivial
  | ok u => exact hr u rfl

/-- A loop whose rounds each run one statement, `R` telling what a round writes. -/
theorem commits_each_execute_bind {label : Label}
    {run : γ → Db → Except ε (Outcome Edit Lock Unit)} {k : Unit → Program Db Edit Lock Label ε α}
    (R : γ → List Edit → Prop) {xs : List γ} (hrun : ∀ x db o, run x db = .ok o → R x o.edits)
    (h : ∀ rounds g', List.Forall₂ R xs rounds → g.Extends rounds.flatten g' →
      (k ()).Commits P g') :
    (each (fun x => execute label (run x)) xs >>= k).Commits P g := by
  refine commits_each_bind
    (fun seen g' => ∃ rounds, List.Forall₂ R seen rounds ∧ g.Extends rounds.flatten g') ?_ ?_
    ⟨[], List.Forall₂.nil, Progress.Extends.refl g⟩
  · rintro seen x g' - ⟨rounds, hrounds, hext⟩
    refine upholds_execute trivial ?_ fun _ _ _ => ⟨trivial, fun _ hu => nomatch hu⟩
    intro db o ho
    refine ⟨trivial, fun _ _ => ⟨rounds ++ [o.edits], ?_, ?_⟩⟩
    · exact List.rel_append hrounds (List.Forall₂.cons (hrun x _ o ho) List.Forall₂.nil)
    · rw [List.flatten_append, List.flatten_singleton]
      exact hext.trans (Progress.Extends.ran label db o g')
  · rintro g' ⟨rounds, hrounds, hext⟩
    exact h rounds g' hrounds hext

/-- The same when the writes of a round depend on its element only. -/
theorem commits_each_writes_bind {label : Label}
    {run : γ → Db → Except ε (Outcome Edit Lock Unit)} {k : Unit → Program Db Edit Lock Label ε α}
    (edits : γ → List Edit) {xs : List γ} (hrun : ∀ x db o, run x db = .ok o → o.edits = edits x)
    (h : ∀ g', g.Extends (xs.flatMap edits) g' → (k ()).Commits P g') :
    (each (fun x => execute label (run x)) xs >>= k).Commits P g := by
  apply commits_each_execute_bind (fun x es => es = edits x) hrun
  intro rounds g' hrounds hext
  have hmap : rounds = xs.map edits := by
    clear hext h
    induction hrounds with
    | nil => rfl
    | cons hx _ ih => rw [List.map_cons, hx, ih]
  rw [hmap, ← List.flatMap_def] at hext
  exact h g' hext

theorem commits_bind_closed {p : Program Db Edit Lock Label ε β}
    {k : β → Program Db Edit Lock Label ε α} (hp : p.Commits P g)
    (hk : ∀ b g, (k b).Commits (fun _ => False) g) : (p >>= k).Commits P g := by
  apply upholds_bind_closed
  refine Upholds.weaken hp (fun _ h => h) (fun _ _ h => h) ?_
  intro r g' _ _
  cases r with
  | error e => trivial
  | ok b => exact hk b g'

theorem commits_attempt {p : Program Db Edit Lock Label ε α}
    {handler : ε → Program Db Edit Lock Label ε α} (hp : p.Commits P g)
    (hh : ∀ e g, (handler e).Commits (fun _ => False) g) : (attempt handler p).Commits P g := by
  apply upholds_attempt
  refine Upholds.weaken hp (fun _ h => h) (fun _ _ h => h) ?_
  intro r g' _ _
  cases r with
  | error e => exact hh e g'
  | ok a => trivial

end Commits

/-! ## Parts of a transaction -/

/-- The part neither commits nor rolls back, and its edits satisfy `Q`. -/
def Within (Q : Edit → Prop) : Program Db Edit Lock Label ε α → Prop
  | done _ => True
  | statement _ run failed next =>
    (∀ db o, run db = .ok o → ∀ e ∈ o.edits, Q e) ∧ (∀ e, (failed e).Within Q) ∧
      ∀ b, (next b).Within Q
  | commit _ | rollback _ => False

section Within

variable {Q : Edit → Prop}

omit [Replay Db Edit] in
@[simp] theorem within_done (r : Except ε α) :
    (done r : Program Db Edit Lock Label ε α).Within Q := trivial

omit [Replay Db Edit] in
@[simp] theorem within_pure (a : α) : (pure a : Program Db Edit Lock Label ε α).Within Q := trivial

omit [Replay Db Edit] in
@[simp] theorem within_raise (e : ε) : (raise e : Program Db Edit Lock Label ε α).Within Q := trivial

omit [Replay Db Edit] in
theorem within_execute {label : Label} {run : Db → Except ε (Outcome Edit Lock β)}
    (h : ∀ db o, run db = .ok o → ∀ e ∈ o.edits, Q e) : (execute label run).Within Q :=
  ⟨h, fun _ => trivial, fun _ => trivial⟩

omit [Replay Db Edit] in
@[simp] theorem within_query {label : Label} {read : Db → Except ε β} :
    (query label read : Program Db Edit Lock Label ε β).Within Q := by
  refine within_execute ?_
  intro db o ho e he
  cases hread : read db with
  | error f =>
    rw [hread] at ho
    cases ho
  | ok b =>
    rw [hread] at ho
    cases ho
    cases he

omit [Replay Db Edit] in
theorem Within.weaken {Q' : Edit → Prop} {p : Program Db Edit Lock Label ε α} (h : p.Within Q)
    (hQ : ∀ e, Q e → Q' e) : p.Within Q' := by
  induction p with
  | done r => trivial
  | statement label run failed next ihf ihn =>
    exact ⟨fun db o ho e he => hQ e (h.1 db o ho e he), fun e => ihf e (h.2.1 e),
      fun b => ihn b (h.2.2 b)⟩
  | commit n ih => exact h.elim
  | rollback n ih => exact h.elim

omit [Replay Db Edit] in
theorem within_bind {p : Program Db Edit Lock Label ε α} {k : α → Program Db Edit Lock Label ε β}
    (hp : p.Within Q) (hk : ∀ a, (k a).Within Q) : (p >>= k).Within Q := by
  induction p with
  | done r =>
    cases r with
    | ok a => exact hk a
    | error e => trivial
  | statement label run failed next ihf ihn =>
    exact ⟨hp.1, fun e => ihf e (hp.2.1 e), fun b => ihn b (hp.2.2 b)⟩
  | commit n ih => exact hp.elim
  | rollback n ih => exact hp.elim

omit [Replay Db Edit] in
theorem within_each {body : γ → Program Db Edit Lock Label ε Unit} {xs : List γ}
    (h : ∀ x ∈ xs, (body x).Within Q) : (each body xs).Within Q := by
  induction xs with
  | nil => trivial
  | cons x xs ih =>
    exact within_bind (h x List.mem_cons_self) fun _ => ih fun y hy => h y (List.mem_cons_of_mem x hy)

theorem replayAll_keeps {R : Db → Prop} (hR : ∀ e db, Q e → R db → R (Replay.replay e db))
    {es : List Edit} {db : Db} (hes : ∀ e ∈ es, Q e) (hdb : R db) : R (replayAll es db) := by
  induction es generalizing db with
  | nil => exact hdb
  | cons e es ih =>
    exact ih (fun f hf => hes f (List.mem_cons_of_mem e hf)) (hR e db (hes e List.mem_cons_self) hdb)

/-- What the edits keep of the rows, the part keeps of its view. -/
theorem Within.exec {p : Program Db Edit Lock Label ε α} (h : p.Within Q) {R : Db → Prop}
    (hR : ∀ e db, Q e → R db → R (Replay.replay e db)) {s : Session Db} (hs : R s.view) :
    R (p.exec s).2.view ∧ (p.exec s).2.committed = s.committed := by
  induction p generalizing s with
  | done r => exact ⟨hs, rfl⟩
  | statement label run failed next ihf ihn =>
    simp only [Program.exec]
    cases hrun : run s.view with
    | error e => exact ihf e (h.2.1 e) hs
    | ok o => exact ihn o.value (h.2.2 o.value) (replayAll_keeps hR (h.1 _ o hrun) hs)
  | commit n ih => exact h.elim
  | rollback n ih => exact h.elim

end Within

/-- A part that does not end the transaction comes before what commits. -/
theorem commits_within_bind {Q : Edit → Prop} {P : Progress Db Edit Lock Label → Prop}
    {p : Program Db Edit Lock Label ε β} {k : β → Program Db Edit Lock Label ε α}
    {g : Progress Db Edit Lock Label} (hp : p.Within Q)
    (h : ∀ b es g', g.Extends es g' → (∀ e ∈ es, Q e) → (k b).Commits P g') :
    (p >>= k).Commits P g := by
  have along : ∀ es g', g.Extends es g' → (∀ e ∈ es, Q e) → (p >>= k).Commits P g' := by
    induction p with
    | done r =>
      intro es g' hext hes
      cases r with
      | ok b => exact h b es g' hext hes
      | error e => exact ⟨trivial, trivial⟩
    | statement label run failed next ihf ihn =>
      intro es g' hext hes
      refine ⟨trivial, fun db => ?_⟩
      cases hrun : run (replayAll g'.pending db) with
      | error e =>
        refine ihf e (hp.2.1 e) (es ++ []) _ (hext.trans (Progress.Extends.failed label db g')) ?_
        rwa [List.append_nil]
      | ok o =>
        refine ihn o.value (hp.2.2 _) (es ++ o.edits) _
          (hext.trans (Progress.Extends.ran label db o g')) ?_
        intro e he
        rcases List.mem_append.mp he with he | he
        · exact hes e he
        · exact hp.1 _ o hrun e he
    | commit n ih => exact hp.elim
    | rollback n ih => exact hp.elim
  exact along [] g (Progress.Extends.refl g) fun _ he => nomatch he

/-! ## What a program writes -/

def Writes (Q : Edit → Prop) : Program Db Edit Lock Label ε α → Prop
  | done _ => True
  | statement _ run failed next =>
    (∀ db o, run db = .ok o → ∀ e ∈ o.edits, Q e) ∧ (∀ e, (failed e).Writes Q) ∧
      ∀ b, (next b).Writes Q
  | commit p | rollback p => p.Writes Q

section Writes

variable {Q : Edit → Prop}

omit [Replay Db Edit] in
theorem Within.writes {p : Program Db Edit Lock Label ε α} (h : p.Within Q) : p.Writes Q := by
  induction p with
  | done r => trivial
  | statement label run failed next ihf ihn =>
    exact ⟨h.1, fun e => ihf e (h.2.1 e), fun b => ihn b (h.2.2 b)⟩
  | commit n ih => exact h.elim
  | rollback n ih => exact h.elim

omit [Replay Db Edit] in
theorem writes_bind {p : Program Db Edit Lock Label ε α} {k : α → Program Db Edit Lock Label ε β}
    (hp : p.Writes Q) (hk : ∀ a, (k a).Writes Q) : (p >>= k).Writes Q := by
  induction p with
  | done r =>
    cases r with
    | ok a => exact hk a
    | error e => trivial
  | statement label run failed next ihf ihn =>
    exact ⟨hp.1, fun e => ihf e (hp.2.1 e), fun b => ihn b (hp.2.2 b)⟩
  | commit n ih => exact ih hp
  | rollback n ih => exact ih hp

omit [Replay Db Edit] in
theorem writes_attempt {handler : ε → Program Db Edit Lock Label ε α}
    {p : Program Db Edit Lock Label ε α} (hp : p.Writes Q) (hh : ∀ e, (handler e).Writes Q) :
    (attempt handler p).Writes Q := by
  induction p with
  | done r =>
    cases r with
    | ok a => trivial
    | error e => exact hh e
  | statement label run failed next ihf ihn =>
    exact ⟨hp.1, fun e => ihf e (hp.2.1 e), fun b => ihn b (hp.2.2 b)⟩
  | commit n ih => exact ih hp
  | rollback n ih => exact ih hp

/-- What the edits keep of the rows, the program keeps of its view and of what is committed. -/
theorem Writes.exec {p : Program Db Edit Lock Label ε α} (h : p.Writes Q) {R : Db → Prop}
    (hR : ∀ e db, Q e → R db → R (Replay.replay e db)) {s : Session Db} (hview : R s.view)
    (hcommitted : R s.committed) : R (p.exec s).2.view ∧ R (p.exec s).2.committed := by
  induction p generalizing s with
  | done r => exact ⟨hview, hcommitted⟩
  | statement label run failed next ihf ihn =>
    simp only [Program.exec]
    cases hrun : run s.view with
    | error e => exact ihf e (h.2.1 e) hview hcommitted
    | ok o => exact ihn o.value (h.2.2 o.value) (replayAll_keeps hR (h.1 _ o hrun) hview) hcommitted
  | commit n ih => exact ih h hview hview
  | rollback n ih => exact ih h hcommitted hcommitted

end Writes

/-! ## The call alone -/

theorem exec_committed_of_closed {C : Contract Db Edit Lock Label ε α}
    {p : Program Db Edit Lock Label ε α} {g : Progress Db Edit Lock Label} {s : Session Db}
    (h : p.Upholds C.closed g) (hs : s.view = replayAll g.pending s.committed) :
    (p.exec s).2.committed = s.committed := by
  induction p generalizing g s with
  | done r => rfl
  | statement label run failed next ihf ihn =>
    have hdb := h.2 s.committed
    simp only [exec]
    rw [← hs] at hdb
    cases hrun : run s.view with
    | error e =>
      rw [hrun] at hdb
      exact ihf e hdb hs
    | ok o =>
      rw [hrun] at hdb
      exact ihn o.value (s := { s with view := replayAll o.edits s.view }) hdb
        (by simp only [Progress.ran, replayAll_append, hs])
  | commit n ih => exact h.2.1.elim
  | rollback n ih => exact ih (s := { s with view := s.committed }) h.2 rfl

theorem exec_upholds {C : Contract Db Edit Lock Label ε α} {p : Program Db Edit Lock Label ε α}
    {g : Progress Db Edit Lock Label} {s : Session Db} (h : p.Upholds C g)
    (hs : s.view = replayAll g.pending s.committed) (hg : ∀ e ∈ g.history, e.committed = s.committed) :
    (p.exec s).2.committed = s.committed ∨ ∃ g', C.always g' ∧ C.commits g' ∧
      (∀ e ∈ g'.history, e.committed = s.committed) ∧
      (p.exec s).2.committed = replayAll g'.pending s.committed := by
  induction p generalizing g s with
  | done r => exact Or.inl rfl
  | statement label run failed next ihf ihn =>
    have hdb := h.2 s.committed
    have hist : ∀ e ∈ (⟨label, s.committed, g.pending⟩ : Entry Db Edit Label) :: g.history,
        e.committed = s.committed := by
      intro e he
      rcases List.mem_cons.mp he with rfl | he
      · rfl
      · exact hg e he
    simp only [exec]
    rw [← hs] at hdb
    cases hrun : run s.view with
    | error e =>
      rw [hrun] at hdb
      exact ihf e hdb hs hist
    | ok o =>
      rw [hrun] at hdb
      exact ihn o.value (s := { s with view := replayAll o.edits s.view }) hdb
        (by simp only [Progress.ran, replayAll_append, hs]) hist
  | commit n ih =>
    refine Or.inr ⟨g, h.1, h.2.1, hg, ?_⟩
    exact (exec_committed_of_closed (s := { s with committed := s.view }) h.2.2 rfl).trans hs
  | rollback n ih => exact ih (s := { s with view := s.committed }) h.2 rfl hg

/-- A call that runs alone leaves the rows as they were, or commits once what its
contract describes, every statement having read the rows it started from. -/
theorem alone_upholds {C : Contract Db Edit Lock Label ε α} {p : Program Db Edit Lock Label ε α}
    (h : p.Upholds C Progress.start) (db : Db) :
    (p.alone db).2 = db ∨ ∃ g, C.always g ∧ C.commits g ∧ (∀ e ∈ g.history, e.committed = db) ∧
      (p.alone db).2 = replayAll g.pending db :=
  exec_upholds (s := ⟨db, db⟩) h rfl (by simp [Progress.start])

end Program

/-! ## Overlapping calls -/

namespace Call

def Upholds (C : Contract Db Edit Lock Label ε α) (c : Call Db Edit Lock Label ε α) : Prop :=
  c.program.Upholds C c.progress

theorem Upholds.advance {C : Contract Db Edit Lock Label ε α} {c c' : Call Db Edit Lock Label ε α}
    {free : List Lock → Bool} {db db' : Db} (hc : c.Upholds C)
    (h : c.advance free db = some (c', db')) :
    c'.Upholds C ∧ (c.committing = true → C.commits c.progress) := by
  obtain ⟨program, g⟩ := c
  cases program with
  | done r => cases h
  | statement label run failed next =>
    simp only [Call.advance] at h
    have hdb := hc.2 db
    refine ⟨?_, fun hf => Bool.noConfusion hf⟩
    cases hrun : run (replayAll g.pending db) with
    | error e =>
      rw [hrun] at h hdb
      cases h
      exact hdb
    | ok o =>
      rw [hrun] at h hdb
      dsimp only at h
      split at h
      · cases h
        exact hdb
      · cases h
  | commit next =>
    cases h
    exact ⟨Program.Upholds.of_closed hc.2.2, fun _ => hc.2.1⟩
  | rollback next =>
    cases h
    exact ⟨hc.2, fun hf => Bool.noConfusion hf⟩

end Call

structure Call.Confined (Q : Edit → Prop) (c : Call Db Edit Lock Label ε α) : Prop where
  program : c.program.Writes Q
  pending : ∀ e ∈ c.progress.pending, Q e

theorem Call.Confined.advance {Q : Edit → Prop} {c c' : Call Db Edit Lock Label ε α}
    {free : List Lock → Bool} {db db' : Db} (hc : c.Confined Q)
    (h : c.advance free db = some (c', db')) : c'.Confined Q := by
  obtain ⟨program, g⟩ := c
  obtain ⟨hprogram, hpending⟩ := hc
  cases program with
  | done r => cases h
  | statement label run failed next =>
    simp only [Call.advance] at h
    split at h
    · cases h
      exact ⟨hprogram.2.1 _, hpending⟩
    · rename_i o ho
      split at h
      · cases h
        refine ⟨hprogram.2.2 _, fun e he => ?_⟩
        rcases List.mem_append.mp he with he | he
        · exact hpending e he
        · exact hprogram.1 _ o ho e he
      · cases h
  | commit next =>
    cases h
    exact ⟨hprogram, List.forall_mem_nil _⟩
  | rollback next =>
    cases h
    exact ⟨hprogram, List.forall_mem_nil _⟩

namespace State

variable {conflict : Lock → Lock → Bool}

def Confined (Q : Edit → Prop) (s : State Db Edit Lock Label ε α) : Prop :=
  ∀ (i : Nat) (c : Call Db Edit Lock Label ε α), s.calls[i]? = some c → c.Confined Q

omit [Replay Db Edit] in
theorem confined_initial {Q : Edit → Prop} {db : Db}
    {programs : List (Program Db Edit Lock Label ε α)} (h : ∀ p ∈ programs, p.Writes Q) :
    (initial db programs).Confined Q := by
  intro i c hc
  simp only [initial, List.getElem?_map] at hc
  obtain ⟨p, hp, rfl⟩ := Option.map_eq_some_iff.mp hc
  exact ⟨h p (List.mem_of_getElem? hp), fun _ he => nomatch he⟩

theorem Confined.step {Q : Edit → Prop} {s t : State Db Edit Lock Label ε α} {i : Nat}
    (hs : s.Confined Q) (h : s.step conflict i = some t) : t.Confined Q := by
  obtain ⟨c, c', hc, ha, hcalls⟩ := step_cases h
  intro j d hd
  rcases call_cases hcalls hd with ⟨rfl, rfl⟩ | ⟨_, hd⟩
  · exact (hs j c hc).advance ha
  · exact hs j d hd

/-- What such edits keep of the rows, every step keeps of the committed rows. -/
theorem Confined.committed {Q : Edit → Prop} {R : Db → Prop} {s t : State Db Edit Lock Label ε α}
    {i : Nat} (hs : s.Confined Q) (hR : ∀ e db, Q e → R db → R (Replay.replay e db))
    (h : s.step conflict i = some t) (hdb : R s.committed) : R t.committed := by
  obtain ⟨c, c', hc, ha, hcalls⟩ := step_cases h
  rcases committed_of_advance ha with ⟨_, hsame⟩ | ⟨_, hreplayed⟩
  · rwa [hsame]
  · rw [hreplayed]
    exact Program.replayAll_keeps hR (hs i c hc).pending hdb

theorem Reaches.confined {Q : Edit → Prop} {ok : State Db Edit Lock Label ε α → Nat → Prop}
    {s t : State Db Edit Lock Label ε α} (h : Reaches conflict ok s t) (hs : s.Confined Q) :
    t.Confined Q := by
  induction h with
  | refl => exact hs
  | step _ _ hstep ih => exact ih.step hstep

def Upholds (C : Nat → Contract Db Edit Lock Label ε α) (s : State Db Edit Lock Label ε α) : Prop :=
  ∀ i (c : Call Db Edit Lock Label ε α), s.calls[i]? = some c → c.Upholds (C i)

theorem Upholds.step {C : Nat → Contract Db Edit Lock Label ε α} {s t : State Db Edit Lock Label ε α}
    {i : Nat} (hs : s.Upholds C) (h : s.step conflict i = some t) : t.Upholds C := by
  obtain ⟨c, c', hc, ha, hcalls⟩ := step_cases h
  intro j d hd
  rcases call_cases hcalls hd with ⟨rfl, rfl⟩ | ⟨_, hd⟩
  · exact ((hs j c hc).advance ha).1
  · exact hs j d hd

theorem Reaches.upholds {C : Nat → Contract Db Edit Lock Label ε α}
    {ok : State Db Edit Lock Label ε α → Nat → Prop} {s t : State Db Edit Lock Label ε α}
    (h : Reaches conflict ok s t) (hs : s.Upholds C) : t.Upholds C := by
  induction h with
  | refl => exact hs
  | step _ _ hstep ih => exact ih.step hstep

theorem upholds_initial {C : Nat → Contract Db Edit Lock Label ε α} {db : Db}
    {programs : List (Program Db Edit Lock Label ε α)}
    (h : ∀ i (p : Program Db Edit Lock Label ε α), programs[i]? = some p →
      p.Upholds (C i) Progress.start) : (initial db programs).Upholds C := by
  intro i c hc
  simp only [initial, List.getElem?_map] at hc
  obtain ⟨p, hp, rfl⟩ := Option.map_eq_some_iff.mp hc
  exact h i p hp

/-- A call of one of several operations commits what its own operation commits. -/
theorem upholds_initial_map {Op : Type} {ops : List Op} {program : Op → Program Db Edit Lock Label ε α}
    {Effect : Op → Progress Db Edit Lock Label → Prop} {db : Db}
    (h : ∀ op, (program op).Commits (Effect op) Progress.start) :
    (initial db (ops.map program)).Upholds fun i => {
      always := fun _ => True
      commits := fun g => ∃ op, ops[i]? = some op ∧ Effect op g
      returns := fun _ _ => True } := by
  apply upholds_initial
  intro i p hp
  rw [List.getElem?_map] at hp
  obtain ⟨op, hop, rfl⟩ := Option.map_eq_some_iff.mp hp
  exact Program.Upholds.weaken (h op) (fun _ h => h) (fun g _ h => ⟨op, hop, h⟩) fun _ _ _ h => h

/-- A step leaves the committed rows alone, or it is a commit that keeps its contract. -/
theorem Upholds.committed {C : Nat → Contract Db Edit Lock Label ε α}
    {s t : State Db Edit Lock Label ε α} {i : Nat} (hs : s.Upholds C)
    (h : s.step conflict i = some t) :
    t.committed = s.committed ∨ ∃ c, s.calls[i]? = some c ∧ c.committing = true ∧
      (C i).always c.progress ∧ (C i).commits c.progress ∧
      t.committed = replayAll c.progress.pending s.committed := by
  obtain ⟨c, c', hc, ha, _⟩ := step_cases h
  rcases committed_of_advance ha with ⟨_, hdb⟩ | ⟨hcommit, hdb⟩
  · exact Or.inl hdb
  · have hu := hs i c hc
    exact Or.inr ⟨c, hc, hcommit, Program.Upholds.always hu, (hu.advance ha).2 hcommit, hdb⟩

end State

end Transaction
