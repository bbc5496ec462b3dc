import Mathlib.Data.List.Basic

/-! # Transaction programs under READ COMMITTED

A client call is a program of statements. Each statement reads the committed
rows with the call's own uncommitted edits applied, and yields a value, edits
and row locks. Edits are data that are replayed on whatever is committed later,
so the same program has a meaning alone and in any interleaving. A statement
whose locks conflict with another open call is not enabled until that call ends.
-/

namespace Transaction
set_option autoImplicit false

variable {Db Edit Lock Label ε α β : Type}

class Replay (Db : Type) (Edit : outParam Type) where
  replay : Edit → Db → Db

def replayAll [Replay Db Edit] (edits : List Edit) (db : Db) : Db :=
  edits.foldl (fun d e => Replay.replay e d) db

@[simp] theorem replayAll_nil [Replay Db Edit] (db : Db) :
    replayAll ([] : List Edit) db = db := rfl

@[simp] theorem replayAll_cons [Replay Db Edit] (e : Edit) (es : List Edit) (db : Db) :
    replayAll (e :: es) db = replayAll es (Replay.replay e db) := rfl

theorem replayAll_append [Replay Db Edit] (es fs : List Edit) (db : Db) :
    replayAll (es ++ fs) db = replayAll fs (replayAll es db) :=
  List.foldl_append

structure Outcome (Edit Lock β : Type) where
  value : β
  edits : List Edit := []
  locks : List Lock := []

/-- `failed` is what the caller does with a statement's error: a plain statement
raises it, a `try` block around it continues with its handler. -/
inductive Program (Db Edit Lock Label ε α : Type) : Type 1 where
  | done (result : Except ε α)
  | statement {β : Type} (label : Label) (run : Db → Except ε (Outcome Edit Lock β))
      (failed : ε → Program Db Edit Lock Label ε α) (next : β → Program Db Edit Lock Label ε α)
  | commit (next : Program Db Edit Lock Label ε α)
  | rollback (next : Program Db Edit Lock Label ε α)

namespace Program

def bind : Program Db Edit Lock Label ε α → (α → Program Db Edit Lock Label ε β) →
    Program Db Edit Lock Label ε β
  | done (.ok a), k => k a
  | done (.error e), _ => done (.error e)
  | statement l s f n, k => statement l s (fun e => (f e).bind k) (fun b => (n b).bind k)
  | commit n, k => commit (n.bind k)
  | rollback n, k => rollback (n.bind k)

instance : Monad (Program Db Edit Lock Label ε) where
  pure a := done (.ok a)
  bind := bind

theorem bind_assoc {γ : Type} (p : Program Db Edit Lock Label ε α)
    (k : α → Program Db Edit Lock Label ε β) (l : β → Program Db Edit Lock Label ε γ) :
    (p >>= k) >>= l = p >>= fun a => k a >>= l := by
  change (p.bind k).bind l = p.bind fun a => (k a).bind l
  induction p with
  | done r => cases r <;> rfl
  | statement label run failed next ihf ihn =>
    simp only [bind]
    exact congrArg₂ (statement label run) (funext ihf) (funext ihn)
  | commit n ih => exact congrArg commit ih
  | rollback n ih => exact congrArg rollback ih

theorem pure_bind (a : α) (k : α → Program Db Edit Lock Label ε β) : pure a >>= k = k a := rfl

def raise (e : ε) : Program Db Edit Lock Label ε α := done (.error e)

def execute (label : Label) (run : Db → Except ε (Outcome Edit Lock β)) :
    Program Db Edit Lock Label ε β :=
  statement label run raise pure

def query (label : Label) (read : Db → Except ε β) : Program Db Edit Lock Label ε β :=
  execute label fun db => (read db).map fun b => { value := b }

def commitNow : Program Db Edit Lock Label ε Unit := commit (done (.ok ()))

def rollbackNow : Program Db Edit Lock Label ε Unit := rollback (done (.ok ()))

/-- `try ... except`: every way of raising continues with the handler. -/
def attempt (handler : ε → Program Db Edit Lock Label ε α) :
    Program Db Edit Lock Label ε α → Program Db Edit Lock Label ε α
  | done (.ok a) => done (.ok a)
  | done (.error e) => handler e
  | statement l s f n => statement l s (fun e => attempt handler (f e)) (fun b => attempt handler (n b))
  | commit n => commit (attempt handler n)
  | rollback n => rollback (attempt handler n)

def each {γ : Type} (body : γ → Program Db Edit Lock Label ε Unit) :
    List γ → Program Db Edit Lock Label ε Unit
  | [] => pure ()
  | x :: xs => do
    body x
    each body xs

end Program

/-! ## One call at a time -/

structure Session (Db : Type) where
  committed : Db
  view : Db

namespace Program

def exec [Replay Db Edit] : Program Db Edit Lock Label ε α → Session Db → Except ε α × Session Db
  | done r, s => (r, s)
  | statement _ run failed next, s =>
    match run s.view with
    | .error e => (failed e).exec s
    | .ok o => (next o.value).exec { s with view := replayAll o.edits s.view }
  | commit n, s => n.exec { s with committed := s.view }
  | rollback n, s => n.exec { s with view := s.committed }

/-- The result of a call that nothing overlaps, and the rows it leaves committed. -/
def alone [Replay Db Edit] (p : Program Db Edit Lock Label ε α) (db : Db) : Except ε α × Db :=
  let r := p.exec ⟨db, db⟩
  (r.1, r.2.committed)

variable [Replay Db Edit]

theorem exec_bind (p : Program Db Edit Lock Label ε α) (k : α → Program Db Edit Lock Label ε β)
    (s : Session Db) :
    (p >>= k).exec s = match p.exec s with
      | (.ok a, t) => (k a).exec t
      | (.error e, t) => (.error e, t) := by
  induction p generalizing s with
  | done r => cases r <;> rfl
  | statement l run f n ihf ihn =>
    change (statement l run (fun e => (f e).bind k) (fun b => (n b).bind k)).exec s = _
    simp only [exec]
    cases run s.view with
    | error e => exact ihf e s
    | ok o => exact ihn o.value _
  | commit n ih => exact ih _
  | rollback n ih => exact ih _

@[simp] theorem exec_pure (a : α) (s : Session Db) :
    (pure a : Program Db Edit Lock Label ε α).exec s = (.ok a, s) := rfl

@[simp] theorem exec_raise (e : ε) (s : Session Db) :
    (raise e : Program Db Edit Lock Label ε α).exec s = (.error e, s) := rfl

theorem exec_execute (label : Label) (run : Db → Except ε (Outcome Edit Lock β)) (s : Session Db) :
    (execute label run).exec s = match run s.view with
      | .error e => (.error e, s)
      | .ok o => (.ok o.value, { s with view := replayAll o.edits s.view }) := by
  simp only [execute, exec]
  cases run s.view <;> rfl

theorem exec_query (label : Label) (read : Db → Except ε β) (s : Session Db) :
    (query label read : Program Db Edit Lock Label ε β).exec s = (read s.view, s) := by
  rw [query, exec_execute]
  cases read s.view <;> rfl

@[simp] theorem exec_commitNow (s : Session Db) :
    (commitNow : Program Db Edit Lock Label ε Unit).exec s = (.ok (), ⟨s.view, s.view⟩) := rfl

@[simp] theorem exec_rollbackNow (s : Session Db) :
    (rollbackNow : Program Db Edit Lock Label ε Unit).exec s = (.ok (), ⟨s.committed, s.committed⟩) := rfl

/-! ### Successful runs -/

theorem exec_bind_ok {p : Program Db Edit Lock Label ε α} {k : α → Program Db Edit Lock Label ε β}
    {s t : Session Db} {b : β} (h : (p >>= k).exec s = (.ok b, t)) :
    ∃ a m, p.exec s = (.ok a, m) ∧ (k a).exec m = (.ok b, t) := by
  rw [exec_bind] at h
  cases hp : p.exec s with
  | mk r m =>
    rw [hp] at h
    cases r with
    | ok a => exact ⟨a, m, rfl, h⟩
    | error e => cases h

theorem exec_bind_of_ok {p : Program Db Edit Lock Label ε α}
    {k : α → Program Db Edit Lock Label ε β} {s t : Session Db} {a : α}
    (h : p.exec s = (.ok a, t)) : (p >>= k).exec s = (k a).exec t := by
  rw [exec_bind, h]

theorem exec_bind_of_error {p : Program Db Edit Lock Label ε α}
    {k : α → Program Db Edit Lock Label ε β} {s t : Session Db} {e : ε}
    (h : p.exec s = (.error e, t)) : (p >>= k).exec s = (.error e, t) := by
  rw [exec_bind, h]

theorem exec_bind_pure (p : Program Db Edit Lock Label ε α) (f : α → β) (s : Session Db) :
    (p >>= fun a => pure (f a)).exec s = ((p.exec s).1.map f, (p.exec s).2) := by
  rw [exec_bind]
  cases p.exec s with
  | mk r t => cases r <;> rfl

theorem exec_done_ok {r : Except ε α} {s t : Session Db} {a : α}
    (h : (done r : Program Db Edit Lock Label ε α).exec s = (.ok a, t)) : r = .ok a ∧ t = s :=
  ⟨congrArg Prod.fst h, (congrArg Prod.snd h).symm⟩

theorem exec_execute_ok {label : Label} {run : Db → Except ε (Outcome Edit Lock β)}
    {s t : Session Db} {b : β} (h : (execute label run).exec s = (.ok b, t)) :
    ∃ o, run s.view = .ok o ∧ o.value = b ∧ t = { s with view := replayAll o.edits s.view } := by
  rw [exec_execute] at h
  cases hrun : run s.view with
  | error e =>
    rw [hrun] at h
    cases h
  | ok o =>
    rw [hrun] at h
    cases h
    exact ⟨o, rfl, rfl, rfl⟩

theorem exec_query_ok {label : Label} {read : Db → Except ε β} {s t : Session Db} {b : β}
    (h : (query label read : Program Db Edit Lock Label ε β).exec s = (.ok b, t)) :
    read s.view = .ok b ∧ t = s := by
  rw [exec_query] at h
  exact ⟨congrArg Prod.fst h, (congrArg Prod.snd h).symm⟩

theorem exec_bind_ok_iff {p : Program Db Edit Lock Label ε α}
    {k : α → Program Db Edit Lock Label ε β} {s t : Session Db} {b : β} :
    (p >>= k).exec s = (.ok b, t) ↔
      ∃ a m, p.exec s = (.ok a, m) ∧ (k a).exec m = (.ok b, t) := by
  constructor
  · exact exec_bind_ok
  · rintro ⟨a, m, hp, hk⟩
    rw [exec_bind, hp]
    exact hk

theorem exec_attempt (handler : ε → Program Db Edit Lock Label ε α)
    (p : Program Db Edit Lock Label ε α) (s : Session Db) :
    (attempt handler p).exec s = match p.exec s with
      | (.ok a, t) => (.ok a, t)
      | (.error e, t) => (handler e).exec t := by
  induction p generalizing s with
  | done r => cases r <;> rfl
  | statement l run f n ihf ihn =>
    simp only [attempt, exec]
    cases run s.view with
    | error e => exact ihf e s
    | ok o => exact ihn o.value _
  | commit n ih => exact ih _
  | rollback n ih => exact ih _

/-- A loop whose rounds change nothing. -/
theorem exec_each_same {γ : Type} {body : γ → Program Db Edit Lock Label ε Unit} {xs : List γ}
    {s : Session Db} (h : ∀ x ∈ xs, (body x).exec s = (.ok (), s)) :
    (each body xs).exec s = (.ok (), s) := by
  induction xs with
  | nil => rfl
  | cons x xs ih =>
    unfold each
    rw [exec_bind, h x List.mem_cons_self]
    exact ih fun y hy => h y (List.mem_cons_of_mem x hy)

/-- A loop that ends well keeps an invariant of the elements it has gone through. -/
theorem exec_each_ok {γ : Type} {body : γ → Program Db Edit Lock Label ε Unit}
    (inv : List γ → Session Db → Prop) {xs : List γ} {s t : Session Db} {u : Unit}
    (hbody : ∀ seen x rest, seen ++ x :: rest = xs → ∀ s t, inv seen s →
      (body x).exec s = (.ok (), t) → inv (seen ++ [x]) t)
    (h : (each body xs).exec s = (.ok u, t)) (hs : inv [] s) : inv xs t := by
  have loop : ∀ ys seen s, seen ++ ys = xs → inv seen s → (each body ys).exec s = (.ok u, t) →
      inv xs t := by
    intro ys
    induction ys with
    | nil =>
      intro seen s hsplit hseen h
      cases h
      rwa [← hsplit, List.append_nil]
    | cons y ys ih =>
      intro seen s hsplit hseen h
      obtain ⟨_, m, hy, hys⟩ := exec_bind_ok h
      have hnext : (seen ++ [y]) ++ ys = xs := by
        rw [List.append_assoc, List.singleton_append, hsplit]
      exact ih (seen ++ [y]) m hnext (hbody seen y ys hsplit s m hseen hy) hys
  exact loop xs [] s rfl hs h

end Program

/-! ## Overlapping calls -/

/-- A statement that ran: what was committed and what was pending at that moment. -/
structure Entry (Db Edit Label : Type) where
  label : Label
  committed : Db
  pending : List Edit

def Entry.view [Replay Db Edit] (e : Entry Db Edit Label) : Db := replayAll e.pending e.committed

/-- What a call has done so far; the latest statement comes first in the history. -/
structure Progress (Db Edit Lock Label : Type) where
  history : List (Entry Db Edit Label)
  pending : List Edit
  locks : List Lock

namespace Progress

def start : Progress Db Edit Lock Label := ⟨[], [], []⟩

def failed (g : Progress Db Edit Lock Label) (label : Label) (db : Db) :
    Progress Db Edit Lock Label :=
  { g with history := ⟨label, db, g.pending⟩ :: g.history }

def ran (g : Progress Db Edit Lock Label) (label : Label) (db : Db) (o : Outcome Edit Lock β) :
    Progress Db Edit Lock Label where
  history := ⟨label, db, g.pending⟩ :: g.history
  pending := g.pending ++ o.edits
  locks := o.locks ++ g.locks

/-- Commit and rollback both end the transaction and release its locks. -/
def ended (g : Progress Db Edit Lock Label) : Progress Db Edit Lock Label :=
  { g with pending := [], locks := [] }

end Progress

structure Call (Db Edit Lock Label ε α : Type) where
  program : Program Db Edit Lock Label ε α
  progress : Progress Db Edit Lock Label

namespace Call

def begin (p : Program Db Edit Lock Label ε α) : Call Db Edit Lock Label ε α := ⟨p, Progress.start⟩

/-- Returning or raising closes the session, which releases whatever it held. -/
def held (c : Call Db Edit Lock Label ε α) : List Lock :=
  match c.program with
  | .done _ => []
  | _ => c.progress.locks

def committing (c : Call Db Edit Lock Label ε α) : Bool :=
  match c.program with
  | .commit _ => true
  | _ => false

def finished (c : Call Db Edit Lock Label ε α) : Bool :=
  match c.program with
  | .done _ => true
  | _ => false

def advance [Replay Db Edit] (free : List Lock → Bool) (db : Db) (c : Call Db Edit Lock Label ε α) :
    Option (Call Db Edit Lock Label ε α × Db) :=
  match c.program with
  | .done _ => none
  | .statement label run failed next =>
    match run (replayAll c.progress.pending db) with
    | .error e => some (⟨failed e, c.progress.failed label db⟩, db)
    | .ok o =>
      if free o.locks then some (⟨next o.value, c.progress.ran label db o⟩, db) else none
  | .commit next => some (⟨next, c.progress.ended⟩, replayAll c.progress.pending db)
  | .rollback next => some (⟨next, c.progress.ended⟩, db)

end Call

structure State (Db Edit Lock Label ε α : Type) where
  committed : Db
  calls : List (Call Db Edit Lock Label ε α)

namespace State

variable [Replay Db Edit]

def initial (db : Db) (programs : List (Program Db Edit Lock Label ε α)) :
    State Db Edit Lock Label ε α :=
  ⟨db, programs.map Call.begin⟩

def free (conflict : Lock → Lock → Bool) (s : State Db Edit Lock Label ε α) (i : Nat)
    (locks : List Lock) : Bool :=
  locks.all fun l => ((s.calls.eraseIdx i).flatMap Call.held).all fun k => !conflict l k

def step (conflict : Lock → Lock → Bool) (s : State Db Edit Lock Label ε α) (i : Nat) :
    Option (State Db Edit Lock Label ε α) :=
  match s.calls[i]? with
  | none => none
  | some c =>
    match c.advance (s.free conflict i) s.committed with
    | none => none
    | some (c', db) => some ⟨db, s.calls.set i c'⟩

def run (conflict : Lock → Lock → Bool) (s : State Db Edit Lock Label ε α) :
    List Nat → Option (State Db Edit Lock Label ε α)
  | [] => some s
  | i :: is => (s.step conflict i).bind fun t => t.run conflict is

/-- The states that runs reach whose every step meets `ok` in the state before it. -/
inductive Reaches (conflict : Lock → Lock → Bool) (ok : State Db Edit Lock Label ε α → Nat → Prop)
    (s : State Db Edit Lock Label ε α) : State Db Edit Lock Label ε α → Prop
  | refl : Reaches conflict ok s s
  | step {t u : State Db Edit Lock Label ε α} {i : Nat} : Reaches conflict ok s t → ok t i →
      t.step conflict i = some u → Reaches conflict ok s u

variable {conflict : Lock → Lock → Bool}

theorem Reaches.trans {ok : State Db Edit Lock Label ε α → Nat → Prop}
    {s t u : State Db Edit Lock Label ε α} (h : Reaches conflict ok s t)
    (k : Reaches conflict ok t u) : Reaches conflict ok s u := by
  induction k with
  | refl => exact h
  | step _ hok hs ih => exact ih.step hok hs

def Meets (conflict : Lock → Lock → Bool) (ok : State Db Edit Lock Label ε α → Nat → Prop)
    (s : State Db Edit Lock Label ε α) : List Nat → Prop
  | [] => True
  | i :: is => ok s i ∧ ∀ t ∈ s.step conflict i, t.Meets conflict ok is

instance decidableMeets {ok : State Db Edit Lock Label ε α → Nat → Prop}
    [∀ s i, Decidable (ok s i)] (s : State Db Edit Lock Label ε α) :
    ∀ schedule, Decidable (s.Meets conflict ok schedule)
  | [] => isTrue trivial
  | i :: is =>
    have : ∀ t, Decidable (Meets conflict ok t is) := fun t => decidableMeets t is
    inferInstanceAs (Decidable (ok s i ∧ ∀ t ∈ s.step conflict i, t.Meets conflict ok is))

theorem meets_true (s : State Db Edit Lock Label ε α) (schedule : List Nat) :
    s.Meets conflict (fun _ _ => True) schedule := by
  induction schedule generalizing s with
  | nil => trivial
  | cons i is ih => exact ⟨trivial, fun t _ => ih t⟩

theorem Meets.weaken {ok ok' : State Db Edit Lock Label ε α → Nat → Prop}
    (hweaker : ∀ s i, ok s i → ok' s i) {s : State Db Edit Lock Label ε α} {schedule : List Nat}
    (h : s.Meets conflict ok schedule) : s.Meets conflict ok' schedule := by
  induction schedule generalizing s with
  | nil => trivial
  | cons i is ih => exact ⟨hweaker s i h.1, fun t ht => ih (h.2 t ht)⟩

theorem reaches_of_run {ok : State Db Edit Lock Label ε α → Nat → Prop}
    {s t : State Db Edit Lock Label ε α} {schedule rest : List Nat}
    (hok : s.Meets conflict ok (schedule ++ rest)) (h : s.run conflict schedule = some t) :
    Reaches conflict ok s t ∧ t.Meets conflict ok rest := by
  induction schedule generalizing s with
  | nil =>
    rw [← Option.some.inj h]
    exact ⟨.refl, hok⟩
  | cons i is ih =>
    obtain ⟨u, hu, ht⟩ := Option.bind_eq_some_iff.mp h
    obtain ⟨hreach, hrest⟩ := ih (hok.2 u hu) ht
    exact ⟨(Reaches.refl.step hok.1 hu).trans hreach, hrest⟩

/-- A schedule after which one more step has a property of the committed rows. -/
theorem exists_step_of_run {ok : State Db Edit Lock Label ε α → Nat → Prop}
    {s : State Db Edit Lock Label ε α} {schedule : List Nat} {i : Nat} {P : Db → Db → Bool}
    (hok : s.Meets conflict ok (schedule ++ [i])) (h : ((s.run conflict schedule).bind fun t =>
      (t.step conflict i).map fun u => P t.committed u.committed) = some true) :
    ∃ t u, Reaches conflict ok s t ∧ ok t i ∧ t.step conflict i = some u ∧
      P t.committed u.committed = true := by
  obtain ⟨t, ht, hstep⟩ := Option.bind_eq_some_iff.mp h
  obtain ⟨u, hu, hP⟩ := Option.map_eq_some_iff.mp hstep
  obtain ⟨hreach, hlast⟩ := reaches_of_run hok ht
  exact ⟨t, u, hreach, hlast.1, hu, hP⟩

/-- Everything one step can do: the call at the index advances, the others stay. -/
theorem step_cases {s t : State Db Edit Lock Label ε α} {i : Nat} (h : s.step conflict i = some t) :
    ∃ c c', s.calls[i]? = some c ∧
      c.advance (s.free conflict i) s.committed = some (c', t.committed) ∧
      t.calls = s.calls.set i c' := by
  unfold step at h
  split at h
  · cases h
  · rename_i c hc
    split at h
    · cases h
    · rename_i c' db ha
      cases h
      exact ⟨c, c', hc, ha, rfl⟩

omit [Replay Db Edit] in
/-- A call after a step is the one that advanced, or it was there before. -/
theorem call_cases {s t : State Db Edit Lock Label ε α} {i j : Nat} {c' d : Call Db Edit Lock Label ε α}
    (h : t.calls = s.calls.set i c') (hd : t.calls[j]? = some d) :
    (j = i ∧ d = c') ∨ (j ≠ i ∧ s.calls[j]? = some d) := by
  rw [h, List.getElem?_set] at hd
  split at hd
  · rename_i hij
    split at hd
    · exact Or.inl ⟨hij.symm, (Option.some.inj hd).symm⟩
    · cases hd
  · rename_i hij
    exact Or.inr ⟨fun hji => hij hji.symm, hd⟩

omit [Replay Db Edit] in
/-- A call before a step is there afterwards, unless it is the one that advanced. -/
theorem call_after {s t : State Db Edit Lock Label ε α} {i j : Nat} {c' d : Call Db Edit Lock Label ε α}
    (h : t.calls = s.calls.set i c') (hd : s.calls[j]? = some d) :
    (j = i ∧ t.calls[j]? = some c') ∨ (j ≠ i ∧ t.calls[j]? = some d) := by
  rw [h, List.getElem?_set]
  have hlen := (List.getElem?_eq_some_iff.mp hd).1
  by_cases hij : i = j
  · subst hij
    exact Or.inl ⟨rfl, by simp [hlen]⟩
  · exact Or.inr ⟨Ne.symm hij, by simp [hij, hd]⟩

omit [Replay Db Edit] in
theorem not_conflict_of_free {s : State Db Edit Lock Label ε α} {i j : Nat} {locks : List Lock}
    {d : Call Db Edit Lock Label ε α} (h : s.free conflict i locks = true) (hij : j ≠ i)
    (hd : s.calls[j]? = some d) : ∀ l ∈ locks, ∀ k ∈ d.held, conflict l k = false := by
  intro l hl k hk
  have hother : d ∈ s.calls.eraseIdx i := List.mem_eraseIdx_iff_getElem?.mpr ⟨j, hij, hd⟩
  have hall := List.all_eq_true.mp (List.all_eq_true.mp h l hl) k
    (List.mem_flatMap.mpr ⟨d, hother, hk⟩)
  simpa using hall

/-- Only a commit changes the committed rows, and it replays the call's own edits. -/
theorem committed_of_advance {c c' : Call Db Edit Lock Label ε α} {free : List Lock → Bool}
    {db db' : Db} (h : c.advance free db = some (c', db')) :
    (c.committing = false ∧ db' = db) ∨
      (c.committing = true ∧ db' = replayAll c.progress.pending db) := by
  obtain ⟨program, g⟩ := c
  cases program with
  | done r => cases h
  | statement label run failed next =>
    simp only [Call.advance] at h
    split at h
    · cases h
      exact Or.inl ⟨rfl, rfl⟩
    · split at h
      · cases h
        exact Or.inl ⟨rfl, rfl⟩
      · cases h
  | commit next =>
    cases h
    exact Or.inr ⟨rfl, rfl⟩
  | rollback next =>
    cases h
    exact Or.inl ⟨rfl, rfl⟩

end State

end Transaction
