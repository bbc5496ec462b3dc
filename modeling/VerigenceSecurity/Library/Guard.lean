import VerigenceSecurity.Library.RelyGuarantee

/-! # What a lock guards

A lock guards a part of the rows when only those who hold it change that part. Whoever
holds it finds what it guards as it was at the previous statement, so what was read
under the lock is still true at the commit.
-/

namespace Transaction
set_option autoImplicit false

variable {Db Edit Lock Label ε α β : Type} [Replay Db Edit]

/-- A lock, and what is only to be changed by those who hold it. -/
structure Guard (Db Lock A : Type) where
  lock : Lock
  observe : Db → A

namespace Guard

variable {A : Type} {conflict : Lock → Lock → Bool}

/-- A call that holds the lock finds what it guards as at its previous statement. -/
def Current (G : Guard Db Lock A) (g : Progress Db Edit Lock Label) (db : Db) : Prop :=
  G.lock ∈ g.locks → ∀ e ∈ g.history.head?, G.observe e.committed = G.observe db

/-- Pending edits leave what is guarded alone, or the lock is held. -/
def Covers (G : Guard Db Lock A) (g : Progress Db Edit Lock Label) : Prop :=
  (∀ db, G.observe (replayAll g.pending db) = G.observe db) ∨ G.lock ∈ g.locks

theorem covers_start (G : Guard Db Lock A) : G.Covers (Progress.start : Progress Db Edit Lock Label) :=
  Or.inl fun _ => rfl

theorem covers_ended (G : Guard Db Lock A) (g : Progress Db Edit Lock Label) : G.Covers g.ended :=
  Or.inl fun _ => rfl

def Found (G : Guard Db Lock A) (g : Progress Db Edit Lock Label) (a : A) : Prop :=
  G.lock ∈ g.locks ∧ ∃ e ∈ g.history.head?, G.observe e.committed = a

section Found

omit [Replay Db Edit]

variable {G : Guard Db Lock A} {g : Progress Db Edit Lock Label} {a : A} {db : Db}

theorem found_ran {label : Label} {o : Outcome Edit Lock β} (h : G.lock ∈ o.locks) :
    G.Found (g.ran label db o) (G.observe db) :=
  ⟨List.mem_append_left _ h, _, rfl, rfl⟩

theorem Found.observe_eq (h : G.Found g a) (hdb : G.Current g db) : G.observe db = a := by
  obtain ⟨hlock, e, he, ha⟩ := h
  rw [← ha]
  exact (hdb hlock e he).symm

theorem Found.ran (h : G.Found g a) (hdb : G.Current g db) (label : Label) (o : Outcome Edit Lock β) :
    G.Found (g.ran label db o) a :=
  ⟨List.mem_append_right _ h.1, _, rfl, h.observe_eq hdb⟩

theorem Found.failed (h : G.Found g a) (hdb : G.Current g db) (label : Label) :
    G.Found (g.failed label db) a :=
  ⟨h.1, _, rfl, h.observe_eq hdb⟩

end Found

theorem Found.covers {G : Guard Db Lock A} {g : Progress Db Edit Lock Label} {a : A}
    (h : G.Found g a) : G.Covers g := Or.inr h.1

/-- A part of a transaction that runs while the lock is held. -/
theorem Found.keeps_within_bind {G : Guard Db Lock A} {a : A} {T : Terms Db Edit Lock Label ε β}
    {p : Program Db Edit Lock Label ε α} {k : α → Program Db Edit Lock Label ε β} {n : Nat}
    {g : Progress Db Edit Lock Label} {Q : Edit → Prop} {L : Label → Prop} (h : G.Found g a)
    (hp : p.Within Q) (hl : p.Only L) (hrely : ∀ g' db, T.rely n g' db → G.Current g' db)
    (halways : ∀ es g', G.Found g' a → g.Adds L es g' → (∀ e ∈ es, Q e) → T.always n g')
    (hk : ∀ b es g', G.Found g' a → g.Adds L es g' → (∀ e ∈ es, Q e) → (k b).Keeps T n g')
    (herr : ∀ e es g', G.Found g' a → g.Adds L es g' → (∀ e ∈ es, Q e) → T.returns (.error e) n g') :
    (p >>= k).Keeps T n g :=
  Program.keeps_within_bind (fun g' => G.Found g' a) hp hl h
    (fun g' db label o hfound hdb => hfound.ran (hrely g' db hdb) label o) halways hk herr

/-- What the lock guards stays as it is for those who hold it. -/
theorem current_step {G : Guard Db Lock A} (hself : conflict G.lock G.lock = true)
    {s t : State Db Edit Lock Label ε α} {i : Nat} (hexclusive : s.Exclusive conflict)
    (hcovers : ∀ c : Call Db Edit Lock Label ε α, s.calls[i]? = some c → G.Covers c.progress)
    (hs : ∀ (j : Nat) (c : Call Db Edit Lock Label ε α), s.calls[j]? = some c →
      c.finished = false → G.Current c.progress s.committed)
    (h : s.step conflict i = some t) : ∀ (j : Nat) (c : Call Db Edit Lock Label ε α),
      t.calls[j]? = some c → c.finished = false → G.Current c.progress t.committed := by
  obtain ⟨c, c', hc, ha, hcalls⟩ := State.step_cases h
  intro j d hd hunfinished hlock e he
  rcases State.call_cases hcalls hd with ⟨rfl, rfl⟩ | ⟨hji, hd⟩
  · rcases Call.progress_of_advance ha with hended | ⟨hdb, hhead⟩
    · rw [hended] at hlock
      cases hlock
    · rw [hdb, hhead e he]
  · have hbefore := hs j d hd hunfinished hlock e he
    rcases State.committed_of_advance ha with ⟨_, hdb⟩ | ⟨hcommit, hdb⟩
    · rw [hdb]
      exact hbefore
    · rw [hdb]
      rcases hcovers c hc with hsame | hheld
      · rw [hsame]
        exact hbefore
      · -- Both calls would hold the lock.
        have hunfinished' := Call.unfinished_of_committing hcommit
        have hno := hexclusive j i d c hji hd hc G.lock
          (by rwa [Call.held_of_unfinished hunfinished]) G.lock
          (by rwa [Call.held_of_unfinished hunfinished'])
        rw [hself] at hno
        cases hno

/-- What holds throughout a run whose calls cover what the lock guards; the invariant is one
of the committed rows and of the commits so far. -/
structure Kept (G : Guard Db Lock A) (T : Nat → Terms Db Edit Lock Label ε α)
    (inv : List Nat → Db → Prop) (conflict : Lock → Lock → Bool) (order : List Nat)
    (s : State Db Edit Lock Label ε α) : Prop where
  keeps : s.Keeps T order
  holds : inv order s.committed
  exclusive : s.Exclusive conflict
  current : ∀ (j : Nat) (c : Call Db Edit Lock Label ε α), s.calls[j]? = some c →
    c.finished = false → G.Current c.progress s.committed

section Kept

variable {G : Guard Db Lock A} {T : Nat → Terms Db Edit Lock Label ε α}
  {inv : List Nat → Db → Prop}

theorem Kept.relies {order : List Nat} {s : State Db Edit Lock Label ε α} {i : Nat}
    (hrely : ∀ order db i g, inv order db → G.Current g db → (T i).rely (order.count i) g db)
    (hs : G.Kept T inv conflict order s) : ∀ c : Call Db Edit Lock Label ε α,
      s.calls[i]? = some c → c.finished = false → (T i).rely (order.count i) c.progress s.committed :=
  fun c hc hunfinished => hrely order _ i _ hs.holds (hs.current i c hc hunfinished)

theorem Kept.step (hcomm : ∀ l k, conflict l k = conflict k l) (hself : conflict G.lock G.lock = true)
    (halways : ∀ i n g, (T i).always n g → G.Covers g)
    (hrely : ∀ order db i g, inv order db → G.Current g db → (T i).rely (order.count i) g db)
    (hcommit : ∀ order db i g, inv order db → (T i).commits (order.count i) g db →
      inv (order ++ [i]) (replayAll g.pending db))
    {order : List Nat} {s t : State Db Edit Lock Label ε α} {i : Nat}
    (hs : G.Kept T inv conflict order s) (h : s.step conflict i = some t) :
    G.Kept T inv conflict (s.orderAfter i order) t where
  keeps := hs.keeps.step (hs.relies hrely) h
  holds := by
    unfold State.orderAfter
    rcases hs.keeps.committed (hs.relies hrely) h with ⟨hno, hdb⟩ | ⟨c, _, hyes, _, _, hc, hdb⟩
    · rw [hno, hdb]
      simpa using hs.holds
    · rw [hyes, hdb]
      exact hcommit order _ i c.progress hs.holds hc
  exclusive := hs.exclusive.step hcomm h
  current := current_step hself hs.exclusive
    (fun c hc => halways i _ _ (hs.keeps i c hc).always) hs.current h

theorem kept_initial {db : Db} {programs : List (Program Db Edit Lock Label ε α)}
    (hT : ∀ i (p : Program Db Edit Lock Label ε α), programs[i]? = some p →
      p.Keeps (T i) 0 Progress.start) (hinv : inv [] db) :
    G.Kept T inv conflict [] (State.initial db programs) where
  keeps := State.keeps_initial hT
  holds := hinv
  exclusive := State.exclusive_initial db programs
  current := by
    intro j c hc _ hlock
    simp only [State.initial, List.getElem?_map] at hc
    obtain ⟨p, _, rfl⟩ := Option.map_eq_some_iff.mp hc
    cases hlock

theorem Kept.run (hcomm : ∀ l k, conflict l k = conflict k l) (hself : conflict G.lock G.lock = true)
    (halways : ∀ i n g, (T i).always n g → G.Covers g)
    (hrely : ∀ order db i g, inv order db → G.Current g db → (T i).rely (order.count i) g db)
    (hcommit : ∀ order db i g, inv order db → (T i).commits (order.count i) g db →
      inv (order ++ [i]) (replayAll g.pending db))
    {order : List Nat} {s t : State Db Edit Lock Label ε α} {schedule : List Nat}
    (hs : G.Kept T inv conflict order s) (hrun : s.run conflict schedule = some t) :
    G.Kept T inv conflict (order ++ s.commitOrder conflict schedule) t :=
  State.invariant_of_run (fun _ _ _ _ hs => hs.step hcomm hself halways hrely hcommit) hs hrun

end Kept

end Guard

end Transaction
