import VerigenceSecurity.Library.LockQueue
import Mathlib.Order.Lattice

/-! # Locks taken in one order

A lock may have a rank. Where every call takes its ranked locks in ascending order, a
call in a circle of waiting calls would wait for a rank below one that it holds.
-/

namespace Transaction
set_option autoImplicit false

variable {Db Edit Lock Label ε α β γ κ : Type}

namespace Program

/-! ## Programs that lock only some things -/

def LocksOnly (Q : Lock → Prop) : Program Db Edit Lock Label ε α → Prop
  | done _ => True
  | statement _ run failed next =>
    (∀ db o, run db = .ok o → ∀ l ∈ o.locks, Q l) ∧ (∀ e, (failed e).LocksOnly Q) ∧
      ∀ b, (next b).LocksOnly Q
  | commit n => n.LocksOnly Q
  | rollback n => n.LocksOnly Q

section LocksOnly

variable {Q : Lock → Prop}

@[simp] theorem locksOnly_pure (a : α) :
    (pure a : Program Db Edit Lock Label ε α).LocksOnly Q := trivial

@[simp] theorem locksOnly_raise (e : ε) :
    (raise e : Program Db Edit Lock Label ε α).LocksOnly Q := trivial

@[simp] theorem locksOnly_done (r : Except ε α) :
    (done r : Program Db Edit Lock Label ε α).LocksOnly Q := trivial

@[simp] theorem locksOnly_commitNow :
    (commitNow : Program Db Edit Lock Label ε Unit).LocksOnly Q := trivial

@[simp] theorem locksOnly_rollbackNow :
    (rollbackNow : Program Db Edit Lock Label ε Unit).LocksOnly Q := trivial

theorem locksOnly_execute {label : Label} {run : Db → Except ε (Outcome Edit Lock β)}
    (h : ∀ db o, run db = .ok o → ∀ l ∈ o.locks, Q l) : (execute label run).LocksOnly Q :=
  ⟨h, fun _ => trivial, fun _ => trivial⟩

@[simp] theorem locksOnly_query {label : Label} {read : Db → Except ε β} :
    (query label read : Program Db Edit Lock Label ε β).LocksOnly Q := by
  apply locksOnly_execute
  intro db o ho l hl
  cases hread : read db with
  | error e =>
    rw [hread] at ho
    cases ho
  | ok b =>
    rw [hread] at ho
    cases ho
    cases hl

theorem locksOnly_bind {p : Program Db Edit Lock Label ε α} {k : α → Program Db Edit Lock Label ε β}
    (hp : p.LocksOnly Q) (hk : ∀ a, (k a).LocksOnly Q) : (p >>= k).LocksOnly Q := by
  induction p with
  | done r =>
    cases r with
    | ok a => exact hk a
    | error e => trivial
  | statement label run failed next ihf ihn =>
    exact ⟨hp.1, fun e => ihf e (hp.2.1 e), fun b => ihn b (hp.2.2 b)⟩
  | commit n ih => exact ih hp
  | rollback n ih => exact ih hp

theorem locksOnly_attempt {handler : ε → Program Db Edit Lock Label ε α}
    {p : Program Db Edit Lock Label ε α} (hp : p.LocksOnly Q) (hh : ∀ e, (handler e).LocksOnly Q) :
    (attempt handler p).LocksOnly Q := by
  induction p with
  | done r =>
    cases r with
    | ok a => trivial
    | error e => exact hh e
  | statement label run failed next ihf ihn =>
    exact ⟨hp.1, fun e => ihf e (hp.2.1 e), fun b => ihn b (hp.2.2 b)⟩
  | commit n ih => exact ih hp
  | rollback n ih => exact ih hp

theorem locksOnly_each {body : γ → Program Db Edit Lock Label ε Unit}
    (h : ∀ x, (body x).LocksOnly Q) (xs : List γ) : (each body xs).LocksOnly Q := by
  induction xs with
  | nil => trivial
  | cons x xs ih => exact locksOnly_bind (h x) fun _ => ih

end LocksOnly

/-! ## Programs that take ranked locks in ascending order -/

variable [LinearOrder κ] {rank : Lock → Option κ} {trusted : Label → Bool}

/-- After locks of ranks `seen` the program takes ranked locks in ascending order, whatever
the rows are and in whatever order a statement meets them; the trusted statements do so
by assumption. The end of a transaction releases all. -/
def Ascends (rank : Lock → Option κ) (trusted : Label → Bool) :
    Program Db Edit Lock Label ε α → List κ → Prop
  | done _, _ => True
  | statement label run failed next, seen =>
    (∀ db o, run db = .ok o → ∀ order : List Lock, order.Perm o.locks →
      (trusted label = true → (seen ++ order.filterMap rank).Pairwise (· < ·)) →
      (seen ++ order.filterMap rank).Pairwise (· < ·) ∧
        (next o.value).Ascends rank trusted (seen ++ order.filterMap rank)) ∧
    ∀ e, (failed e).Ascends rank trusted seen
  | commit n, _ => n.Ascends rank trusted []
  | rollback n, _ => n.Ascends rank trusted []

def Continues (rank : Lock → Option κ) (trusted : Label → Bool)
    (p : Program Db Edit Lock Label ε α) : Prop :=
  ∀ seen, seen.Pairwise (· < ·) → p.Ascends rank trusted seen

omit [LinearOrder κ] in
theorem ranks_of_unranked {locks : List Lock} (h : ∀ l ∈ locks, rank l = none) :
    locks.filterMap rank = [] := List.filterMap_eq_nil_iff.mpr h

theorem LocksOnly.continues {p : Program Db Edit Lock Label ε α}
    (h : p.LocksOnly fun l => rank l = none) : p.Continues rank trusted := by
  induction p with
  | done r => exact fun _ _ => trivial
  | statement label run failed next ihf ihn =>
    refine fun seen hseen => ⟨fun db o ho order hperm _ => ?_, fun e => ihf e (h.2.1 e) seen hseen⟩
    have hnone : order.filterMap rank = [] :=
      ranks_of_unranked fun l hl => h.1 db o ho l (hperm.mem_iff.mp hl)
    rw [hnone, List.append_nil]
    exact ⟨hseen, ihn o.value (h.2.2 o.value) seen hseen⟩
  | commit n ih => exact fun _ _ => ih h [] .nil
  | rollback n ih => exact fun _ _ => ih h [] .nil

/-- A part that takes no ranked lock comes first in its transaction. -/
theorem LocksOnly.ascends_bind {p : Program Db Edit Lock Label ε α}
    {k : α → Program Db Edit Lock Label ε β} (h : p.LocksOnly fun l => rank l = none)
    (hk : ∀ a, (k a).Ascends rank trusted []) : (p >>= k).Ascends rank trusted [] := by
  induction p with
  | done r =>
    cases r with
    | ok a => exact hk a
    | error e => trivial
  | statement label run failed next ihf ihn =>
    refine ⟨fun db o ho order hperm _ => ?_, fun e => ihf e (h.2.1 e)⟩
    have hnone : order.filterMap rank = [] :=
      ranks_of_unranked fun l hl => h.1 db o ho l (hperm.mem_iff.mp hl)
    rw [hnone]
    exact ⟨.nil, ihn o.value (h.2.2 o.value)⟩
  | commit n ih => exact ih h
  | rollback n ih => exact ih h

theorem Ascends.bind {p : Program Db Edit Lock Label ε α} {k : α → Program Db Edit Lock Label ε β}
    {seen : List κ} (hseen : seen.Pairwise (· < ·)) (hp : p.Ascends rank trusted seen)
    (hk : ∀ a, (k a).Continues rank trusted) : (p >>= k).Ascends rank trusted seen := by
  induction p generalizing seen with
  | done r =>
    cases r with
    | ok a => exact hk a seen hseen
    | error e => trivial
  | statement label run failed next ihf ihn =>
    refine ⟨fun db o ho order hperm htrusted => ?_, fun e => ihf e hseen (hp.2 e)⟩
    obtain ⟨hnew, hnext⟩ := hp.1 db o ho order hperm htrusted
    exact ⟨hnew, ihn o.value hnew hnext⟩
  | commit n ih => exact ih .nil hp
  | rollback n ih => exact ih .nil hp

theorem Ascends.attempt {handler : ε → Program Db Edit Lock Label ε α}
    {p : Program Db Edit Lock Label ε α} {seen : List κ} (hseen : seen.Pairwise (· < ·))
    (hp : p.Ascends rank trusted seen) (hh : ∀ e, (handler e).Continues rank trusted) :
    (attempt handler p).Ascends rank trusted seen := by
  induction p generalizing seen with
  | done r =>
    cases r with
    | ok a => trivial
    | error e => exact hh e seen hseen
  | statement label run failed next ihf ihn =>
    refine ⟨fun db o ho order hperm htrusted => ?_, fun e => ihf e hseen (hp.2 e)⟩
    obtain ⟨hnew, hnext⟩ := hp.1 db o ho order hperm htrusted
    exact ⟨hnew, ihn o.value hnew hnext⟩
  | commit n ih => exact ih .nil hp
  | rollback n ih => exact ih .nil hp

theorem continues_trusted {label : Label} {run : Db → Except ε (Outcome Edit Lock β)}
    (h : trusted label = true) : (execute label run).Continues rank trusted :=
  fun _ _ => ⟨fun _ _ _ _ _ htrusted => ⟨htrusted h, trivial⟩, fun _ => trivial⟩

theorem Continues.bind {p : Program Db Edit Lock Label ε α}
    {k : α → Program Db Edit Lock Label ε β} (hp : p.Continues rank trusted)
    (hk : ∀ a, (k a).Continues rank trusted) : (p >>= k).Continues rank trusted :=
  fun seen hseen => (hp seen hseen).bind hseen hk

theorem continues_each {body : γ → Program Db Edit Lock Label ε Unit}
    (h : ∀ x, (body x).Continues rank trusted) (xs : List γ) :
    (each body xs).Continues rank trusted := by
  induction xs with
  | nil => exact fun _ _ => trivial
  | cons x xs ih => exact (h x).bind fun _ => ih

/-- A loop over ascending ranks whose rounds lock one rank each. -/
theorem ascends_each {body : κ → Program Db Edit Lock Label ε Unit}
    (hbody : ∀ x, ∃ (label : Label) (run : Db → Except ε (Outcome Edit Lock Unit)),
      body x = execute label run ∧ ∀ db o, run db = .ok o → o.locks.filterMap rank = [x])
    {xs seen : List κ} (h : (seen ++ xs).Pairwise (· < ·)) :
    (each body xs).Ascends rank trusted seen := by
  induction xs generalizing seen with
  | nil => trivial
  | cons x xs ih =>
    obtain ⟨label, run, hx, hrun⟩ := hbody x
    unfold each
    rw [hx]
    refine ⟨fun db o ho order hperm _ => ?_, fun _ => trivial⟩
    have hone : order.filterMap rank = [x] := by
      have := hperm.filterMap rank
      rw [hrun db o ho] at this
      exact List.perm_singleton.mp this
    rw [← List.singleton_append, ← List.append_assoc] at h
    rw [hone]
    exact ⟨(List.pairwise_append.mp h).1, ih h⟩

end Program

/-! ## Overlapping calls -/

namespace Waiting

variable [Replay Db Edit] [DecidableEq Lock] [LinearOrder κ] {rank : Lock → Option κ}
  {trusted : Label → Bool} {conflict : Lock → Lock → Bool} {s t : Waiting Db Edit Lock Label ε α}

omit [Replay Db Edit] [DecidableEq Lock] [LinearOrder κ] in
def ranks (rank : Lock → Option κ) (s : Waiting Db Edit Lock Label ε α) (i : Nat) : List κ :=
  ((s.held i).reverse ++ s.queue i).filterMap rank

/-- A trusted statement meets its rows in ascending order, above those that its transaction
holds already. -/
def Yields (rank : Lock → Option κ) (trusted : Label → Bool) (s : Waiting Db Edit Lock Label ε α) :
    Move Lock → Prop
  | .ask i order => ((s.base.calls[i]?.bind Call.nextLabel).any trusted) = true →
    (((s.held i).reverse ++ order).filterMap rank).Pairwise (· < ·)
  | .take _ => True

instance (s : Waiting Db Edit Lock Label ε α) (m : Move Lock) :
    Decidable (s.Yields rank trusted m) := by
  cases m <;> unfold Yields <;> infer_instance

structure Ordered (rank : Lock → Option κ) (trusted : Label → Bool)
    (s : Waiting Db Edit Lock Label ε α) : Prop where
  ascending : ∀ i, (s.ranks rank i).Pairwise (· < ·)
  program : ∀ (i : Nat) (c : Call Db Edit Lock Label ε α), s.base.calls[i]? = some c →
    c.program.Ascends rank trusted (s.ranks rank i)

omit [Replay Db Edit] [DecidableEq Lock] in
theorem ordered_initial {db : Db} {programs : List (Program Db Edit Lock Label ε α)}
    (h : ∀ p ∈ programs, p.Ascends rank trusted []) : (initial db programs).Ordered rank trusted := by
  refine ⟨fun _ => .nil, fun i c hc => ?_⟩
  simp only [initial, State.initial, List.getElem?_map] at hc
  obtain ⟨p, hp, rfl⟩ := Option.map_eq_some_iff.mp hc
  exact h p (List.mem_of_getElem? hp)

omit [DecidableEq Lock] in
/-- A call that starts a statement or ends its transaction still ascends. -/
theorem ascends_advance {c c' : Call Db Edit Lock Label ε α} {free : List Lock → Bool} {db db' : Db}
    {held order : List Lock} (h : c.advance free db = some (c', db'))
    (hperm : order.Perm (c.asks db))
    (htrusted : (c.nextLabel.any trusted) = true →
      ((held.reverse ++ order).filterMap rank).Pairwise (· < ·))
    (hseen : (held.reverse.filterMap rank).Pairwise (· < ·))
    (hprogram : c.program.Ascends rank trusted (held.reverse.filterMap rank)) :
    let kept := if c.ends then [] else held
    ((kept.reverse ++ order).filterMap rank).Pairwise (· < ·) ∧
      c'.program.Ascends rank trusted ((kept.reverse ++ order).filterMap rank) := by
  obtain ⟨program, g⟩ := c
  cases program with
  | done r => cases h
  | statement label run failed next =>
    simp only [Call.advance] at h
    simp only [List.filterMap_append] at htrusted
    split at h
    · rename_i e he
      cases h
      have hnone : order = [] := by simpa [Call.asks, he] using hperm
      subst hnone
      simp only [Call.ends, List.append_nil]
      exact ⟨hseen, hprogram.2 e⟩
    · rename_i o ho
      split at h
      · cases h
        have hasked : order.Perm o.locks := by simpa [Call.asks, ho] using hperm
        simp only [Call.ends, List.filterMap_append]
        exact hprogram.1 _ o ho order hasked htrusted
      · cases h
  | commit next =>
    cases h
    have hnone : order = [] := hperm.eq_nil
    subst hnone
    exact ⟨.nil, hprogram⟩
  | rollback next =>
    cases h
    have hnone : order = [] := hperm.eq_nil
    subst hnone
    exact ⟨.nil, hprogram⟩

theorem Ordered.step {m : Move Lock} (hs : s.Ordered rank trusted) (hok : s.Yields rank trusted m)
    (h : s.step conflict m = some t) : t.Ordered rank trusted := by
  cases m with
  | ask i order =>
    obtain ⟨c, hc, hempty, hperm, hstep, hheld, hqueue⟩ := ask_cases h
    obtain ⟨d, c', hd, ha, hcalls⟩ := State.step_cases hstep
    rw [hc, Option.some.injEq] at hd
    subst hd
    have hseen : s.ranks rank i = (s.held i).reverse.filterMap rank := by
      rw [ranks, hempty, List.append_nil]
    have hnew : t.ranks rank i =
        ((if c.ends then [] else s.held i).reverse ++ order).filterMap rank := by
      rw [ranks, hheld, hqueue, Function.update_self]
      split <;> simp
    have hother : ∀ j, j ≠ i → t.ranks rank j = s.ranks rank j := by
      intro j hj
      rw [ranks, hheld, hqueue, Function.update_of_ne hj]
      split
      · rw [Function.update_of_ne hj, ranks]
      · rfl
    have hlabel : (c.nextLabel.any trusted) = true →
        (((s.held i).reverse ++ order).filterMap rank).Pairwise (· < ·) := by
      simpa [Yields, hc] using hok
    have hown := ascends_advance ha hperm hlabel (hseen ▸ hs.ascending i)
      (hseen ▸ hs.program i c hc)
    refine ⟨fun j => ?_, fun j d hd => ?_⟩
    · by_cases hj : j = i
      · subst hj
        rw [hnew]
        exact hown.1
      · rw [hother j hj]
        exact hs.ascending j
    · rcases State.call_cases hcalls hd with ⟨rfl, rfl⟩ | ⟨hj, hd⟩
      · rw [hnew]
        exact hown.2
      · rw [hother j hj]
        exact hs.program j d hd
  | take i =>
    obtain ⟨c, l, rest, hc, hfirst, _, hbase, hheld, hqueue⟩ := take_cases h
    have hsame : ∀ j, t.ranks rank j = s.ranks rank j := by
      intro j
      rw [ranks, ranks, hheld, hqueue]
      by_cases hj : j = i
      · subst hj
        simp [hfirst]
      · rw [Function.update_of_ne hj, Function.update_of_ne hj]
    refine ⟨fun j => ?_, fun j d hd => ?_⟩
    · rw [hsame]
      exact hs.ascending j
    · rw [hsame]
      rw [hbase] at hd
      exact hs.program j d hd

theorem Reaches.ordered {db : Db} {programs : List (Program Db Edit Lock Label ε α)}
    (h : Reaches conflict (Yields rank trusted) (initial db programs) s)
    (hprograms : ∀ p ∈ programs, p.Ascends rank trusted []) : s.Ordered rank trusted :=
  h.induct (ordered_initial hprograms) fun _ _ _ hs hok hmove => hs.step hok hmove

omit [Replay Db Edit] [DecidableEq Lock] in
/-- Along waiting calls the rank of what is waited for never falls, so it would have to be
below itself around a circle. -/
theorem Ordered.not_deadlocked (hs : s.Ordered rank trusted)
    (hconflict : ∀ l k, conflict l k = true → rank l = rank k) :
    ¬ s.Deadlocked conflict fun l => (rank l).isSome := by
  have hbelow : ∀ j l r, l ∈ (s.queue j).head? → rank l = some r →
      ∀ k ∈ s.holds j, ∀ r', rank k = some r' → r' < r := by
    intro j l r hl hr k hk r' hr'
    obtain ⟨rest, hqueue⟩ := List.head?_eq_some_iff.mp hl
    have hranks := hs.ascending j
    rw [ranks, hqueue, List.filterMap_append, List.pairwise_append] at hranks
    apply hranks.2.2 r'
    · exact List.mem_filterMap.mpr ⟨k, List.mem_reverse.mpr (holds_subset k hk), hr'⟩
    · exact List.mem_filterMap.mpr ⟨l, List.mem_cons_self, hr⟩
  have hchain : ∀ i j, Relation.TransGen (s.Waits conflict fun l => (rank l).isSome) i j →
      ∀ l ∈ (s.queue i).head?, ∀ r, rank l = some r →
        ∃ k ∈ s.holds j, ∃ r', rank k = some r' ∧ r ≤ r' := by
    intro i j hij l hl r hr
    induction hij with
    | single hwait =>
      obtain ⟨_, l', hl', _, k, hk, hlk⟩ := hwait
      cases Option.mem_unique hl hl'
      exact ⟨k, hk, r, (hconflict l k hlk) ▸ hr, le_refl r⟩
    | tail _ hwait ih =>
      obtain ⟨k, hk, r', hr', hle⟩ := ih
      obtain ⟨_, l', hl', hkind, k', hk', hlk⟩ := hwait
      obtain ⟨r'', hr''⟩ := Option.isSome_iff_exists.mp hkind
      refine ⟨k', hk', r'', (hconflict l' k' hlk) ▸ hr'', ?_⟩
      exact le_of_lt (lt_of_le_of_lt hle (hbelow _ l' r'' hl' hr'' k hk r' hr'))
  rintro ⟨i, hcircle⟩
  obtain ⟨j, ⟨_, l, hl, hkind, _⟩, _⟩ := exists_waits hcircle
  obtain ⟨r, hr⟩ := Option.isSome_iff_exists.mp hkind
  obtain ⟨k, hk, r', hr', hle⟩ := hchain i i hcircle l hl r hr
  exact absurd (hbelow i l r hl hr k hk r' hr') (not_lt_of_ge hle)

end Waiting

end Transaction
