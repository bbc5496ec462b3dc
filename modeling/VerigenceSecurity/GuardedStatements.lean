import VerigenceSecurity.OverlappingOperations
import VerigenceSecurity.Library.Guard

/-! # Statements under a lock

A conditional statement takes a snapshot of the rows and checks them again when it locks
them. While the call holds a lock that guards these rows, both find the same.
-/

namespace VerigenceSecurity
set_option autoImplicit false

open Transaction Program

variable {α A : Type} {G : Guard Database RowLock A} {obs : A} {n : Nat} {g : TxProgress}
  {T : Terms Database Write RowLock StatementName Failure α} {name : StatementName}
  {relation : Relation} {find : Database → List Uuid}

def StatementName.Conditional (name label : StatementName) : Prop :=
  label = .snapshot name ∨ label = name

theorem StatementName.conditional_snapshot (name : StatementName) :
    name.Conditional (.snapshot name) := Or.inl rfl

theorem StatementName.conditional_self (name : StatementName) : name.Conditional name := Or.inr rfl

theorem filter_found (ids : List Uuid) : ids.filter (fun id => decide (id ∈ ids)) = ids := by simp

theorem keeps_lockWhere_bind {k : List Uuid → Tx α} (ids : List Uuid) (h : G.Found g obs)
    (hrely : ∀ g' db, T.rely n g' db → G.Current g' db)
    (hfind : ∀ db, G.observe db = obs → find (replayAll g.pending db) = ids)
    (halways : ∀ g', G.Found g' obs → g.Adds name.Conditional [] g' → T.always n g')
    (hk : ∀ g', G.Found g' obs → g.Adds name.Conditional [] g' → (k ids).Keeps T n g') :
    (lockWhere name relation find >>= k).Keeps T n g := by
  unfold lockWhere
  rw [bind_assoc]
  refine keeps_query_bind (halways g h (Progress.Adds.refl g)) ?_ fun _ _ _ he => nomatch he
  intro db found hdb hfound
  have hcurrent := hrely g db hdb
  have hfirst := h.failed hcurrent (.snapshot name)
  have hadds : g.Adds name.Conditional [] (g.failed (.snapshot name) db) :=
    Progress.Adds.failed name.conditional_snapshot db g
  rw [hfind db (h.observe_eq hcurrent)] at hfound
  cases hfound
  refine keeps_execute_bind (halways _ hfirst hadds) ?_ fun _ _ _ he => nomatch he
  intro db' o hdb' ho
  have hcurrent' := hrely _ db' hdb'
  have hids : find (replayAll (g.failed (.snapshot name) db).pending db') = ids :=
    hfind db' (hfirst.observe_eq hcurrent')
  have hnext := hadds.trans (Progress.Adds.ran name.conditional_self db' o (g.failed (.snapshot name) db))
  rw [hids, filter_found] at ho
  cases ho
  exact hk _ (hfirst.ran hcurrent' name _) hnext

theorem keeps_updateWhere_bind {k : List Uuid → Tx α} {mode : LockMode} {write : List Uuid → Write}
    (ids : List Uuid) (h : G.Found g obs) (hrely : ∀ g' db, T.rely n g' db → G.Current g' db)
    (hfind : ∀ db, G.observe db = obs → find (replayAll g.pending db) = ids)
    (halways : ∀ g', G.Found g' obs → g.Adds name.Conditional [] g' → T.always n g')
    (hk : ∀ g', G.Found g' obs → g.Adds name.Conditional [write ids] g' → (k ids).Keeps T n g') :
    (updateWhere name relation mode find write >>= k).Keeps T n g := by
  unfold updateWhere
  rw [bind_assoc]
  refine keeps_query_bind (halways g h (Progress.Adds.refl g)) ?_ fun _ _ _ he => nomatch he
  intro db found hdb hfound
  have hcurrent := hrely g db hdb
  have hfirst := h.failed hcurrent (.snapshot name)
  have hadds : g.Adds name.Conditional [] (g.failed (.snapshot name) db) :=
    Progress.Adds.failed name.conditional_snapshot db g
  rw [hfind db (h.observe_eq hcurrent)] at hfound
  cases hfound
  refine keeps_execute_bind (halways _ hfirst hadds) ?_ fun _ _ _ he => nomatch he
  intro db' o hdb' ho
  have hcurrent' := hrely _ db' hdb'
  have hids : find (replayAll (g.failed (.snapshot name) db).pending db') = ids :=
    hfind db' (hfirst.observe_eq hcurrent')
  have hnext := hadds.trans (Progress.Adds.ran name.conditional_self db' o (g.failed (.snapshot name) db))
  rw [hids, filter_found] at ho
  cases ho
  exact hk _ (hfirst.ran hcurrent' name _) hnext

end VerigenceSecurity
