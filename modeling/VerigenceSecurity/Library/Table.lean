import Mathlib.Data.List.Pairwise

/-! # Relational tables that carry their unique constraints

A row contributes a finite list of index entries. A primary key contributes
one entry for every row, a partial unique index only for the rows its
predicate selects. Two stored rows never share an entry, so a violated
constraint cannot be represented and an insertion has to test it.
-/

namespace Relational
set_option autoImplicit false

variable {ρ κ : Type} {keys : ρ → List κ}

structure Table (ρ κ : Type) (keys : ρ → List κ) where
  rows : List ρ
  unique : rows.Pairwise fun a b => ∀ k ∈ keys a, k ∉ keys b

namespace Table

def empty : Table ρ κ keys := ⟨[], List.Pairwise.nil⟩

instance : Inhabited (Table ρ κ keys) := ⟨empty⟩

@[simp] theorem rows_empty : (empty : Table ρ κ keys).rows = [] := rfl

theorem eq_of_rows {t u : Table ρ κ keys} (h : t.rows = u.rows) : t = u := by
  cases t
  cases u
  cases h
  rfl

theorem shared_entry {t : Table ρ κ keys} {a b : ρ} (ha : a ∈ t.rows) (hb : b ∈ t.rows)
    {k : κ} (hka : k ∈ keys a) (hkb : k ∈ keys b) : a = b := by
  by_contra hne
  have symmetric : Std.Symm fun a b : ρ => ∀ k ∈ keys a, k ∉ keys b :=
    ⟨fun _ _ h k hb ha => h k ha hb⟩
  exact t.unique.forall ha hb hne k hka hkb

/-- `INSERT`: refused when a stored row already owns one of the new entries. -/
def insert? [DecidableEq κ] (t : Table ρ κ keys) (row : ρ) : Option (Table ρ κ keys) :=
  if h : ∀ r ∈ t.rows, ∀ k ∈ keys r, k ∉ keys row then
    some ⟨t.rows ++ [row], by
      rw [List.pairwise_append]
      exact ⟨t.unique, List.pairwise_singleton _ _, fun a ha b hb => by
        rw [List.mem_singleton.mp hb]
        exact h a ha⟩⟩
  else none

theorem rows_of_insert? [DecidableEq κ] {t u : Table ρ κ keys} {row : ρ}
    (h : t.insert? row = some u) : u.rows = t.rows ++ [row] := by
  unfold insert? at h
  split at h
  · rw [← Option.some.inj h]
  · cases h

/-- The insertion as a total change of the table, a refused one leaving it alone. -/
def insert [DecidableEq κ] (t : Table ρ κ keys) (row : ρ) : Table ρ κ keys :=
  (t.insert? row).getD t

theorem mem_insert [DecidableEq κ] {t : Table ρ κ keys} {row r : ρ}
    (h : r ∈ (t.insert row).rows) : r ∈ t.rows ∨ r = row := by
  unfold insert at h
  cases hi : t.insert? row with
  | none =>
    rw [hi] at h
    exact Or.inl h
  | some u =>
    rw [hi, Option.getD_some, rows_of_insert? hi] at h
    simpa using h

theorem mem_insert_of_mem [DecidableEq κ] {t : Table ρ κ keys} {row r : ρ}
    (h : r ∈ t.rows) : r ∈ (t.insert row).rows := by
  unfold insert
  cases hi : t.insert? row with
  | none => exact h
  | some u =>
    rw [Option.getD_some, rows_of_insert? hi]
    exact List.mem_append_left _ h

theorem mem_foldl_insert [DecidableEq κ] {rows : List ρ} {t : Table ρ κ keys} {r : ρ}
    (h : r ∈ (rows.foldl insert t).rows) : r ∈ t.rows ∨ r ∈ rows := by
  induction rows generalizing t with
  | nil => exact Or.inl h
  | cons row rows ih =>
    rcases ih h with hr | hr
    · rcases mem_insert hr with hr | rfl
      · exact Or.inl hr
      · exact Or.inr List.mem_cons_self
    · exact Or.inr (List.mem_cons_of_mem row hr)

theorem rows_insert_of_some [DecidableEq κ] {t u : Table ρ κ keys} {row : ρ}
    (h : t.insert? row = some u) : (t.insert row).rows = t.rows ++ [row] := by
  unfold insert
  rw [h, Option.getD_some, rows_of_insert? h]

theorem isSome_insert? [DecidableEq κ] {t : Table ρ κ keys} {row : ρ} :
    (t.insert? row).isSome = true ↔ ∀ r ∈ t.rows, ∀ k ∈ keys r, k ∉ keys row := by
  unfold insert?
  split
  · exact ⟨fun _ => ‹_›, fun _ => rfl⟩
  · exact ⟨fun h => Bool.noConfusion h, fun h => absurd h ‹_›⟩

/-- Where the entries of a row tell it apart, inserting it twice is inserting it once. -/
theorem mem_insert_iff [DecidableEq κ] {t : Table ρ κ keys} {row r : ρ}
    (hsame : ∀ a ∈ t.rows, ∀ k ∈ keys a, k ∈ keys row → a = row) :
    r ∈ (t.insert row).rows ↔ r ∈ t.rows ∨ r = row := by
  constructor
  · exact mem_insert
  · rintro (hr | rfl)
    · exact mem_insert_of_mem hr
    · by_cases hfree : (t.insert? r).isSome = true
      · obtain ⟨inserted, hinsert⟩ := Option.isSome_iff_exists.mp hfree
        rw [rows_insert_of_some hinsert]
        exact List.mem_append_right _ List.mem_cons_self
      · -- The row that owns the entry is the row itself.
        rw [isSome_insert?] at hfree
        simp only [not_forall, not_not] at hfree
        obtain ⟨stored, hstored, k, hk, hk'⟩ := hfree
        exact mem_insert_of_mem (hsame stored hstored k hk hk' ▸ hstored)

/-- `UPDATE ... WHERE`: the new rows own no entry that the old ones did not own. -/
def update (t : Table ρ κ keys) (where? : ρ → Bool) (set : ρ → ρ)
    (kept : ∀ r, keys (set r) ⊆ keys r) : Table ρ κ keys where
  rows := t.rows.map fun r => if where? r then set r else r
  unique := by
    have entries : ∀ r, keys (if where? r then set r else r) ⊆ keys r := by
      intro r
      split
      · exact kept r
      · exact fun _ h => h
    exact List.Pairwise.map _ (fun a b h k ha hb => h k (entries a ha) (entries b hb)) t.unique

@[simp] theorem rows_update (t : Table ρ κ keys) (where? : ρ → Bool) (set : ρ → ρ)
    (kept : ∀ r, keys (set r) ⊆ keys r) :
    (t.update where? set kept).rows = t.rows.map fun r => if where? r then set r else r := rfl

/-- Only what becomes of the stored rows matters. -/
theorem update_congr {t : Table ρ κ keys} {where? where?' : ρ → Bool} {set set' : ρ → ρ}
    {kept : ∀ r, keys (set r) ⊆ keys r} {kept' : ∀ r, keys (set' r) ⊆ keys r}
    (h : ∀ r ∈ t.rows, (if where? r then set r else r) = if where?' r then set' r else r) :
    t.update where? set kept = t.update where?' set' kept' :=
  eq_of_rows (List.map_congr_left h)

theorem update_eq_self {t : Table ρ κ keys} {where? : ρ → Bool} {set : ρ → ρ}
    {kept : ∀ r, keys (set r) ⊆ keys r} (h : ∀ r ∈ t.rows, where? r = false) :
    t.update where? set kept = t := by
  apply eq_of_rows
  calc t.rows.map (fun r => if where? r then set r else r)
      = t.rows.map id := List.map_congr_left fun r hr => by simp [h r hr]
    _ = t.rows := List.map_id t.rows

theorem mem_update {t : Table ρ κ keys} {where? : ρ → Bool} {set : ρ → ρ}
    {kept : ∀ r, keys (set r) ⊆ keys r} {r : ρ} :
    r ∈ (t.update where? set kept).rows ↔
      ∃ o ∈ t.rows, (where? o = true ∧ r = set o) ∨ (where? o = false ∧ r = o) := by
  rw [rows_update, List.mem_map]
  constructor
  · rintro ⟨o, ho, rfl⟩
    refine ⟨o, ho, ?_⟩
    cases hw : where? o with
    | true => exact Or.inl ⟨rfl, by simp⟩
    | false => exact Or.inr ⟨rfl, by simp⟩
  · rintro ⟨o, ho, ⟨hw, rfl⟩ | ⟨hw, rfl⟩⟩
    · exact ⟨o, ho, by simp [hw]⟩
    · exact ⟨r, ho, by simp [hw]⟩

theorem mem_update_set {t : Table ρ κ keys} {where? : ρ → Bool} {set : ρ → ρ}
    {kept : ∀ r, keys (set r) ⊆ keys r} {r : ρ} (hr : r ∈ t.rows) (hw : where? r = true) :
    set r ∈ (t.update where? set kept).rows :=
  mem_update.mpr ⟨r, hr, Or.inl ⟨hw, rfl⟩⟩

theorem mem_update_of_not {t : Table ρ κ keys} {where? : ρ → Bool} {set : ρ → ρ}
    {kept : ∀ r, keys (set r) ⊆ keys r} {r : ρ} (hr : r ∈ t.rows) (hw : where? r = false) :
    r ∈ (t.update where? set kept).rows :=
  mem_update.mpr ⟨r, hr, Or.inr ⟨hw, rfl⟩⟩

/-- A row that an update leaves alone. -/
theorem mem_of_not {t u : Table ρ κ keys} {where? : ρ → Bool} {set : ρ → ρ} {r : ρ}
    (hrows : u.rows = t.rows.map fun r => if where? r then set r else r) (hr : r ∈ t.rows)
    (hw : where? r = false) : r ∈ u.rows := by
  rw [hrows]
  exact List.mem_map.mpr ⟨r, hr, by simp [hw]⟩

/-- `UPDATE ... WHERE` to rows that may own new entries: refused when two rows would share one. -/
def modify? [DecidableEq κ] (t : Table ρ κ keys) (where? : ρ → Bool) (set : ρ → ρ) :
    Option (Table ρ κ keys) :=
  if h : (t.rows.map fun r => if where? r then set r else r).Pairwise
      fun a b => ∀ k ∈ keys a, k ∉ keys b then some ⟨_, h⟩
  else none

theorem rows_of_modify? [DecidableEq κ] {t u : Table ρ κ keys} {where? : ρ → Bool} {set : ρ → ρ}
    (h : t.modify? where? set = some u) :
    u.rows = t.rows.map fun r => if where? r then set r else r := by
  unfold modify? at h
  split at h
  · rw [← Option.some.inj h]
  · cases h

def modify [DecidableEq κ] (t : Table ρ κ keys) (where? : ρ → Bool) (set : ρ → ρ) :
    Table ρ κ keys :=
  (t.modify? where? set).getD t

theorem mem_modify_of_not [DecidableEq κ] {t : Table ρ κ keys} {where? : ρ → Bool} {set : ρ → ρ}
    {r : ρ} (hr : r ∈ t.rows) (hw : where? r = false) : r ∈ (t.modify where? set).rows := by
  unfold modify
  cases hm : t.modify? where? set with
  | none => exact hr
  | some u =>
    exact mem_of_not (rows_of_modify? hm) hr hw

/-- The update goes through when the rows that it sets keep their entries. -/
theorem mem_modify_set [DecidableEq κ] {t : Table ρ κ keys} {where? : ρ → Bool} {set : ρ → ρ} {r : ρ}
    (hr : r ∈ t.rows) (hw : where? r = true)
    (hkeys : ∀ o ∈ t.rows, where? o = true → keys (set o) = keys o) :
    set r ∈ (t.modify where? set).rows := by
  have hsame : ∀ o ∈ t.rows, keys (if where? o then set o else o) = keys o := by
    intro o ho
    split
    · exact hkeys o ho ‹_›
    · rfl
  have hunique : (t.rows.map fun o => if where? o then set o else o).Pairwise
      fun a b => ∀ k ∈ keys a, k ∉ keys b := by
    refine List.pairwise_map.mpr (t.unique.imp_of_mem fun ha hb h k hka hkb => ?_)
    rw [hsame _ ha] at hka
    rw [hsame _ hb] at hkb
    exact h k hka hkb
  have hrows : (t.modify where? set).rows = t.rows.map fun o => if where? o then set o else o := by
    unfold modify modify?
    rw [dif_pos hunique]
    rfl
  rw [hrows]
  exact List.mem_map.mpr ⟨r, hr, by simp [hw]⟩

def delete (t : Table ρ κ keys) (where? : ρ → Bool) : Table ρ κ keys where
  rows := t.rows.filter fun r => !where? r
  unique := t.unique.filter _

@[simp] theorem rows_delete (t : Table ρ κ keys) (where? : ρ → Bool) :
    (t.delete where?).rows = t.rows.filter fun r => !where? r := rfl

theorem mem_delete {t : Table ρ κ keys} {where? : ρ → Bool} {r : ρ} :
    r ∈ (t.delete where?).rows ↔ r ∈ t.rows ∧ where? r = false := by
  simp [rows_delete]

/-- `INSERT ... ON CONFLICT (entry) DO UPDATE`. -/
def upsert [DecidableEq κ] (t : Table ρ κ keys) (entry : κ) (row : ρ) (set : ρ → ρ)
    (kept : ∀ r, keys (set r) ⊆ keys r) : Table ρ κ keys :=
  if t.rows.any fun r => decide (entry ∈ keys r) then
    t.update (fun r => decide (entry ∈ keys r)) set kept
  else t.insert row

theorem mem_upsert_iff [DecidableEq κ] {t : Table ρ κ keys} {entry : κ} {row r : ρ} {set : ρ → ρ}
    {kept : ∀ r, keys (set r) ⊆ keys r}
    (hfree : (∀ o ∈ t.rows, entry ∉ keys o) → (t.insert? row).isSome = true) :
    r ∈ (t.upsert entry row set kept).rows ↔
      (∃ o ∈ t.rows, entry ∈ keys o ∧ r = set o) ∨ (r ∈ t.rows ∧ entry ∉ keys r) ∨
        (∀ o ∈ t.rows, entry ∉ keys o) ∧ r = row := by
  unfold upsert
  split
  · rename_i hany
    obtain ⟨owner, howner, howns⟩ := List.any_eq_true.mp hany
    rw [mem_update]
    constructor
    · rintro ⟨o, ho, ⟨hw, rfl⟩ | ⟨hw, rfl⟩⟩
      · exact Or.inl ⟨o, ho, by simpa using hw, rfl⟩
      · exact Or.inr (Or.inl ⟨ho, by simpa using hw⟩)
    · rintro (⟨o, ho, hk, rfl⟩ | ⟨hr, hk⟩ | ⟨hnone, _⟩)
      · exact ⟨o, ho, Or.inl ⟨by simpa using hk, rfl⟩⟩
      · exact ⟨r, hr, Or.inr ⟨by simpa using hk, rfl⟩⟩
      · exact absurd (of_decide_eq_true howns) (hnone owner howner)
  · rename_i hnone
    have hfresh : ∀ o ∈ t.rows, entry ∉ keys o := by
      intro o ho hk
      exact hnone (List.any_eq_true.mpr ⟨o, ho, by simpa using hk⟩)
    obtain ⟨inserted, hinsert⟩ := Option.isSome_iff_exists.mp (hfree hfresh)
    rw [rows_insert_of_some hinsert, List.mem_append, List.mem_singleton]
    constructor
    · rintro (hr | rfl)
      · exact Or.inr (Or.inl ⟨hr, hfresh r hr⟩)
      · exact Or.inr (Or.inr ⟨hfresh, rfl⟩)
    · rintro (⟨o, ho, hk, _⟩ | ⟨hr, _⟩ | ⟨_, rfl⟩)
      · exact absurd hk (hfresh o ho)
      · exact Or.inl hr
      · exact Or.inr rfl

/-! ## What a write does to a lookup -/

theorem find?_update {t : Table ρ κ keys} {where? : ρ → Bool} {set : ρ → ρ}
    {kept : ∀ r, keys (set r) ⊆ keys r} {p : ρ → Bool} (hp : ∀ r, p (set r) = p r) :
    (t.update where? set kept).rows.find? p =
      (t.rows.find? p).map fun r => if where? r then set r else r := by
  have hcomp : (p ∘ fun r => if where? r then set r else r) = p := by
    funext r
    simp only [Function.comp]
    split
    · exact hp r
    · rfl
  rw [rows_update, List.find?_map, hcomp]

theorem find?_insert [DecidableEq κ] {t u : Table ρ κ keys} {row : ρ} (h : t.insert? row = some u)
    {p : ρ → Bool} : (t.insert row).rows.find? p =
      (t.rows.find? p).or (if p row then some row else none) := by
  rw [rows_insert_of_some h, List.find?_append]
  cases hp : p row <;> simp [hp]

/-- A lookup by an index entry finds the row that owns it. -/
theorem find?_of_mem {t : Table ρ κ keys} {p : ρ → Bool} {row : ρ} (hrow : row ∈ t.rows)
    (hp : p row = true) (k : κ) (hk : ∀ r, p r = true → k ∈ keys r) : t.rows.find? p = some row := by
  cases hfind : t.rows.find? p with
  | none => exact absurd hp (List.find?_eq_none.mp hfind row hrow)
  | some found =>
    rw [shared_entry (List.mem_of_find?_eq_some hfind) hrow (hk found (List.find?_some hfind))
      (hk row hp)]

/-- An upsert that is not refused changes what is found under its entry, and nothing else. -/
theorem find?_upsert [DecidableEq κ] {t : Table ρ κ keys} {entry k : κ} {row : ρ} {set : ρ → ρ}
    {kept : ∀ r, keys (set r) ⊆ keys r} {p : ρ → Bool} (hp : ∀ r, p r = true ↔ k ∈ keys r)
    (hset : ∀ r, p (set r) = p r) (hrow : p row = true ↔ k = entry)
    (hentry : ∀ r, k ∈ keys r → (entry ∈ keys r ↔ k = entry))
    (hfree : (∀ r ∈ t.rows, entry ∉ keys r) → (t.insert? row).isSome = true) :
    (t.upsert entry row set kept).rows.find? p =
      if k = entry then some ((t.rows.find? p).elim row set) else t.rows.find? p := by
  unfold upsert
  split
  · rename_i hany
    obtain ⟨stored, hstored, howns⟩ := List.any_eq_true.mp hany
    rw [find?_update hset]
    cases hfind : t.rows.find? p with
    | none =>
      have hne : k ≠ entry := by
        rintro rfl
        have hnot := List.find?_eq_none.mp hfind stored hstored
        exact hnot ((hp stored).mpr (of_decide_eq_true howns))
      rw [if_neg hne, Option.map_none]
    | some r =>
      have hr := hentry r ((hp r).mp (List.find?_some hfind))
      simp only [Option.map_some, Option.elim_some, decide_eq_true_eq, hr]
      by_cases h : k = entry
      · rw [if_pos h, if_pos h]
      · rw [if_neg h, if_neg h]
  · rename_i hany
    have hnone : ∀ r ∈ t.rows, entry ∉ keys r := by
      intro r hr hk
      exact hany (List.any_eq_true.mpr ⟨r, hr, decide_eq_true hk⟩)
    obtain ⟨inserted, hinsert⟩ := Option.isSome_iff_exists.mp (hfree hnone)
    rw [find?_insert hinsert]
    by_cases h : k = entry
    · have hfind : t.rows.find? p = none := by
        rw [List.find?_eq_none]
        intro r hr hpr
        apply hnone r hr
        rw [← h]
        exact (hp r).mp hpr
      rw [hfind, if_pos h, if_pos (hrow.mpr h)]
      rfl
    · have hno : ¬ p row = true := fun hpr => h (hrow.mp hpr)
      rw [if_neg h, if_neg hno, Option.or_none]

/-- A query for the owner of an entry has at most one result. -/
theorem length_filter_le_one {t : Table ρ κ keys} {p : ρ → Bool} (k : κ)
    (hk : ∀ r, p r = true → k ∈ keys r) : (t.rows.filter p).length ≤ 1 := by
  have hpairwise := t.unique.filter p
  cases hrows : t.rows.filter p with
  | nil => exact Nat.zero_le 1
  | cons a rest =>
    cases rest with
    | nil => exact Nat.le_refl 1
    | cons b rest =>
      have ha : a ∈ t.rows.filter p := by simp [hrows]
      have hb : b ∈ t.rows.filter p := by simp [hrows]
      rw [hrows, List.pairwise_cons] at hpairwise
      have hdisjoint := hpairwise.1 b List.mem_cons_self k (hk a (List.mem_filter.mp ha).2)
      exact absurd (hk b (List.mem_filter.mp hb).2) hdisjoint

/-! ## What a write does to an existential query -/

theorem exists_of_insert [DecidableEq κ] {t : Table ρ κ keys} {row : ρ} {P : ρ → Prop}
    (h : ∃ r ∈ (t.insert row).rows, P r) : (∃ r ∈ t.rows, P r) ∨ P row := by
  obtain ⟨r, hr, hP⟩ := h
  rcases mem_insert hr with hr | rfl
  · exact Or.inl ⟨r, hr, hP⟩
  · exact Or.inr hP

theorem exists_of_update {t : Table ρ κ keys} {where? : ρ → Bool} {set : ρ → ρ}
    {kept : ∀ r, keys (set r) ⊆ keys r} {P : ρ → Prop}
    (h : ∃ r ∈ (t.update where? set kept).rows, P r) :
    (∃ r ∈ t.rows, P r) ∨ ∃ o ∈ t.rows, where? o = true ∧ P (set o) := by
  obtain ⟨r, hr, hP⟩ := h
  obtain ⟨o, ho, ⟨hw, rfl⟩ | ⟨_, rfl⟩⟩ := mem_update.mp hr
  · exact Or.inr ⟨o, ho, hw, hP⟩
  · exact Or.inl ⟨r, ho, hP⟩

theorem exists_insert_iff [DecidableEq κ] {t : Table ρ κ keys} {row : ρ} {P : ρ → Prop}
    (h : ¬ P row) : (∃ r ∈ (t.insert row).rows, P r) ↔ ∃ r ∈ t.rows, P r := by
  constructor
  · rintro ⟨r, hr, hP⟩
    rcases mem_insert hr with hr | rfl
    · exact ⟨r, hr, hP⟩
    · exact absurd hP h
  · rintro ⟨r, hr, hP⟩
    exact ⟨r, mem_insert_of_mem hr, hP⟩

theorem exists_update_iff {t : Table ρ κ keys} {where? : ρ → Bool} {set : ρ → ρ}
    {kept : ∀ r, keys (set r) ⊆ keys r} {P : ρ → Prop}
    (h : ∀ r ∈ t.rows, where? r = true → (P (set r) ↔ P r)) :
    (∃ r ∈ (t.update where? set kept).rows, P r) ↔ ∃ r ∈ t.rows, P r := by
  constructor
  · rintro ⟨r, hr, hP⟩
    obtain ⟨o, ho, ⟨hw, rfl⟩ | ⟨_, rfl⟩⟩ := mem_update.mp hr
    · exact ⟨o, ho, (h o ho hw).mp hP⟩
    · exact ⟨r, ho, hP⟩
  · rintro ⟨r, hr, hP⟩
    cases hw : where? r with
    | true => exact ⟨set r, mem_update.mpr ⟨r, hr, Or.inl ⟨hw, rfl⟩⟩, (h r hr hw).mpr hP⟩
    | false => exact ⟨r, mem_update.mpr ⟨r, hr, Or.inr ⟨hw, rfl⟩⟩, hP⟩

theorem exists_delete_iff {t : Table ρ κ keys} {where? : ρ → Bool} {P : ρ → Prop}
    (h : ∀ r ∈ t.rows, where? r = true → ¬ P r) :
    (∃ r ∈ (t.delete where?).rows, P r) ↔ ∃ r ∈ t.rows, P r := by
  constructor
  · rintro ⟨r, hr, hP⟩
    exact ⟨r, (mem_delete.mp hr).1, hP⟩
  · rintro ⟨r, hr, hP⟩
    have hw : where? r = false := by
      cases hw : where? r with
      | true => exact absurd hP (h r hr hw)
      | false => rfl
    exact ⟨r, mem_delete.mpr ⟨hr, hw⟩, hP⟩

/-! ## Entries that are taken -/

def taken (t : Table ρ κ keys) : List κ := t.rows.flatMap keys

theorem mem_taken {t : Table ρ κ keys} {k : κ} : k ∈ t.taken ↔ ∃ r ∈ t.rows, k ∈ keys r :=
  List.mem_flatMap

theorem isSome_insert?_iff_taken [DecidableEq κ] {t : Table ρ κ keys} {row : ρ} :
    (t.insert? row).isSome = true ↔ ∀ k ∈ keys row, k ∉ t.taken := by
  rw [isSome_insert?]
  constructor
  · intro h k hk htaken
    obtain ⟨r, hr, hkr⟩ := mem_taken.mp htaken
    exact h r hr k hkr hk
  · intro h r hr k hkr hk
    exact h k hk (mem_taken.mpr ⟨r, hr, hkr⟩)

theorem taken_subset_insert [DecidableEq κ] (t : Table ρ κ keys) (row : ρ) :
    t.taken ⊆ (t.insert row).taken := by
  intro k hk
  obtain ⟨r, hr, hkr⟩ := mem_taken.mp hk
  exact mem_taken.mpr ⟨r, mem_insert_of_mem hr, hkr⟩

theorem mem_insert_of_free [DecidableEq κ] {t : Table ρ κ keys} {row : ρ}
    (h : ∀ k ∈ keys row, k ∉ t.taken) : row ∈ (t.insert row).rows := by
  obtain ⟨u, hu⟩ := Option.isSome_iff_exists.mp (isSome_insert?_iff_taken.mpr h)
  rw [rows_insert_of_some hu]
  exact List.mem_append_right _ List.mem_cons_self

theorem mem_taken_insert [DecidableEq κ] {t : Table ρ κ keys} {row : ρ} {k : κ}
    (h : k ∈ (t.insert row).taken) : k ∈ t.taken ∨ k ∈ keys row := by
  obtain ⟨r, hr, hkr⟩ := mem_taken.mp h
  rcases mem_insert hr with hr | rfl
  · exact Or.inl (mem_taken.mpr ⟨r, hr, hkr⟩)
  · exact Or.inr hkr

/-- An update that leaves the entries of every row as they are. -/
theorem taken_update {t : Table ρ κ keys} {where? : ρ → Bool} {set : ρ → ρ}
    (kept : ∀ r, keys (set r) ⊆ keys r) (hkeys : ∀ r, keys (set r) = keys r) :
    (t.update where? set kept).taken = t.taken := by
  unfold taken
  rw [rows_update, List.flatMap_map]
  congr 1
  funext r
  split
  · exact hkeys r
  · rfl

theorem taken_update_subset {t : Table ρ κ keys} {where? : ρ → Bool} {set : ρ → ρ}
    {kept : ∀ r, keys (set r) ⊆ keys r} : (t.update where? set kept).taken ⊆ t.taken := by
  intro k hk
  obtain ⟨r, hr, hkr⟩ := mem_taken.mp hk
  obtain ⟨a, ha, ⟨_, rfl⟩ | ⟨_, rfl⟩⟩ := mem_update.mp hr
  · exact mem_taken.mpr ⟨a, ha, kept a hkr⟩
  · exact mem_taken.mpr ⟨r, ha, hkr⟩

/-! ## Counting -/

/-- Rows that own one entry are at most one row, so their update adds at most one. -/
theorem countP_update_le {t : Table ρ κ keys} {where? : ρ → Bool} {set : ρ → ρ}
    {kept : ∀ r, keys (set r) ⊆ keys r} (p : ρ → Bool) (k : κ)
    (hk : ∀ r, where? r = true → k ∈ keys r) :
    (t.update where? set kept).rows.countP p ≤ t.rows.countP p + 1 := by
  rw [rows_update]
  have hunique := t.unique
  generalize t.rows = rows at hunique
  induction rows with
  | nil => exact Nat.zero_le _
  | cons r rs ih =>
    obtain ⟨hr, hrs⟩ := List.pairwise_cons.mp hunique
    rw [List.map_cons, List.countP_cons, List.countP_cons]
    cases hw : where? r with
    | true =>
      have hrest : (rs.map fun r => if where? r then set r else r) = rs := by
        refine (List.map_congr_left (g := fun r => r) ?_).trans (List.map_id' rs)
        intro x hx
        have hno : where? x ≠ true := fun hwx => hr x hx k (hk r hw) (hk x hwx)
        simp [hno]
      rw [hrest]
      split <;> split <;> omega
    | false =>
      have := ih hrs
      simp only [Bool.false_eq_true, if_false]
      omega

/-! ## Rows that a write does not select -/

theorem filter_insert [DecidableEq κ] {t : Table ρ κ keys} {row : ρ} {p : ρ → Bool}
    (h : p row = false) : (t.insert row).rows.filter p = t.rows.filter p := by
  unfold insert
  cases hi : t.insert? row with
  | none => rfl
  | some u =>
    rw [Option.getD_some, rows_of_insert? hi, List.filter_append, List.filter_cons_of_neg (by simp [h])]
    simp

/-- The rows of an `UPDATE`. -/
theorem filter_update {rows : List ρ} {where? : ρ → Bool} {set : ρ → ρ} {p : ρ → Bool}
    (h : ∀ r, where? r = true → p r = false ∧ p (set r) = false) :
    (rows.map fun r => if where? r then set r else r).filter p = rows.filter p := by
  induction rows with
  | nil => rfl
  | cons r rs ih =>
    rw [List.map_cons]
    cases hw : where? r with
    | true =>
      obtain ⟨hr, hset⟩ := h r hw
      rw [if_pos rfl, List.filter_cons_of_neg (by simp [hset]), List.filter_cons_of_neg (by simp [hr]), ih]
    | false => rw [if_neg (by simp), List.filter_cons, List.filter_cons, ih]

theorem filter_delete {t : Table ρ κ keys} {where? : ρ → Bool} {p : ρ → Bool}
    (h : ∀ r, where? r = true → p r = false) :
    (t.delete where?).rows.filter p = t.rows.filter p := by
  rw [rows_delete, List.filter_filter]
  apply List.filter_congr
  intro r _
  cases hw : where? r with
  | true => simp [h r hw]
  | false => simp

theorem filter_upsert [DecidableEq κ] {t : Table ρ κ keys} {entry : κ} {row : ρ} {set : ρ → ρ}
    {kept : ∀ r, keys (set r) ⊆ keys r} {p : ρ → Bool} (hrow : p row = false)
    (h : ∀ r, entry ∈ keys r → p r = false ∧ p (set r) = false) :
    (t.upsert entry row set kept).rows.filter p = t.rows.filter p := by
  unfold upsert
  split
  · exact filter_update fun r hr => h r (of_decide_eq_true hr)
  · exact filter_insert hrow

end Table

/-! ## Foreign keys -/

section Refers

variable {σ κ' : Type} {keys' : σ → List κ'} {child : Table ρ κ keys} {parent : Table σ κ' keys'}
  {r : ρ → σ → Prop}

def Refers (child : Table ρ κ keys) (parent : Table σ κ' keys') (r : ρ → σ → Prop) : Prop :=
  ∀ a ∈ child.rows, ∃ b ∈ parent.rows, r a b

theorem Refers.insert [DecidableEq κ] (h : Refers child parent r) {row : ρ}
    (hrow : ∃ b ∈ parent.rows, r row b) : Refers (child.insert row) parent r := by
  intro a ha
  rcases Table.mem_insert ha with ha | rfl
  · exact h a ha
  · exact hrow

theorem Refers.update (h : Refers child parent r) {where? : ρ → Bool} {set : ρ → ρ}
    {kept : ∀ a, keys (set a) ⊆ keys a} (hset : ∀ a b, r a b → r (set a) b) :
    Refers (child.update where? set kept) parent r := by
  intro a ha
  obtain ⟨o, ho, ⟨_, rfl⟩ | ⟨_, rfl⟩⟩ := Table.mem_update.mp ha
  · obtain ⟨b, hb, hr⟩ := h o ho
    exact ⟨b, hb, hset o b hr⟩
  · exact h a ho

theorem Refers.delete (h : Refers child parent r) {where? : ρ → Bool} :
    Refers (child.delete where?) parent r :=
  fun a ha => h a (Table.mem_delete.mp ha).1

theorem Refers.parent_insert [DecidableEq κ'] (h : Refers child parent r) {row : σ} :
    Refers child (parent.insert row) r := by
  intro a ha
  obtain ⟨b, hb, hr⟩ := h a ha
  exact ⟨b, Table.mem_insert_of_mem hb, hr⟩

theorem Refers.parent_update (h : Refers child parent r) {where? : σ → Bool} {set : σ → σ}
    {kept : ∀ b, keys' (set b) ⊆ keys' b} (hset : ∀ a b, r a b → r a (set b)) :
    Refers child (parent.update where? set kept) r := by
  intro a ha
  obtain ⟨b, hb, hr⟩ := h a ha
  cases hw : where? b with
  | true => exact ⟨set b, Table.mem_update.mpr ⟨b, hb, Or.inl ⟨hw, rfl⟩⟩, hset a b hr⟩
  | false => exact ⟨b, Table.mem_update.mpr ⟨b, hb, Or.inr ⟨hw, rfl⟩⟩, hr⟩

end Refers

end Relational
