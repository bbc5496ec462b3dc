import VerigenceSecurity.OverlappingOperations
import VerigenceSecurity.Library.CommitOrder

/-! # Overlapping updates of one group or one role

`update_group` and `update_role` read the row without a lock, fill the fields that
they were not given from what they read and write all of them back. Calls that
overlap have the effect of their commits in order as long as each commit finds the
fields it fills unchanged since its read.
-/

namespace VerigenceSecurity
set_option autoImplicit false

open Transaction Relational

structure EditableFields where
  name : String
  description : Option String
  status : ActiveStatus
  deriving DecidableEq, Repr

structure FieldUpdate where
  call : AdminCall
  name : Option String
  description : Option String
  status : Option ActiveStatus

namespace FieldUpdate

/-- The update sets the fields whose argument is given and leaves the others alone. -/
def set (u : FieldUpdate) (fields : EditableFields) : EditableFields :=
  ⟨u.name.getD fields.name, u.description <|> fields.description, u.status.getD fields.status⟩

structure Agrees (u : FieldUpdate) (read current : EditableFields) : Prop where
  name : u.name = none → read.name = current.name
  description : u.description = none → read.description = current.description
  status : u.status = none → read.status = current.status

instance (u : FieldUpdate) (read current : EditableFields) : Decidable (u.Agrees read current) :=
  decidable_of_iff ((u.name = none → read.name = current.name) ∧
      (u.description = none → read.description = current.description) ∧
      (u.status = none → read.status = current.status))
    ⟨fun h => ⟨h.1, h.2.1, h.2.2⟩, fun h => ⟨h.name, h.description, h.status⟩⟩

theorem Agrees.set_eq {u : FieldUpdate} {read current : EditableFields} (h : u.Agrees read current) :
    u.set read = u.set current := by
  obtain ⟨hname, hdescription, hstatus⟩ := h
  obtain ⟨call, name, description, status⟩ := u
  have hn : name.getD read.name = name.getD current.name := by
    cases name with
    | none => exact hname rfl
    | some _ => rfl
  have hd : (description <|> read.description) = (description <|> current.description) := by
    cases description with
    | none => simpa using hdescription rfl
    | some _ => rfl
  have hs : status.getD read.status = status.getD current.status := by
    cases status with
    | none => exact hstatus rfl
    | some _ => rfl
  simp only [set, hn, hd, hs]

end FieldUpdate

def Group.editable (r : Group) : EditableFields := ⟨r.groupName, r.description, r.status⟩

def Role.editable (r : Role) : EditableFields := ⟨r.roleName, r.description, r.status⟩

def Database.groupFields (db : Database) (tenantId groupId : Uuid) : Option EditableFields :=
  (db.groupRow? tenantId groupId).map Group.editable

def Database.roleFields (db : Database) (tenantId roleId : Uuid) : Option EditableFields :=
  (db.roleRow? tenantId roleId).map Role.editable

/-! ## What one commit writes -/

theorem groupFields_updateGroup (db : Database) (tenantId groupId : Uuid) (fields : EditableFields)
    (now : Instant) :
    (Write.apply db (.updateGroup tenantId groupId fields.name fields.description fields.status
      now)).groupFields tenantId groupId = (db.groupFields tenantId groupId).map fun _ => fields := by
  simp only [Database.groupFields, Database.groupRow?, Write.apply, RbacTables.updateGroup]
  rw [Table.find?_update (by exact fun _ => rfl), Option.map_map, Option.map_map]
  cases hrow : db.groups.rows.find? fun r =>
      decide (r.tenantId = tenantId ∧ r.groupId = groupId) with
  | none => rfl
  | some row =>
    have hkey := List.find?_some hrow
    simp [Group.editable, of_decide_eq_true hkey]

theorem roleFields_updateRole (db : Database) (tenantId roleId : Uuid) (fields : EditableFields)
    (now : Instant) :
    (Write.apply db (.updateRole tenantId roleId fields.name fields.description fields.status
      now)).roleFields tenantId roleId = (db.roleFields tenantId roleId).map fun _ => fields := by
  simp only [Database.roleFields, Database.roleRow?, Write.apply, RbacTables.updateRole]
  rw [Table.find?_update (by exact fun _ => rfl), Option.map_map, Option.map_map]
  cases hrow : db.roles.rows.find? fun r =>
      decide (r.tenantId = tenantId ∧ r.roleId = roleId) with
  | none => rfl
  | some row =>
    have hkey := List.find?_some hrow
    simp [Role.editable, of_decide_eq_true hkey]

/-- Groups and roles change by the governing writes alone. -/
theorem rbac_of_governing (g : TxProgress) (db : Database) :
    (replayAll g.pending db).toRbacTables = (replayAll (governing g) db).toRbacTables := by
  have hgraph : SameGraph (replayAll g.pending db) (replayAll (governing g) db) := by
    apply (SameGraph.refl db).replayAll_filter
    intro w hw
    exact (Bool.or_eq_false_iff.mp hw).1
  exact hgraph.rbac

/-! ## Runs -/

inductive EditedRow
  | group (tenantId groupId : Uuid)
  | role (tenantId roleId : Uuid)

namespace EditedRow

def fields (row : EditedRow) (db : Database) : Option EditableFields :=
  match row with
  | group tenantId groupId => db.groupFields tenantId groupId
  | role tenantId roleId => db.roleFields tenantId roleId

def update (row : EditedRow) (u : FieldUpdate) : TenantOperation :=
  match row with
  | group tenantId groupId => .updateGroup u.call tenantId groupId u.name u.description u.status
  | role tenantId roleId => .updateRole u.call tenantId roleId u.name u.description u.status

def readBy (row : EditedRow) : StatementName :=
  match row with
  | group _ _ => .getGroup
  | role _ _ => .getRole

def updates (row : EditedRow) (us : List FieldUpdate) (db : Database) : TxState Unit :=
  TenantOperation.overlapping (us.map row.update) db

/-- If the call with this index commits next, the fields that its update leaves alone are
still what it read. -/
def CommitsCurrent (row : EditedRow) (us : List FieldUpdate) (s : TxState Unit) (i : Nat) : Prop :=
  match us[i]?, s.calls[i]? with
  | some u, some c => c.committing = true → ∀ e ∈ c.progress.history, e.label = row.readBy →
      ∀ read ∈ row.fields e.committed, ∀ current ∈ row.fields s.committed, u.Agrees read current
  | _, _ => True

theorem commitsCurrent_iff {row : EditedRow} {us : List FieldUpdate} {s : TxState Unit} {i : Nat} :
    row.CommitsCurrent us s i ↔ ∀ u ∈ us[i]?, ∀ c ∈ s.calls[i]?, c.committing = true →
      ∀ e ∈ c.progress.history, e.label = row.readBy →
        ∀ read ∈ row.fields e.committed, ∀ current ∈ row.fields s.committed,
          u.Agrees read current := by
  unfold CommitsCurrent
  cases us[i]? <;> cases s.calls[i]? <;> simp

instance (row : EditedRow) (us : List FieldUpdate) (s : TxState Unit) (i : Nat) :
    Decidable (row.CommitsCurrent us s i) :=
  decidable_of_iff _ commitsCurrent_iff.symm

def applied (us : List FieldUpdate) (i : Nat) (fields : Option EditableFields) :
    Option EditableFields :=
  match us[i]? with
  | some u => fields.map u.set
  | none => fields

/-- A commit writes the fields it read with its own arguments set. -/
theorem fields_of_effect {row : EditedRow} {u : FieldUpdate} {g : TxProgress}
    (h : (row.update u).Effect g) : ∃ read, (Saw g row.readBy fun db => row.fields db = some read) ∧
      ∀ db, row.fields (replayAll g.pending db) = (row.fields db).map fun _ => u.set read := by
  cases row with
  | group tenantId groupId =>
    obtain ⟨current, ⟨e, he, hlabel, hread⟩, hgoverning, _⟩ := h
    refine ⟨current.editable, ⟨e, he, hlabel, ?_⟩, ?_⟩
    · simp only [fields, Database.groupFields, hread, Option.map_some]
    · intro db
      have hrbac := rbac_of_governing g db
      rw [hgoverning] at hrbac
      have hwritten := groupFields_updateGroup db tenantId groupId (u.set current.editable) u.call.now
      simp only [fields, Database.groupFields, Database.groupRow?] at hwritten ⊢
      rw [hrbac]
      exact hwritten
  | role tenantId roleId =>
    obtain ⟨current, ⟨e, he, hlabel, hread⟩, hgoverning, _⟩ := h
    refine ⟨current.editable, ⟨e, he, hlabel, ?_⟩, ?_⟩
    · simp only [fields, Database.roleFields, hread, Option.map_some]
    · intro db
      have hrbac := rbac_of_governing g db
      rw [hgoverning] at hrbac
      have hwritten := roleFields_updateRole db tenantId roleId (u.set current.editable) u.call.now
      simp only [fields, Database.roleFields, Database.roleRow?] at hwritten ⊢
      rw [hrbac]
      exact hwritten

/-- A commit that finds its read current applies its update to the committed row. -/
theorem fields_of_commit {row : EditedRow} {us : List FieldUpdate} {s t : TxState Unit} {i : Nat}
    (hs : s.Upholds (TenantOperation.contract (us.map row.update)))
    (hok : row.CommitsCurrent us s i) (hstep : s.step RowLock.conflicts i = some t)
    (hi : s.commitsNext i = true) :
    row.fields t.committed = applied us i (row.fields s.committed) := by
  obtain ⟨c, c', hc, ha, _⟩ := State.step_cases hstep
  have hcommit : c.committing = true := by simpa [State.commitsNext, hc] using hi
  obtain ⟨op, hop, heffect⟩ := ((hs i c hc).advance ha).2 hcommit
  have hcommitted : t.committed = replayAll c.progress.pending s.committed := by
    rcases State.committed_of_advance ha with ⟨hnot, _⟩ | ⟨_, hdb⟩
    · rw [hcommit] at hnot
      cases hnot
    · exact hdb
  rw [List.getElem?_map] at hop
  obtain ⟨u, hu, rfl⟩ := Option.map_eq_some_iff.mp hop
  obtain ⟨read, ⟨e, he, hlabel, hread⟩, hwritten⟩ := fields_of_effect heffect
  simp only [CommitsCurrent, hu, hc] at hok
  simp only [applied, hu]
  rw [hcommitted, hwritten]
  cases hcurrent : row.fields s.committed with
  | none => rfl
  | some current =>
    have hagrees := hok hcommit e he hlabel read hread current hcurrent
    simp only [Option.map_some, hagrees.set_eq]

/-- In a run whose commits are all current, the fields of a group, and likewise of a role, end
as if the committed updates had been applied one after another in commit order. -/
theorem updates_apply_in_commit_order (row : EditedRow) (us : List FieldUpdate) (db : Database)
    (schedule : List Nat) (t : TxState Unit)
    (hcurrent : (row.updates us db).Meets RowLock.conflicts (row.CommitsCurrent us) schedule)
    (hrun : (row.updates us db).run RowLock.conflicts schedule = some t) :
    row.fields t.committed = ((row.updates us db).commitOrder RowLock.conflicts schedule).foldl
      (fun fields i => applied us i fields) (row.fields db) := by
  have hstart := TenantOperation.upholds_overlapping (us.map row.update) db
  refine State.observe_of_run ?_ ?_ hstart hcurrent hrun
  · intro s t i hs hstep
    exact hs.step hstep
  · intro s t i hs hok hstep hi
    exact fields_of_commit hs hok hstep hi

/-- One administrator renames the team while another deactivates it. -/
def renameAndDeactivate : List FieldUpdate :=
  [⟨⟨"admin", "first", 1, "", "audit-1"⟩, some "Crew", none, none⟩,
    ⟨⟨"admin", "second", 2, "", "audit-2"⟩, none, none, some .inactive⟩]

/-- One after the other, both updates stand. -/
theorem rename_before_deactivation : ∃ t : TxState Unit,
    ((group "tenant" "group").updates renameAndDeactivate TenantOperation.teamDatabase).run
      RowLock.conflicts [0, 0, 0, 0, 0, 1, 1, 1, 1, 1] = some t ∧
    t.committed.groupFields "tenant" "group" = some ⟨"Crew", none, .inactive⟩ := by
  have hsome : (((group "tenant" "group").updates renameAndDeactivate
      TenantOperation.teamDatabase).run RowLock.conflicts
        [0, 0, 0, 0, 0, 1, 1, 1, 1, 1]).isSome = true := by
    decide +kernel
  obtain ⟨t, ht⟩ := Option.isSome_iff_exists.mp hsome
  have happlied := updates_apply_in_commit_order (group "tenant" "group") renameAndDeactivate
    TenantOperation.teamDatabase [0, 0, 0, 0, 0, 1, 1, 1, 1, 1] t (by decide +kernel) ht
  refine ⟨t, ht, happlied.trans ?_⟩
  decide +kernel

/-- The rename read the group before the deactivation and writes its old status back. -/
theorem rename_reactivates_group : ¬ ∀ (row : EditedRow) (us : List FieldUpdate) (db : Database)
    (schedule : List Nat) (t : TxState Unit),
    (row.updates us db).run RowLock.conflicts schedule = some t →
    row.fields t.committed = ((row.updates us db).commitOrder RowLock.conflicts schedule).foldl
      (fun fields i => applied us i fields) (row.fields db) := by
  intro hclaim
  have hrun : (((group "tenant" "group").updates renameAndDeactivate
      TenantOperation.teamDatabase).run RowLock.conflicts [0, 1, 1, 1, 1, 1, 0, 0, 0, 0]).map
        (fun t => decide ((group "tenant" "group").fields t.committed =
          some ⟨"Crew", none, .active⟩)) = some true := by
    decide +kernel
  obtain ⟨t, ht, hfields⟩ := Option.map_eq_some_iff.mp hrun
  have happlied := hclaim _ _ _ _ t ht
  rw [of_decide_eq_true hfields] at happlied
  revert happlied
  decide +kernel

end EditedRow

end VerigenceSecurity
