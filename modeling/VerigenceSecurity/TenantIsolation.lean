import VerigenceSecurity.OverlappingOperations

/-! # Isolation of the tenants

Every write of a tenant operation names the operation's tenant: inserted rows carry it,
and updates and deletions select on it. So the rows of the other tenants stay as they
are, and with them the permissions of their users.
-/

namespace VerigenceSecurity
set_option autoImplicit false

open Transaction Relational Program

/-! ## The rows of a tenant -/

structure TenantRows where
  roles : List Role
  rolePermissions : List RolePermission
  groups : List Group
  groupMemberships : List GroupMembership
  groupRoleAssignments : List GroupRoleAssignment
  userRoleAssignments : List UserRoleAssignment
  roleTemplateBindings : List RoleTemplateBinding
  privilegedAccessRequests : List PrivilegedAccessRequest
  authorizationStates : List UserTenantAuthorizationState
  tenantMemberships : List TenantMembership

namespace Database

def tenantRows (db : Database) (t : Uuid) : TenantRows where
  roles := db.roles.rows.filter fun r => decide (r.tenantId = t)
  rolePermissions := db.rolePermissions.rows.filter fun r => decide (r.tenantId = t)
  groups := db.groups.rows.filter fun r => decide (r.tenantId = t)
  groupMemberships := db.groupMemberships.rows.filter fun r => decide (r.tenantId = t)
  groupRoleAssignments := db.groupRoleAssignments.rows.filter fun r => decide (r.tenantId = t)
  userRoleAssignments := db.userRoleAssignments.rows.filter fun r => decide (r.tenantId = t)
  roleTemplateBindings := db.roleTemplateBindings.rows.filter fun r => decide (r.tenantId = t)
  privilegedAccessRequests := db.privilegedAccessRequests.rows.filter fun r => decide (r.tenantId = t)
  authorizationStates := db.userTenantAuthorizationState.rows.filter fun r => decide (r.tenantId = t)
  tenantMemberships := db.tenantMemberships.rows.filter fun r => decide (r.tenantId = t)

end Database

structure SameTenant (t : Uuid) (db db' : Database) : Prop where
  rows : db'.tenantRows t = db.tenantRows t
  permissions : db'.permissions = db.permissions
  platformRoles : db'.platformRoles = db.platformRoles
  platformRolePermissions : db'.platformRolePermissions = db.platformRolePermissions
  platformUserRoleAssignments : db'.platformUserRoleAssignments = db.platformUserRoleAssignments

namespace SameTenant

variable {t : Uuid} {db db' db'' : Database}

theorem refl (t : Uuid) (db : Database) : SameTenant t db db := ⟨rfl, rfl, rfl, rfl, rfl⟩

theorem trans (h : SameTenant t db db') (k : SameTenant t db' db'') : SameTenant t db db'' :=
  ⟨k.rows.trans h.rows, k.permissions.trans h.permissions, k.platformRoles.trans h.platformRoles,
    k.platformRolePermissions.trans h.platformRolePermissions,
    k.platformUserRoleAssignments.trans h.platformUserRoleAssignments⟩

theorem exists_of_filter {α : Type} {xs ys : List α} {p : α → Bool} {q : α → Prop}
    (h : ys.filter p = xs.filter p) (hq : ∀ a, q a → p a = true) :
    (∃ a ∈ ys, q a) ↔ ∃ a ∈ xs, q a := by
  have hmem : ∀ a, p a = true → (a ∈ ys ↔ a ∈ xs) := by
    intro a ha
    have hiff : a ∈ ys.filter p ↔ a ∈ xs.filter p := by rw [h]
    simpa [List.mem_filter, ha] using hiff
  constructor
  · rintro ⟨a, ha, hqa⟩
    exact ⟨a, (hmem a (hq a hqa)).mp ha, hqa⟩
  · rintro ⟨a, ha, hqa⟩
    exact ⟨a, (hmem a (hq a hqa)).mpr ha, hqa⟩

/-- The access graph of a tenant is made of its rows and of the platform's tables. -/
theorem accessGraph_eq (h : SameTenant t db db') (now : Instant) :
    db'.accessGraph t now = db.accessGraph t now := by
  have hdirect : db'.DirectRole t now = db.DirectRole t now := by
    funext u r
    exact propext (exists_of_filter (congrArg TenantRows.userRoleAssignments h.rows)
      fun _ ha => decide_eq_true ha.1)
  have hmember : db'.GroupMember t now = db.GroupMember t now := by
    funext u g
    exact propext (exists_of_filter (congrArg TenantRows.groupMemberships h.rows)
      fun _ ha => decide_eq_true ha.1)
  have hgroup : db'.GroupActive t = db.GroupActive t := by
    funext g
    exact propext (exists_of_filter (congrArg TenantRows.groups h.rows)
      fun _ ha => decide_eq_true ha.1)
  have hcarries : db'.GroupRole t = db.GroupRole t := by
    funext g r
    exact propext (exists_of_filter (congrArg TenantRows.groupRoleAssignments h.rows)
      fun _ ha => decide_eq_true ha.1)
  have hrole : db'.RoleActive t = db.RoleActive t := by
    funext r
    exact propext (exists_of_filter (congrArg TenantRows.roles h.rows)
      fun _ ha => decide_eq_true ha.1)
  have hpermission : db'.RoleHasPermission t = db.RoleHasPermission t := by
    funext r key
    exact propext (exists_of_filter (congrArg TenantRows.rolePermissions h.rows)
      fun _ ha => decide_eq_true ha.1)
  unfold Database.accessGraph Database.PermissionActive Database.PlatformPermission
  rw [hdirect, hmember, hgroup, hcarries, hrole, hpermission, h.permissions, h.platformRoles,
    h.platformRolePermissions, h.platformUserRoleAssignments]

theorem effectivePermissions_eq (h : SameTenant t db db') (u : Uuid) (now : Instant) :
    effectivePermissions db' t u now = effectivePermissions db t u now := by
  apply effectivePermissions_congr
  rw [h.accessGraph_eq now]

theorem authorizationVersion_eq (h : SameTenant t db db') (u : Uuid) :
    db'.authorizationVersion t u = db.authorizationVersion t u := by
  have hfind : ∀ d : Database, (d.userTenantAuthorizationState.rows.find? fun r =>
      decide (r.userId = u ∧ r.tenantId = t)) =
        (d.tenantRows t).authorizationStates.find? fun r => decide (r.userId = u) := by
    intro d
    unfold Database.tenantRows
    rw [List.find?_filter]
    congr 1
    funext r
    simp [and_comm]
  unfold Database.authorizationVersion
  rw [hfind, hfind, h.rows]

end SameTenant

/-! ## Writes for one tenant -/

/-- The write is about rows of the tenant, or it is an audit record. -/
def Write.Concerns (t : Uuid) : Write → Prop
  | insertGroup row => row.tenantId = t
  | insertGroupMembership row => row.tenantId = t
  | insertGroupRoleAssignment row => row.tenantId = t
  | insertRole row => row.tenantId = t
  | insertRolePermission row => row.tenantId = t
  | insertUserRoleAssignment row => row.tenantId = t
  | insertPrivilegedAccessRequest row => row.tenantId = t
  | insertRoleTemplateBinding row => row.tenantId = t
  | updateGroup tenantId .. | updateRole tenantId .. | deleteRolePermission tenantId ..
  | endGroupMembership _ tenantId .. | endGroupRoleAssignment _ tenantId ..
  | endUserRoleAssignment _ tenantId .. | bumpAuthorizationVersion tenantId _
  | bumpMembershipVersion tenantId _ | decidePrivilegedAccessRequest tenantId ..
  | supersedeRoleTemplateBindings _ tenantId .. => tenantId = t
  | insertAdminChange _ => True
  | _ => False

/-- A write for one tenant leaves every other tenant as it was. -/
theorem Write.Concerns.sameTenant {t t' : Uuid} {w : Write} (h : w.Concerns t) (hne : t' ≠ t)
    (db : Database) : SameTenant t' db (w.apply db) := by
  have hother : ∀ u : Uuid, u = t → decide (u = t') = false := by
    rintro u rfl
    exact decide_eq_false hne.symm
  cases w with
  | insertGroup row =>
    have hrows : (db.groups.insert row).rows.filter
        (fun r => decide (r.tenantId = t')) = db.groups.rows.filter fun r => decide (r.tenantId = t') :=
      Table.filter_insert (hother _ h)
    exact ⟨congrArg (fun rows => { db.tenantRows t' with groups := rows }) hrows, rfl, rfl, rfl, rfl⟩
  | insertRole row =>
    have hrows : (db.roles.insert row).rows.filter
        (fun r => decide (r.tenantId = t')) = db.roles.rows.filter fun r => decide (r.tenantId = t') :=
      Table.filter_insert (hother _ h)
    exact ⟨congrArg (fun rows => { db.tenantRows t' with roles := rows }) hrows, rfl, rfl, rfl, rfl⟩
  | insertGroupMembership row =>
    have hrows : (db.toRbacTables.insertGroupMembership row).groupMemberships.rows.filter
        (fun r => decide (r.tenantId = t')) =
        db.groupMemberships.rows.filter fun r => decide (r.tenantId = t') := by
      unfold RbacTables.insertGroupMembership
      dsimp only
      split
      · exact Table.filter_insert (hother _ h)
      · rfl
    exact ⟨congrArg (fun rows => { db.tenantRows t' with groupMemberships := rows }) hrows,
      rfl, rfl, rfl, rfl⟩
  | insertGroupRoleAssignment row =>
    have hrows : (db.toRbacTables.insertGroupRoleAssignment row).groupRoleAssignments.rows.filter
        (fun r => decide (r.tenantId = t')) =
        db.groupRoleAssignments.rows.filter fun r => decide (r.tenantId = t') := by
      unfold RbacTables.insertGroupRoleAssignment
      dsimp only
      split
      · exact Table.filter_insert (hother _ h)
      · rfl
    exact ⟨congrArg (fun rows => { db.tenantRows t' with groupRoleAssignments := rows }) hrows,
      rfl, rfl, rfl, rfl⟩
  | insertRolePermission row =>
    have hrows : (db.toRbacTables.insertRolePermission row).rolePermissions.rows.filter
        (fun r => decide (r.tenantId = t')) =
        db.rolePermissions.rows.filter fun r => decide (r.tenantId = t') := by
      unfold RbacTables.insertRolePermission
      dsimp only
      split
      · exact Table.filter_insert (hother _ h)
      · rfl
    exact ⟨congrArg (fun rows => { db.tenantRows t' with rolePermissions := rows }) hrows,
      rfl, rfl, rfl, rfl⟩
  | insertUserRoleAssignment row =>
    have hrows : (db.toRbacTables.insertUserRoleAssignment row).userRoleAssignments.rows.filter
        (fun r => decide (r.tenantId = t')) =
        db.userRoleAssignments.rows.filter fun r => decide (r.tenantId = t') := by
      unfold RbacTables.insertUserRoleAssignment
      dsimp only
      split
      · exact Table.filter_insert (hother _ h)
      · rfl
    exact ⟨congrArg (fun rows => { db.tenantRows t' with userRoleAssignments := rows }) hrows,
      rfl, rfl, rfl, rfl⟩
  | insertPrivilegedAccessRequest row =>
    have hrows : (db.privilegedAccessRequests.insert row).rows.filter
        (fun r => decide (r.tenantId = t')) =
        db.privilegedAccessRequests.rows.filter fun r => decide (r.tenantId = t') :=
      Table.filter_insert (hother _ h)
    exact ⟨congrArg (fun rows => { db.tenantRows t' with privilegedAccessRequests := rows }) hrows,
      rfl, rfl, rfl, rfl⟩
  | insertRoleTemplateBinding row =>
    have hrows : (db.roleTemplateBindings.insert row).rows.filter
        (fun r => decide (r.tenantId = t')) =
        db.roleTemplateBindings.rows.filter fun r => decide (r.tenantId = t') :=
      Table.filter_insert (hother _ h)
    exact ⟨congrArg (fun rows => { db.tenantRows t' with roleTemplateBindings := rows }) hrows,
      rfl, rfl, rfl, rfl⟩
  | updateGroup tenantId groupId groupName description status now =>
    have hrows : (db.toRbacTables.updateGroup tenantId groupId groupName description status
        now).groups.rows.filter (fun r => decide (r.tenantId = t')) =
          db.groups.rows.filter fun r => decide (r.tenantId = t') := by
      refine Table.filter_update fun r hr => ?_
      have hrt := hother _ ((of_decide_eq_true hr).1.trans h)
      exact ⟨hrt, hrt⟩
    exact ⟨congrArg (fun rows => { db.tenantRows t' with groups := rows }) hrows, rfl, rfl, rfl, rfl⟩
  | updateRole tenantId roleId roleName description status now =>
    have hrows : (db.toRbacTables.updateRole tenantId roleId roleName description status
        now).roles.rows.filter (fun r => decide (r.tenantId = t')) =
          db.roles.rows.filter fun r => decide (r.tenantId = t') := by
      refine Table.filter_update fun r hr => ?_
      have hrt := hother _ ((of_decide_eq_true hr).1.trans h)
      exact ⟨hrt, hrt⟩
    exact ⟨congrArg (fun rows => { db.tenantRows t' with roles := rows }) hrows, rfl, rfl, rfl, rfl⟩
  | deleteRolePermission tenantId roleId permissionKey =>
    have hrows : (db.toRbacTables.deleteRolePermission tenantId roleId
        permissionKey).rolePermissions.rows.filter
        (fun r => decide (r.tenantId = t')) =
          db.rolePermissions.rows.filter fun r => decide (r.tenantId = t') :=
      Table.filter_delete fun r hr => hother _ ((of_decide_eq_true hr).1.trans h)
    exact ⟨congrArg (fun rows => { db.tenantRows t' with rolePermissions := rows }) hrows,
      rfl, rfl, rfl, rfl⟩
  | endGroupMembership ids tenantId groupId userId now =>
    have hrows : (db.toRbacTables.endGroupMembership ids tenantId groupId userId
        now).groupMemberships.rows.filter
        (fun r => decide (r.tenantId = t')) =
          db.groupMemberships.rows.filter fun r => decide (r.tenantId = t') := by
      refine Table.filter_update fun r hr => ?_
      have hrt := hother _ ((of_decide_eq_true hr).2.1.trans h)
      exact ⟨hrt, hrt⟩
    exact ⟨congrArg (fun rows => { db.tenantRows t' with groupMemberships := rows }) hrows,
      rfl, rfl, rfl, rfl⟩
  | endGroupRoleAssignment ids tenantId groupId roleId now =>
    have hrows : (db.toRbacTables.endGroupRoleAssignment ids tenantId groupId roleId
        now).groupRoleAssignments.rows.filter
        (fun r => decide (r.tenantId = t')) =
          db.groupRoleAssignments.rows.filter fun r => decide (r.tenantId = t') := by
      refine Table.filter_update fun r hr => ?_
      have hrt := hother _ ((of_decide_eq_true hr).2.1.trans h)
      exact ⟨hrt, hrt⟩
    exact ⟨congrArg (fun rows => { db.tenantRows t' with groupRoleAssignments := rows }) hrows,
      rfl, rfl, rfl, rfl⟩
  | endUserRoleAssignment ids tenantId userId roleId now =>
    have hrows : (db.toRbacTables.endUserRoleAssignment ids tenantId userId roleId
        now).userRoleAssignments.rows.filter
        (fun r => decide (r.tenantId = t')) =
          db.userRoleAssignments.rows.filter fun r => decide (r.tenantId = t') := by
      refine Table.filter_update fun r hr => ?_
      have hrt := hother _ ((of_decide_eq_true hr).2.1.trans h)
      exact ⟨hrt, hrt⟩
    exact ⟨congrArg (fun rows => { db.tenantRows t' with userRoleAssignments := rows }) hrows,
      rfl, rfl, rfl, rfl⟩
  | bumpAuthorizationVersion tenantId userId =>
    have hrows : (Write.apply db (.bumpAuthorizationVersion tenantId
        userId)).userTenantAuthorizationState.rows.filter
        (fun r => decide (r.tenantId = t')) =
          db.userTenantAuthorizationState.rows.filter fun r => decide (r.tenantId = t') := by
      refine Table.filter_upsert (hother _ h) fun r hr => ?_
      have hrt := hother _ ((Database.stateEntry_mem_iff.mp hr).2.trans h)
      exact ⟨hrt, hrt⟩
    exact ⟨congrArg (fun rows => { db.tenantRows t' with authorizationStates := rows }) hrows,
      rfl, rfl, rfl, rfl⟩
  | bumpMembershipVersion tenantId userId =>
    have hrows : (Write.apply db (.bumpMembershipVersion tenantId userId)).tenantMemberships.rows.filter
        (fun r => decide (r.tenantId = t')) =
        db.tenantMemberships.rows.filter fun r => decide (r.tenantId = t') := by
      refine Table.filter_update fun r hr => ?_
      have hrt := hother _ ((of_decide_eq_true hr).1.trans h)
      exact ⟨hrt, hrt⟩
    exact ⟨congrArg (fun rows => { db.tenantRows t' with tenantMemberships := rows }) hrows,
      rfl, rfl, rfl, rfl⟩
  | decidePrivilegedAccessRequest tenantId requestId status approver now reason =>
    have hrows : (Write.apply db (.decidePrivilegedAccessRequest tenantId requestId status approver now
        reason)).privilegedAccessRequests.rows.filter
        (fun r => decide (r.tenantId = t')) =
          db.privilegedAccessRequests.rows.filter fun r => decide (r.tenantId = t') := by
      refine Table.filter_update fun r hr => ?_
      have hrt := hother _ ((of_decide_eq_true hr).1.trans h)
      refine ⟨hrt, ?_⟩
      unfold PrivilegedAccessRequest.decided
      split <;> exact hrt
    exact ⟨congrArg (fun rows => { db.tenantRows t' with privilegedAccessRequests := rows }) hrows,
      rfl, rfl, rfl, rfl⟩
  | supersedeRoleTemplateBindings ids tenantId roleId templateId now =>
    have hrows : (Write.apply db (.supersedeRoleTemplateBindings ids tenantId roleId templateId
        now)).roleTemplateBindings.rows.filter
        (fun r => decide (r.tenantId = t')) =
          db.roleTemplateBindings.rows.filter fun r => decide (r.tenantId = t') := by
      refine Table.filter_update fun r hr => ?_
      have hrt := hother _ ((of_decide_eq_true hr).2.1.trans h)
      exact ⟨hrt, hrt⟩
    exact ⟨congrArg (fun rows => { db.tenantRows t' with roleTemplateBindings := rows }) hrows,
      rfl, rfl, rfl, rfl⟩
  | insertAdminChange => exact ⟨rfl, rfl, rfl, rfl, rfl⟩
  | _ => exact h.elim

/-! ## The operations write for their tenant -/

section Rules

variable {α : Type} {Q : Write → Prop} {t : Uuid}

theorem writes_execute {name : StatementName} {run : Database → Except Failure (Outcome Write RowLock α)}
    (h : ∀ db o, run db = .ok o → ∀ w ∈ o.edits, Q w) : (execute name run : Tx α).Writes Q :=
  (within_execute h).writes

theorem writes_query {name : StatementName} {read : Database → Except Failure α} :
    (query name read : Tx α).Writes Q := within_query.writes

theorem writes_raise (e : Failure) : (raise e : Tx α).Writes Q := trivial

theorem writes_pure (a : α) : (pure a : Tx α).Writes Q := trivial

theorem writes_commitNow : (commitNow : Tx Unit).Writes Q := trivial

theorem writes_rollbackNow : (rollbackNow : Tx Unit).Writes Q := trivial

theorem writes_each {γ : Type} {body : γ → Tx Unit} {xs : List γ} (h : ∀ x, (body x).Writes Q) :
    (each body xs).Writes Q := by
  induction xs with
  | nil => trivial
  | cons x xs ih => exact writes_bind (h x) fun _ => ih

theorem writes_insertRow {ρ : Type} [Row ρ] {name : StatementName} {T : Database → Rows ρ} {row : ρ}
    {references : Database → List Reference} {write : Write} (h : Q write) :
    (execute name fun db => insertRow (T db) row (references db) write).Writes Q := by
  refine writes_execute fun db o ho w hw => ?_
  rw [(insertRow_ok ho).2.2, List.mem_singleton] at hw
  rw [hw]
  exact h

theorem writes_updateWhere {name : StatementName} {relation : Relation} {mode : LockMode}
    {find : Database → List Uuid} {write : List Uuid → Write} (h : ∀ ids, Q (write ids)) :
    (updateWhere name relation mode find write).Writes Q := by
  refine writes_bind writes_query fun found => writes_execute fun db o ho w hw => ?_
  cases ho
  rw [List.mem_singleton.mp hw]
  exact h _

theorem writes_bumpVersions (users : List Uuid) : (bumpVersions t users).Writes (Write.Concerns t) := by
  refine writes_each fun u => writes_execute fun db o ho w hw => ?_
  dsimp only at ho
  split at ho
  · cases ho
  · cases ho
    rw [List.mem_singleton.mp hw]
    rfl

theorem writes_audit (c : AdminCall) (key type id : String) :
    (audit c t key type id).Writes (Write.Concerns t) :=
  writes_insertRow (T := fun db => db.adminChangeRecords) trivial

/-- Bumps, an audit record and the commit, as most operations end. -/
theorem writes_ending {c : AdminCall} {users : List Uuid} {key type id : String} {k : Unit → Tx α}
    (hk : ∀ u, (k u).Writes (Write.Concerns t)) :
    (bumpVersions t users >>= fun _ => audit c t key type id >>= fun _ =>
      commitNow >>= k).Writes (Write.Concerns t) :=
  writes_bind (writes_bumpVersions users) fun _ => writes_bind (writes_audit c key type id) fun _ =>
    writes_bind writes_commitNow hk

theorem writes_removeRow {c : AdminCall} {ended : Tx (List Uuid)} {affected : List Uuid}
    {key type id : String} (h : ended.Writes (Write.Concerns t)) :
    (removeRow c t ended affected key type id).Writes (Write.Concerns t) := by
  refine writes_bind h fun ids => ?_
  split
  · exact writes_bind writes_rollbackNow fun _ => writes_pure _
  · exact writes_ending fun _ => writes_pure _

theorem writes_ensureActivePermissions (keys : List String) :
    (each ensureActivePermission keys).Writes Q := writes_each fun _ => writes_query

theorem writes_insertUserRole (c : AdminCall) (u r assignedBy : Uuid) :
    (insertUserRole c t u r assignedBy).Writes (Write.Concerns t) :=
  writes_insertRow (T := fun db => db.userRoleAssignments) rfl

theorem writes_bindTemplate {c : AdminCall} {bindingId r : Uuid} {template : Template}
    (hbind : ∀ row, row.tenantId = t → Q (.insertRoleTemplateBinding row))
    (hbump : ∀ u, Q (.bumpAuthorizationVersion t u)) :
    (bindTemplate c bindingId t r template).Writes Q := by
  refine writes_execute fun db o ho w hw => ?_
  rw [insertBinding_ok ho] at hw
  rcases List.mem_cons.mp hw with rfl | hw
  · exact hbind _ rfl
  · obtain ⟨u, _, rfl⟩ := List.mem_map.mp hw
    exact hbump u

theorem writes_templates (keys : List String) : (templates keys).Writes Q := by
  induction keys with
  | nil => trivial
  | cons key keys ih =>
    exact writes_bind writes_query fun _ => writes_bind ih fun _ => writes_pure _

theorem writes_rollbackAndRaise (e : Failure) : (rollbackAndRaise e : Tx α).Writes Q := trivial

theorem writes_insertRequest (c : AdminCall) (u r : Uuid) :
    (insertRequest c t u r).Writes (Write.Concerns t) := by
  refine writes_bind ?_ fun _ => writes_bind (writes_audit c _ _ _) fun _ => writes_commitNow
  exact writes_insertRow (T := fun db => db.privilegedAccessRequests) rfl

theorem writes_onIntegrityError {found : Tx (Option α)} (h : found.Writes Q) (e : Failure) :
    (onIntegrityError found e).Writes Q := by
  unfold onIntegrityError
  split
  · refine writes_bind writes_rollbackNow fun _ => writes_bind h fun result => ?_
    split
    · exact writes_raise _
    · exact writes_pure _
  · exact writes_raise _

theorem writes_adminAssignUserRole (c : AdminCall) (u r : Uuid) :
    (adminAssignUserRole c t u r).Writes (Write.Concerns t) := by
  refine writes_bind writes_query fun active => ?_
  split
  · exact writes_raise _
  · refine writes_bind writes_query fun activeRole => ?_
    split
    · exact writes_raise _
    · refine writes_bind writes_query fun exists? => ?_
      split
      · exact writes_pure _
      · exact writes_bind (writes_insertUserRole c u r _) fun _ => writes_ending fun _ => writes_pure _

theorem writes_assignUserRole (c : AdminCall) (innerNow : Instant) (u r : Uuid) :
    (assignUserRole c innerNow t u r).Writes (Write.Concerns t) := by
  refine writes_bind writes_query fun found => ?_
  split
  · exact writes_raise _
  · exact writes_raise _
  · split
    · exact writes_adminAssignUserRole _ u r
    · refine writes_bind writes_query fun active => ?_
      split
      · exact writes_raise _
      · refine writes_bind writes_query fun assigned => ?_
        split
        · exact writes_bind writes_rollbackNow fun _ => writes_pure _
        · refine writes_bind writes_query fun pending => ?_
          split
          · exact writes_bind writes_rollbackNow fun _ => writes_pure _
          · refine writes_attempt ?_ (writes_onIntegrityError ?_)
            · exact writes_bind (writes_insertRequest c u r) fun _ => writes_pure _
            · exact writes_bind writes_query fun _ => writes_pure _

theorem writes_requestOrAssignUserRole (c : AdminCall) (gateNow innerNow : Instant) (u r : Uuid) :
    (requestOrAssignUserRole c gateNow innerNow t u r).Writes (Write.Concerns t) := by
  refine writes_bind writes_query fun active => ?_
  split
  · exact writes_raise _
  · refine writes_bind writes_query fun found => ?_
    split
    · exact writes_raise _
    · exact writes_raise _
    · split
      · exact writes_bind (writes_assignUserRole _ innerNow u r) fun _ => writes_pure _
      · refine writes_bind writes_query fun assigned => ?_
        split
        · exact writes_bind writes_rollbackNow fun _ => writes_pure _
        · refine writes_bind writes_query fun pending => ?_
          split
          · exact writes_bind writes_rollbackNow fun _ => writes_pure _
          · refine writes_attempt ?_ (writes_onIntegrityError ?_)
            · exact writes_bind (writes_insertRequest c u r) fun _ => writes_pure _
            · exact writes_bind writes_query fun _ => writes_pure _

theorem writes_lockedRequest (request : Uuid) : (lockedRequest t request).Writes Q := by
  refine writes_execute fun db o ho w hw => ?_
  split at ho
  · cases ho
  · cases ho
    exact absurd hw List.not_mem_nil

theorem writes_recordDecision (c : AdminCall) (request : Uuid) (roleKey : String)
    (status : RequestStatus) (reason : Option String) (key : String) :
    (recordDecision c t request roleKey status reason key).Writes (Write.Concerns t) := by
  refine writes_bind (writes_execute ?_) fun _ => writes_bind (writes_audit c _ _ _) fun _ =>
    writes_bind writes_commitNow fun _ => writes_bind writes_query fun _ => writes_pure _
  intro db o ho w hw
  split at ho
  · cases ho
  · cases ho
    rw [List.mem_singleton.mp hw]
    rfl

theorem writes_approve (c : AdminCall) (request : Uuid) (reason : Option String) :
    (approve c t request reason).Writes (Write.Concerns t) := by
  refine writes_bind (writes_lockedRequest request) fun found => ?_
  split
  · exact writes_raise _
  · refine writes_bind writes_query fun active => ?_
    split
    · exact writes_raise _
    · refine writes_bind writes_query fun activeRole => ?_
      split
      · exact writes_raise _
      · refine writes_bind writes_query fun exists? => ?_
        split
        · exact writes_recordDecision c request _ _ reason _
        · exact writes_bind (writes_insertUserRole c _ _ _) fun _ =>
            writes_bind (writes_bumpVersions _) fun _ => writes_recordDecision c request _ _ reason _

theorem writes_reject (c : AdminCall) (request : Uuid) (reason : Option String) :
    (reject c t request reason).Writes (Write.Concerns t) := by
  refine writes_bind (writes_lockedRequest request) fun found => ?_
  split
  · exact writes_raise _
  · exact writes_recordDecision c request _ _ reason _

end Rules

namespace TenantOperation

def tenantId : TenantOperation → Uuid
  | assignUserRole _ _ t .. | requestOrAssignUserRole _ _ _ t .. | approve _ t .. | reject _ t ..
  | removeUserRole _ t .. | createGroup _ t .. | updateGroup _ t .. | addGroupMember _ t ..
  | removeGroupMember _ t .. | assignGroupRole _ t .. | removeGroupRole _ t .. | createRole _ t ..
  | createTemplateRole _ _ t .. | updateRole _ t .. | addRolePermission _ t ..
  | removeRolePermission _ t .. | upgradeTemplate _ t .. => t

theorem writes_discard {α : Type} {Q : Write → Prop} {p : Tx α} (h : p.Writes Q) :
    (discard p).Writes Q := writes_bind h fun _ => writes_pure _

/-- Every write of an operation is for its tenant. -/
theorem writes_tenant (op : TenantOperation) : op.program.Writes (Write.Concerns op.tenantId) := by
  cases op with
  | assignUserRole c innerNow t u r => exact writes_discard (writes_assignUserRole c innerNow u r)
  | requestOrAssignUserRole c gateNow innerNow t u r =>
    exact writes_discard (writes_requestOrAssignUserRole c gateNow innerNow u r)
  | approve c t request reason => exact writes_discard (writes_approve c request reason)
  | reject c t request reason => exact writes_discard (writes_reject c request reason)
  | removeUserRole c t u r =>
    exact writes_discard (writes_removeRow (writes_updateWhere fun _ => rfl))
  | createGroup c t key name description =>
    refine writes_discard (writes_bind (writes_insertRow (T := fun db => db.groups) rfl) fun _ =>
      writes_bind (writes_audit c _ _ _) fun _ => writes_bind writes_commitNow fun _ =>
        writes_bind writes_query fun group => ?_)
    split
    · exact writes_raise _
    · exact writes_pure _
  | updateGroup c t gid name description status =>
    refine writes_discard (writes_bind writes_query fun found => ?_)
    split
    · exact writes_pure _
    · refine writes_bind writes_query fun affected => writes_bind (writes_execute ?_) fun _ =>
        writes_ending fun _ => writes_query
      intro db o ho w hw
      cases ho
      rw [List.mem_singleton.mp hw]
      rfl
  | addGroupMember c t gid u =>
    refine writes_discard (writes_bind writes_query fun activeGroup => ?_)
    split
    · exact writes_raise _
    · refine writes_bind writes_query fun active => ?_
      split
      · exact writes_raise _
      · refine writes_bind writes_query fun existing => ?_
        split
        · exact writes_pure _
        · exact writes_bind (writes_insertRow (T := fun db => db.groupMemberships) rfl) fun _ =>
            writes_ending fun _ => writes_pure _
  | removeGroupMember c t gid u =>
    exact writes_discard (writes_removeRow (writes_updateWhere fun _ => rfl))
  | assignGroupRole c t gid r =>
    refine writes_discard (writes_bind writes_query fun activeGroup => ?_)
    split
    · exact writes_raise _
    · refine writes_bind writes_query fun activeRole => ?_
      split
      · exact writes_raise _
      · refine writes_bind writes_query fun existing => ?_
        split
        · exact writes_pure _
        · exact writes_bind (writes_insertRow (T := fun db => db.groupRoleAssignments) rfl) fun _ =>
            writes_bind writes_query fun _ => writes_ending fun _ => writes_pure _
  | removeGroupRole c t gid r =>
    exact writes_discard (writes_bind writes_query fun _ =>
      writes_removeRow (writes_updateWhere fun _ => rfl))
  | createRole c t key name description keys =>
    refine writes_discard ?_
    unfold VerigenceSecurity.createRole
    split
    · exact writes_raise _
    · refine writes_bind (writes_ensureActivePermissions keys) fun _ =>
        writes_bind (writes_insertRow (T := fun db => db.roles) rfl) fun _ => writes_bind ?_ fun _ =>
          writes_bind (writes_audit c _ _ _) fun _ => writes_bind writes_commitNow fun _ =>
            writes_bind writes_query fun role => ?_
      · exact writes_each fun _ => writes_insertRow (T := fun db => db.rolePermissions) rfl
      · split
        · exact writes_raise _
        · exact writes_pure _
  | createTemplateRole c bindingId t key name description templateKeys keys =>
    refine writes_discard ?_
    unfold VerigenceSecurity.createTemplateRole
    split
    · exact writes_raise _
    · refine writes_bind (writes_templates templateKeys) fun found =>
        writes_bind (writes_ensureActivePermissions _) fun _ => writes_bind ?_ fun _ => writes_query
      refine writes_attempt ?_ writes_rollbackAndRaise
      refine writes_bind (writes_insertRow (T := fun db => db.roles) rfl) fun _ =>
        writes_bind ?_ fun _ => writes_bind ?_ fun _ => writes_bind (writes_audit c _ _ _) fun _ =>
          writes_commitNow
      · exact writes_each fun _ => writes_insertRow (T := fun db => db.rolePermissions) rfl
      · exact writes_each fun _ => writes_bindTemplate (fun _ ht => ht) fun _ => rfl
  | updateRole c t r name description status =>
    refine writes_discard (writes_bind writes_query fun found => ?_)
    split
    · exact writes_pure _
    · refine writes_bind writes_query fun affected => writes_bind (writes_execute ?_) fun _ =>
        writes_ending fun _ => writes_query
      intro db o ho w hw
      cases ho
      rw [List.mem_singleton.mp hw]
      rfl
  | addRolePermission c t r p =>
    refine writes_discard (writes_bind writes_query fun _ => writes_bind writes_query fun activeRole => ?_)
    split
    · exact writes_raise _
    · refine writes_bind writes_query fun exists? => ?_
      split
      · exact writes_pure _
      · exact writes_bind (writes_insertRow (T := fun db => db.rolePermissions) rfl) fun _ =>
          writes_bind writes_query fun _ => writes_ending fun _ => writes_pure _
  | removeRolePermission c t r p =>
    refine writes_discard (writes_bind writes_query fun _ => writes_removeRow (writes_execute ?_))
    intro db o ho w hw
    cases ho
    rw [List.mem_singleton.mp hw]
    rfl
  | upgradeTemplate c t r key =>
    refine writes_discard (writes_bind writes_query fun template =>
      writes_bind (writes_ensureActivePermissions _) fun _ => writes_bind writes_query fun users =>
        writes_bind (writes_attempt ?_ writes_rollbackAndRaise) fun _ => writes_query)
    refine writes_bind writes_query fun role => ?_
    split
    · exact writes_raise _
    · refine writes_bind (writes_each fun key => writes_execute ?_) fun _ =>
        writes_bind (writes_updateWhere fun _ => rfl) fun _ =>
          writes_bind (writes_bindTemplate (fun _ ht => ht) fun _ => rfl) fun _ =>
            writes_bind (writes_each fun u => writes_execute ?_) fun _ =>
              writes_bind (writes_audit c _ _ _) fun _ => writes_commitNow
      · intro db o ho w hw
        dsimp only at ho
        split at ho
        · cases ho
          exact absurd hw List.not_mem_nil
        · rw [(insertRow_ok ho).2.2, List.mem_singleton] at hw
          rw [hw]
          rfl
      · intro db o ho w hw
        cases ho
        rw [List.mem_singleton.mp hw]
        rfl

end TenantOperation

/-- An operation for one tenant leaves the rows of every other tenant alone, and with them the
versions and the permissions of its users. -/
theorem tenant_operation_isolated (op : TenantOperation) (db : Database) (t : Uuid)
    (hne : t ≠ op.tenantId) :
    (op.result db).tenantRows t = db.tenantRows t ∧
      (∀ u, (op.result db).authorizationVersion t u = db.authorizationVersion t u) ∧
      ∀ u now, effectivePermissions (op.result db) t u now = effectivePermissions db t u now := by
  have hsame : SameTenant t db (op.result db) := by
    refine (op.writes_tenant.exec (R := SameTenant t db) ?_ (s := ⟨db, db⟩) ?_ ?_).2
    · exact fun w d hw hd => hd.trans (hw.sameTenant hne d)
    · exact SameTenant.refl t db
    · exact SameTenant.refl t db
  exact ⟨hsame.rows, hsame.authorizationVersion_eq, hsame.effectivePermissions_eq⟩

def twoTenants : Database :=
  { TenantOperation.teamDatabase with
    tenants := TenantOperation.teamDatabase.tenants.insert ⟨"other", "OTHER", "Other", .active, 0, 0⟩ }

/-- The other tenant creates a group with the key of the team. -/
theorem other_tenant_group_isolated :
    let op := TenantOperation.createGroup ⟨"admin", "first", 0, "other-group", "audit"⟩ "other" "team"
      "Team" none
    (op.result twoTenants).groups.rows.map (·.groupId) = ["group", "other-group"] ∧
      (op.result twoTenants).tenantRows "tenant" = twoTenants.tenantRows "tenant" ∧
      (∀ u, (op.result twoTenants).authorizationVersion "tenant" u =
        twoTenants.authorizationVersion "tenant" u) ∧
      ∀ u now, effectivePermissions (op.result twoTenants) "tenant" u now =
        effectivePermissions twoTenants "tenant" u now :=
  ⟨by decide +kernel, tenant_operation_isolated _ twoTenants "tenant" (by decide)⟩

end VerigenceSecurity
