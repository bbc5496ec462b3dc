import VerigenceSecurity.Permissions

/-! # Tenant RBAC administration

`TenantRbacAdminService` as the gate service runs it: the membership test, the
version bump and the affected-user queries are the overrides of
`TenantRbacGateService`. An operation that reads the clock takes the reading as
an argument, and so are the UUIDs it draws.
-/

namespace VerigenceSecurity
set_option autoImplicit false

open Transaction Program

/-- What a call brings from outside: its actor, its clock reading and fresh UUIDs. -/
structure AdminCall where
  actorUserId : Uuid
  correlationId : String
  now : Instant
  newId : Uuid
  auditId : Uuid

/-! ## Queries of the gate service -/

namespace Database

def activeUser (db : Database) (userId : Uuid) : Bool :=
  (db.users.rows.any fun u => decide (u.userId = userId ∧ u.status = .active)) &&
    db.securityPrincipals.rows.any fun p => decide (p.principalId = userId ∧ p.status = .active)

def effectiveGroupUsers (db : Database) (tenantId groupId : Uuid) (now : Instant) : List Uuid :=
  ((db.groupMemberships.rows.filter fun gm => decide (gm.tenantId = tenantId ∧
      gm.groupId = groupId ∧ gm.status = .active) && validAt gm.validFrom gm.validTo now).filter
    fun gm => db.activeUser gm.userId).map (·.userId)

def effectiveRoleUsers (db : Database) (tenantId roleId : Uuid) (now : Instant) : List Uuid :=
  let direct := ((db.userRoleAssignments.rows.filter fun ura => decide (ura.tenantId = tenantId ∧
      ura.roleId = roleId ∧ ura.status = .active) && validAt ura.validFrom ura.validTo now).filter
    fun ura => db.activeUser ura.userId).map (·.userId)
  let grouped := (db.groupRoleAssignments.rows.filter fun gra => decide (gra.tenantId = tenantId ∧
      gra.roleId = roleId ∧ gra.status = .active)).flatMap fun gra =>
    (db.groups.rows.filter fun g =>
      decide (g.tenantId = gra.tenantId ∧ g.groupId = gra.groupId ∧ g.status = .active)).flatMap
    fun g => ((db.groupMemberships.rows.filter fun gm => decide (gm.tenantId = g.tenantId ∧
        gm.groupId = g.groupId ∧ gm.status = .active) && validAt gm.validFrom gm.validTo now).filter
      fun gm => db.activeUser gm.userId).map (·.userId)
  (direct ++ grouped).dedup

def groupRow? (db : Database) (tenantId groupId : Uuid) : Option Group :=
  db.groups.rows.find? fun r => decide (r.tenantId = tenantId ∧ r.groupId = groupId)

def roleRow? (db : Database) (tenantId roleId : Uuid) : Option Role :=
  db.roles.rows.find? fun r => decide (r.tenantId = tenantId ∧ r.roleId = roleId)

def activeGroup (db : Database) (tenantId groupId : Uuid) : Bool :=
  db.groups.rows.any fun r =>
    decide (r.tenantId = tenantId ∧ r.groupId = groupId ∧ r.status = .active)

def activeRole (db : Database) (tenantId roleId : Uuid) : Bool :=
  db.roles.rows.any fun r =>
    decide (r.tenantId = tenantId ∧ r.roleId = roleId ∧ r.status = .active)

def activeUserRole (db : Database) (tenantId userId roleId : Uuid) : Bool :=
  db.userRoleAssignments.rows.any fun r =>
    decide (r.tenantId = tenantId ∧ r.userId = userId ∧ r.roleId = roleId ∧ r.status = .active)

def permissionStatus (db : Database) (permissionKey : String) : Option LifecycleStatus :=
  (db.permissions.rows.find? fun r => decide (r.permissionKey = permissionKey)).map (·.status)

/-- The lock of an authorization-state row, or of its index entry when it is new. -/
def bumpLock (db : Database) (tenantId userId : Uuid) : RowLock :=
  rowLock .userTenantAuthorizationState [userId, tenantId]
    (if db.userTenantAuthorizationState.rows.any
        fun r => decide (r.userId = userId ∧ r.tenantId = tenantId) then .noKeyUpdate else .update)

/-- `authorization_version`, an absent row counting as version 1. -/
def authorizationVersion (db : Database) (tenantId userId : Uuid) : Nat :=
  ((db.userTenantAuthorizationState.rows.find? fun r =>
    decide (r.userId = userId ∧ r.tenantId = tenantId)).map (·.authorizationVersion)).getD 1

end Database

def getGroup (tenantId groupId : Uuid) : Tx (Option Group) :=
  query .getGroup fun db => .ok (db.groupRow? tenantId groupId)

def getRole (tenantId roleId : Uuid) : Tx (Option Role) :=
  query .getRole fun db => .ok (db.roleRow? tenantId roleId)

def activeMembership (userId : Uuid) : Tx Bool :=
  query .activeMembership fun db => .ok (db.activeUser userId)

def ensureActivePermission (permissionKey : String) : Tx Unit :=
  query .ensureActivePermission fun db =>
    if db.permissionStatus permissionKey = some .active then .ok ()
    else .error (.valueError ("Permission is not ACTIVE: " ++ permissionKey))

def bumpVersion (tenantId userId : Uuid) : Tx Unit :=
  execute .bumpVersion fun db =>
    let references := [db.userReference userId, db.tenantReference tenantId]
    if (db.bumpLock tenantId userId).mode = .update ∧ references.all (·.present) = false then
      .error (.integrityError .foreignKey)
    else .ok {
      value := ()
      edits := [.bumpAuthorizationVersion tenantId userId]
      locks := db.bumpLock tenantId userId :: references.map Reference.lock }

def bumpVersions (tenantId : Uuid) (userIds : List Uuid) : Tx Unit :=
  each (bumpVersion tenantId) (sortedSet userIds)

def auditRow (c : AdminCall) (tenantId : Uuid) (operationKey resourceType resourceId : String) :
    AdminChangeRecord where
  adminChangeId := c.auditId
  correlationId := c.correlationId
  scopeType := .tenant
  tenantId := some tenantId
  actorUserId := c.actorUserId
  operationKey := operationKey
  resourceType := resourceType
  resourceId := resourceId
  occurredAt := c.now

def audit (c : AdminCall) (tenantId : Uuid) (operationKey resourceType resourceId : String) : Tx Unit :=
  execute .audit fun db =>
    let row := auditRow c tenantId operationKey resourceType resourceId
    insertRow db.adminChangeRecords row
      [db.tenantReference tenantId, db.userReference c.actorUserId] (.insertAdminChange row)

/-- The audit records of the platform's own operations have no tenant. -/
def platformAudit (c : AdminCall) (operationKey resourceType resourceId : String) : Tx Unit :=
  execute .audit fun db =>
    let row : AdminChangeRecord := {
      auditRow c "" operationKey resourceType resourceId with
      scopeType := .platform
      tenantId := none }
    insertRow db.adminChangeRecords row [db.userReference c.actorUserId] (.insertAdminChange row)

/-! ## Groups -/

def createGroup (c : AdminCall) (tenantId : Uuid) (groupKey groupName : String)
    (description : Option String) : Tx Group := do
  execute .insertGroup fun db =>
    let row : Group := ⟨c.newId, tenantId, groupKey, groupName, description, .active, c.now, c.now⟩
    insertRow db.groups row [db.tenantReference tenantId, db.userReference c.actorUserId]
      (.insertGroup row)
  audit c tenantId "security.group.create" "GROUP" c.newId
  commitNow
  match ← getGroup tenantId c.newId with
  | none => raise (.runtimeError "Created group could not be reloaded")
  | some group => pure group

def updateGroup (c : AdminCall) (tenantId groupId : Uuid) (groupName description : Option String)
    (status : Option ActiveStatus) : Tx (Option Group) := do
  match ← getGroup tenantId groupId with
  | none => pure none
  | some current =>
    let affectedUsers ← query .effectiveGroupUsers fun db =>
      .ok (db.effectiveGroupUsers tenantId groupId c.now)
    let newStatus := status.getD current.status
    execute .updateGroup fun _ => .ok {
      value := ()
      edits := [.updateGroup tenantId groupId (groupName.getD current.groupName)
        (description <|> current.description) newStatus c.now]
      locks := [rowLock .groups [groupId] .noKeyUpdate] }
    bumpVersions tenantId (if current.status ≠ newStatus then affectedUsers else [])
    audit c tenantId "security.group.update" "GROUP" groupId
    commitNow
    getGroup tenantId groupId

def addGroupMember (c : AdminCall) (tenantId groupId userId : Uuid) : Tx Bool := do
  let activeGroup ← query .activeGroup fun db => .ok (db.activeGroup tenantId groupId)
  if !activeGroup then raise (.valueError "Group must be ACTIVE")
  else
    let active ← activeMembership userId
    if !active then raise (.valueError "User must have an ACTIVE Tenant membership")
    else
      let existing ← query .existingGroupMembership fun db =>
        .ok (db.groupMemberships.rows.any fun r => decide (r.tenantId = tenantId ∧
          r.groupId = groupId ∧ r.userId = userId ∧ r.status = .active))
      if existing then pure false
      else
        execute .insertGroupMembership fun db =>
          let row : GroupMembership :=
            ⟨c.newId, tenantId, groupId, userId, .active, some c.now, none, c.actorUserId, none⟩
          insertRow db.groupMemberships row [db.tenantReference tenantId,
            db.groupReference tenantId groupId, db.userReference userId,
            db.userReference c.actorUserId] (.insertGroupMembership row)
        bumpVersions tenantId [userId]
        audit c tenantId "security.group.member.add" "GROUP_MEMBERSHIP" (groupId ++ ":" ++ userId)
        commitNow
        pure true

/-- The three removals end the `ACTIVE` row and bump, or roll back when there is none. -/
def removeRow (c : AdminCall) (tenantId : Uuid) (ended : Tx (List Uuid)) (affected : List Uuid)
    (operationKey resourceType resourceId : String) : Tx Bool := do
  let ids ← ended
  if ids = [] then
    rollbackNow
    pure false
  else
    bumpVersions tenantId affected
    audit c tenantId operationKey resourceType resourceId
    commitNow
    pure true

def removeGroupMember (c : AdminCall) (tenantId groupId userId : Uuid) : Tx Bool :=
  removeRow c tenantId
    (updateWhere .endGroupMembership .groupMemberships .noKeyUpdate
      (fun db => (db.groupMemberships.rows.filter fun r => decide (r.tenantId = tenantId ∧
        r.groupId = groupId ∧ r.userId = userId ∧ r.status = .active)).map (·.groupMembershipId))
      (.endGroupMembership · tenantId groupId userId c.now))
    [userId] "security.group.member.remove" "GROUP_MEMBERSHIP" (groupId ++ ":" ++ userId)

def assignGroupRole (c : AdminCall) (tenantId groupId roleId : Uuid) : Tx Bool := do
  let activeGroup ← query .activeGroup fun db => .ok (db.activeGroup tenantId groupId)
  if !activeGroup then raise (.valueError "Group must be ACTIVE")
  else
    let activeRole ← query .activeRole fun db => .ok (db.activeRole tenantId roleId)
    if !activeRole then raise (.valueError "Role must be ACTIVE")
    else
      let existing ← query .existingGroupRole fun db =>
        .ok (db.groupRoleAssignments.rows.any fun r => decide (r.tenantId = tenantId ∧
          r.groupId = groupId ∧ r.roleId = roleId ∧ r.status = .active))
      if existing then pure false
      else
        execute .insertGroupRole fun db =>
          let row : GroupRoleAssignment :=
            ⟨c.newId, tenantId, groupId, roleId, .active, c.actorUserId, none⟩
          insertRow db.groupRoleAssignments row [db.tenantReference tenantId,
            db.groupReference tenantId groupId, db.roleReference tenantId roleId,
            db.userReference c.actorUserId] (.insertGroupRoleAssignment row)
        let affected ← query .effectiveGroupUsers fun db =>
          .ok (db.effectiveGroupUsers tenantId groupId c.now)
        bumpVersions tenantId affected
        audit c tenantId "security.group.role.assign" "GROUP_ROLE" (groupId ++ ":" ++ roleId)
        commitNow
        pure true

def removeGroupRole (c : AdminCall) (tenantId groupId roleId : Uuid) : Tx Bool := do
  let affected ← query .effectiveGroupUsers fun db =>
    .ok (db.effectiveGroupUsers tenantId groupId c.now)
  removeRow c tenantId
    (updateWhere .endGroupRole .groupRoleAssignments .noKeyUpdate
      (fun db => (db.groupRoleAssignments.rows.filter fun r => decide (r.tenantId = tenantId ∧
        r.groupId = groupId ∧ r.roleId = roleId ∧ r.status = .active)).map (·.assignmentId))
      (.endGroupRoleAssignment · tenantId groupId roleId c.now))
    affected "security.group.role.remove" "GROUP_ROLE" (groupId ++ ":" ++ roleId)

/-! ## Roles -/

def reservedRoleKey (roleKey : String) : Bool :=
  "platform.".toList.isPrefixOf roleKey.toList || "tenant.".toList.isPrefixOf roleKey.toList

def insertRolePermission (tenantId roleId : Uuid) (permissionKey : String) : Tx Unit :=
  execute .insertRolePermission fun db =>
    let row : RolePermission := ⟨tenantId, roleId, permissionKey⟩
    insertRow db.rolePermissions row
      [db.roleReference tenantId roleId, db.permissionReference permissionKey]
      (.insertRolePermission row)

def insertRole (c : AdminCall) (tenantId : Uuid) (roleKey roleName : String)
    (description : Option String) : Tx Unit :=
  execute .insertRole fun db =>
    let row : Role := ⟨c.newId, tenantId, roleKey, roleName, description, .active, c.now, c.now⟩
    insertRow db.roles row [db.tenantReference tenantId] (.insertRole row)

def createRole (c : AdminCall) (tenantId : Uuid) (roleKey roleName : String)
    (description : Option String) (permissionKeys : List String) : Tx Role := do
  if reservedRoleKey roleKey then raise (.valueError "Reserved role key")
  else
    each ensureActivePermission permissionKeys
    insertRole c tenantId roleKey roleName description
    each (insertRolePermission tenantId c.newId) permissionKeys
    audit c tenantId "security.role.create" "ROLE" c.newId
    commitNow
    match ← getRole tenantId c.newId with
    | none => raise (.runtimeError "Created role could not be reloaded")
    | some role => pure role

def updateRole (c : AdminCall) (tenantId roleId : Uuid) (roleName description : Option String)
    (status : Option ActiveStatus) : Tx (Option Role) := do
  match ← getRole tenantId roleId with
  | none => pure none
  | some current =>
    let affected ← query .effectiveRoleUsers fun db =>
      .ok (db.effectiveRoleUsers tenantId roleId c.now)
    let newStatus := status.getD current.status
    execute .updateRole fun _ => .ok {
      value := ()
      edits := [.updateRole tenantId roleId (roleName.getD current.roleName)
        (description <|> current.description) newStatus c.now]
      locks := [rowLock .roles [roleId] .noKeyUpdate] }
    bumpVersions tenantId (if current.status ≠ newStatus then affected else [])
    audit c tenantId "security.role.update" "ROLE" roleId
    commitNow
    getRole tenantId roleId

def addRolePermission (c : AdminCall) (tenantId roleId : Uuid) (permissionKey : String) : Tx Bool := do
  ensureActivePermission permissionKey
  let activeRole ← query .activeRole fun db => .ok (db.activeRole tenantId roleId)
  if !activeRole then raise (.valueError "Role must be ACTIVE")
  else
    let exists? ← query .existingRolePermission fun db =>
      .ok (db.rolePermissions.rows.any fun r => decide (r.tenantId = tenantId ∧
        r.roleId = roleId ∧ r.permissionKey = permissionKey))
    if exists? then pure false
    else
      insertRolePermission tenantId roleId permissionKey
      let affected ← query .effectiveRoleUsers fun db =>
        .ok (db.effectiveRoleUsers tenantId roleId c.now)
      bumpVersions tenantId affected
      audit c tenantId "security.role.permission.add" "ROLE_PERMISSION" (roleId ++ ":" ++ permissionKey)
      commitNow
      pure true

/-- `DELETE ... RETURNING`: the deleted row by its role, or nothing. -/
def deleteRolePermission (tenantId roleId : Uuid) (permissionKey : String) : Tx (List Uuid) :=
  execute .deleteRolePermission fun db =>
    let found := db.rolePermissions.rows.filter fun r => decide (r.tenantId = tenantId ∧
      r.roleId = roleId ∧ r.permissionKey = permissionKey)
    .ok {
      value := found.map (·.roleId)
      edits := [.deleteRolePermission tenantId roleId permissionKey]
      locks := found.map fun r =>
        rowLock .rolePermissions [r.tenantId, r.roleId, r.permissionKey] .update }

def removeRolePermission (c : AdminCall) (tenantId roleId : Uuid) (permissionKey : String) :
    Tx Bool := do
  let affected ← query .effectiveRoleUsers fun db =>
    .ok (db.effectiveRoleUsers tenantId roleId c.now)
  removeRow c tenantId (deleteRolePermission tenantId roleId permissionKey) affected
    "security.role.permission.remove" "ROLE_PERMISSION" (roleId ++ ":" ++ permissionKey)

/-! ## Roles of users -/

def insertUserRole (c : AdminCall) (tenantId userId roleId assignedBy : Uuid) : Tx Unit :=
  execute .insertUserRole fun db =>
    let row : UserRoleAssignment :=
      ⟨c.newId, tenantId, userId, roleId, .active, some c.now, none, assignedBy⟩
    insertRow db.userRoleAssignments row [db.userReference userId,
      db.roleReference tenantId roleId, db.userReference assignedBy]
      (.insertUserRoleAssignment row)

def adminAssignUserRole (c : AdminCall) (tenantId userId roleId : Uuid) : Tx Bool := do
  let active ← activeMembership userId
  if !active then raise (.valueError "User must have an ACTIVE Tenant membership")
  else
    let activeRole ← query .activeRole fun db => .ok (db.activeRole tenantId roleId)
    if !activeRole then raise (.valueError "Role must be ACTIVE")
    else
      let exists? ← query .existingUserRole fun db => .ok (db.activeUserRole tenantId userId roleId)
      if exists? then pure false
      else
        insertUserRole c tenantId userId roleId c.actorUserId
        bumpVersions tenantId [userId]
        audit c tenantId "security.role.user.assign" "USER_ROLE" (userId ++ ":" ++ roleId)
        commitNow
        pure true

def removeUserRole (c : AdminCall) (tenantId userId roleId : Uuid) : Tx Bool :=
  removeRow c tenantId
    (updateWhere .endUserRole .userRoleAssignments .noKeyUpdate
      (fun db => (db.userRoleAssignments.rows.filter fun r => decide (r.tenantId = tenantId ∧
        r.userId = userId ∧ r.roleId = roleId ∧ r.status = .active)).map (·.assignmentId))
      (.endUserRoleAssignment · tenantId userId roleId c.now))
    [userId] "security.role.user.remove" "USER_ROLE" (userId ++ ":" ++ roleId)

end VerigenceSecurity
