import VerigenceSecurity.Schema
import VerigenceSecurity.Library.Transaction

/-! # Writes, row locks and statements

Every SQL write is a constructor with its `WHERE` values and its new values, so
that what a call has pending is data. Statements check the constraints of the
rows they write and take PostgreSQL's row locks.
-/

namespace VerigenceSecurity
set_option autoImplicit false

open Transaction Relational

inductive Write
  | insertGroup (row : Group)
  | updateGroup (tenantId groupId : Uuid) (groupName : String) (description : Option String)
      (status : ActiveStatus) (now : Instant)
  | insertGroupMembership (row : GroupMembership)
  | endGroupMembership (ids : List Uuid) (tenantId groupId userId : Uuid) (now : Instant)
  | insertGroupRoleAssignment (row : GroupRoleAssignment)
  | endGroupRoleAssignment (ids : List Uuid) (tenantId groupId roleId : Uuid) (now : Instant)
  | insertRole (row : Role)
  | updateRole (tenantId roleId : Uuid) (roleName : String) (description : Option String)
      (status : ActiveStatus) (now : Instant)
  | insertRolePermission (row : RolePermission)
  | deleteRolePermission (tenantId roleId : Uuid) (permissionKey : String)
  | insertUserRoleAssignment (row : UserRoleAssignment)
  | endUserRoleAssignment (ids : List Uuid) (tenantId userId roleId : Uuid) (now : Instant)
  | bumpAuthorizationVersion (tenantId userId : Uuid)
  | bumpMembershipVersion (tenantId userId : Uuid)
  | insertPrivilegedAccessRequest (row : PrivilegedAccessRequest)
  | decidePrivilegedAccessRequest (tenantId requestId : Uuid) (status : RequestStatus)
      (approver : Uuid) (now : Instant) (reason : Option String)
  | insertRoleTemplateBinding (row : RoleTemplateBinding)
  | supersedeRoleTemplateBindings (ids : List Uuid) (tenantId roleId templateId : Uuid)
      (now : Instant)
  | insertAdminChange (row : AdminChangeRecord)
  | upsertModule (row : Module)
  | upsertPermission (row : Permission)
  | configurePermission (row : Permission)
  | grantSuperAdminPermission (permissionKey : String)
  | revokeSuperAdminPermission (permissionKey : String)
  | upsertTemplate (row : ModuleRoleTemplate)
  | deleteTemplatePermissions (templateId : Uuid)
  | insertTemplatePermission (row : ModuleRoleTemplatePermission)
  | expireStaleUserSessions (ids : List Uuid) (tenantId userId deviceId : Uuid) (now : Instant)
  | insertAccessSession (row : AccessSession)
  | updateReusedUserSession (accessSessionId : Uuid) (sourceIp : String) (vpnStatus : VpnStatus)
      (authorizationVersion : Nat) (expiresAt now : Instant)
  | updateActiveSessionContext (accessSessionId tenantId userId locationId : Uuid)
      (sourceIp : String) (vpnStatus : VpnStatus) (authorizationVersion : Nat)
      (expiresAt now : Instant)
  | revokeActiveUserSession (accessSessionId tenantId userId : Uuid)
  | revokeUserSessions (ids : List Uuid) (userId : Uuid) (now : Instant)
  | insertEvaluation (row : AccessContextEvaluation)
  | updateUserStatus (userId : Uuid) (status : UserStatus) (now : Instant)
  | approveOnboardingRequest (ids : List Uuid) (userId actor : Uuid) (now : Instant)
      (reason : Option String)
  | markMachineCredentialUsed (credentialId : Uuid) (now : Instant)
  | activatePendingDevice (tenantId userId deviceId decidedByUserId : Uuid) (decidedAt : Instant)
  | approveEnrollmentRequest (enrollmentRequestId tenantId userId deviceId decidedByUserId : Uuid)
      (decidedAt : Instant)
  | insertSecurityPrincipal (row : SecurityPrincipal)
  | insertUser (row : User)
  | insertExternalIdentity (row : ExternalIdentity)
  | insertLocalUserCredential (row : LocalUserCredential)
  | insertPlatformUserRoleAssignment (row : PlatformUserRoleAssignment)
  | insertSignupAttempt (row : PlatformUserSignupAttempt)
  | prepareSignupAttempt (signupAttemptId : Uuid) (clerkUserId emailAddressId : String)
  | closeSignupAttempts (ids : List Uuid) (status : SignupStatus)
  | completeSignupAttempt (signupAttemptId : Uuid) (now : Instant)
  | insertOnboardingRequest (row : PlatformUserOnboardingRequest)
  | insertSecurityEvent (row : SecurityEvent)
  | insertTenant (row : Tenant)
  | upsertSelfOnboardingToken (row : TenantSelfOnboardingSettings)
  | upsertSchedule (row : AccessSchedule)
  | upsertWindow (row : AccessScheduleWindow)

/-- `platform.super_admin`, the role the permission trigger keeps complete. -/
def superAdminRoleKey : String := "platform.super_admin"

/-! ## What each write does to a row -/

def GroupMembership.ended (now : Instant) (r : GroupMembership) : GroupMembership :=
  { r with status := .ended, endedAt := some now }

def GroupRoleAssignment.ended (now : Instant) (r : GroupRoleAssignment) : GroupRoleAssignment :=
  { r with status := .ended, endedAt := some now }

def UserRoleAssignment.ended (now : Instant) (r : UserRoleAssignment) : UserRoleAssignment :=
  { r with status := .ended, validTo := some now }

/-- A decision by an approver the `CHECK`s refuse changes nothing. -/
def PrivilegedAccessRequest.decided (status : RequestStatus) (approver : Uuid) (now : Instant)
    (reason : Option String) (r : PrivilegedAccessRequest) : PrivilegedAccessRequest :=
  if h : approver ≠ r.subjectUserId ∧ approver ≠ r.requestedByUserId ∧ status ≠ .pending then
    { r with
      status := status
      approvedByUserId := some approver
      decidedAt := some now
      decisionReason := reason
      independent := by
        intro a ha
        rw [Option.mem_some.mp ha] at h
        exact ⟨h.1, h.2.1⟩ }
  else r

def Permission.registered (row r : Permission) : Permission :=
  if r.moduleKey = row.moduleKey ∧ r.resourceKey = row.resourceKey ∧ r.actionKey = row.actionKey then
    { r with
      displayName := row.displayName
      description := row.description
      status := row.status
      catalogVersion := row.catalogVersion }
  else r

/-- The configuration of a permission also replaces its module and its action. -/
def Permission.configured (row r : Permission) : Permission :=
  { r with
    moduleKey := row.moduleKey
    resourceKey := row.resourceKey
    actionKey := row.actionKey
    description := row.description
    status := row.status }

/-- `ON CONFLICT DO UPDATE ... WHERE`: the row of another tenant stays as it is. -/
def AccessSchedule.configured (row r : AccessSchedule) : AccessSchedule :=
  if r.tenantId = row.tenantId then { r with
    scheduleKey := row.scheduleKey, scheduleName := row.scheduleName, status := row.status }
  else r

/-- The row of another tenant or schedule stays as it is. -/
def AccessScheduleWindow.configured (row r : AccessScheduleWindow) : AccessScheduleWindow :=
  if r.tenantId = row.tenantId ∧ r.scheduleId = row.scheduleId then { r with
    isoDayOfWeek := row.isoDayOfWeek, startLocalTime := row.startLocalTime
    endLocalTime := row.endLocalTime, crossesMidnight := row.crossesMidnight
    status := row.status }
  else r

def AccessSession.ended (status : SessionStatus) (r : AccessSession) : AccessSession :=
  match status with
  | .active => r
  | _ => { r with status := status }

def AccessSession.renewed (sourceIp : String) (vpnStatus : VpnStatus) (authorizationVersion : Nat)
    (expiresAt now : Instant) (r : AccessSession) : AccessSession :=
  if h : r.startedAt < expiresAt then
    { r with
      sourceIp := sourceIp
      vpnStatus := some vpnStatus
      authorizationVersion := some authorizationVersion
      expiresAt := expiresAt
      lastActivityAt := now
      lastGeoValidatedAt := some now
      lifetime := h }
  else r

def RegisteredDevice.activated (decidedByUserId : Uuid) (decidedAt : Instant) (r : RegisteredDevice) :
    RegisteredDevice :=
  { r with status := .active, approvedByUserId := some decidedByUserId, approvedAt := some decidedAt }

def DeviceEnrollmentRequest.approved (decidedByUserId : Uuid) (decidedAt : Instant)
    (r : DeviceEnrollmentRequest) : DeviceEnrollmentRequest :=
  { r with status := .approved, decidedByUserId := some decidedByUserId, decidedAt := some decidedAt }

def PlatformUserSignupAttempt.prepared (clerkUserId emailAddressId : String)
    (r : PlatformUserSignupAttempt) : PlatformUserSignupAttempt :=
  { r with
    clerkUserId := some clerkUserId
    clerkEmailAddressId := some emailAddressId
    completion := r.completion.imp_left fun h => ⟨h.1, rfl, h.2.2⟩ }

def PlatformUserSignupAttempt.closed (status : SignupStatus) (r : PlatformUserSignupAttempt) :
    PlatformUserSignupAttempt :=
  if h : r.status = .authorizedForClerk ∧ status ≠ .completed ∧ status ≠ .authorizedForClerk then
    { r with
      status := status
      completion := Or.inr ⟨h.2.1, by
        rcases r.completion with hc | hc
        · rw [h.1] at hc
          cases hc.1
        · exact hc.2⟩ }
  else r

/-- The `CHECK` refuses a completion without a Clerk user. -/
def PlatformUserSignupAttempt.completed (now : Instant) (r : PlatformUserSignupAttempt) :
    PlatformUserSignupAttempt :=
  if h : r.clerkUserId.isSome then
    { r with status := .completed, completedAt := some now, completion := Or.inl ⟨rfl, h, rfl⟩ }
  else r

theorem PlatformUserSignupAttempt.entries_closed (status : SignupStatus)
    (r : PlatformUserSignupAttempt) : Row.entries (r.closed status) ⊆ Row.entries r := by
  unfold closed
  split
  · rename_i h
    intro k hk
    cases status with
    | completed => exact absurd rfl h.2.1
    | authorizedForClerk => exact absurd rfl h.2.2
    | expired | cancelled =>
      simp only [Row.entries, h.1, List.mem_cons, List.mem_append, List.not_mem_nil, or_false] at hk ⊢
      rcases hk with (hk | hk) | hk <;> simp [hk]
  · exact List.Subset.refl _

theorem PlatformUserSignupAttempt.entries_completed (now : Instant)
    (r : PlatformUserSignupAttempt) : Row.entries (r.completed now) ⊆ Row.entries r := by
  unfold completed
  split
  · intro k hk
    simp only [Row.entries, List.mem_cons, List.mem_append] at hk ⊢
    exact hk.imp_left fun h => h.imp (fun h => h.imp_right fun hnone => nomatch hnone) id
  · exact List.Subset.refl _

theorem GroupMembership.entries_ended (now : Instant) (r : GroupMembership) :
    Row.entries (r.ended now) ⊆ Row.entries r := by
  intro k hk
  rw [List.mem_singleton.mp hk]
  exact List.mem_cons_self

theorem GroupRoleAssignment.entries_ended (now : Instant) (r : GroupRoleAssignment) :
    Row.entries (r.ended now) ⊆ Row.entries r := by
  intro k hk
  rw [List.mem_singleton.mp hk]
  exact List.mem_cons_self

theorem UserRoleAssignment.entries_ended (now : Instant) (r : UserRoleAssignment) :
    Row.entries (r.ended now) ⊆ Row.entries r := by
  intro k hk
  rw [List.mem_singleton.mp hk]
  exact List.mem_cons_self

theorem PrivilegedAccessRequest.entries_decided (status : RequestStatus) (approver : Uuid)
    (now : Instant) (reason : Option String) (r : PrivilegedAccessRequest) :
    Row.entries (r.decided status approver now reason) ⊆ Row.entries r := by
  unfold decided
  split
  · rename_i h
    intro k hk
    cases status with
    | pending => exact absurd rfl h.2.2
    | approved | rejected | cancelled | expired =>
      rw [List.mem_singleton.mp hk]
      exact List.mem_cons_self
  · exact List.Subset.refl _

theorem Permission.entries_registered (row r : Permission) :
    Row.entries (row.registered r) ⊆ Row.entries r := by
  unfold registered
  split <;> exact List.Subset.refl _

theorem Permission.entries_configured (row r : Permission) :
    Row.entries (row.configured r) ⊆ Row.entries r := List.Subset.refl _

theorem AccessScheduleWindow.entries_configured (row r : AccessScheduleWindow) :
    Row.entries (row.configured r) ⊆ Row.entries r := by
  unfold AccessScheduleWindow.configured
  split <;> exact List.Subset.refl _

theorem AccessSession.entries_ended (status : SessionStatus) (r : AccessSession) :
    Row.entries (r.ended status) ⊆ Row.entries r := by
  cases status with
  | active => exact List.Subset.refl _
  | expired | revoked =>
    intro k hk
    have hk' : k ∈ [(Index.primary, [r.accessSessionId])] := by
      simpa [ended, Row.entries] using hk
    rw [List.mem_singleton.mp hk']
    exact List.mem_cons_self

theorem AccessSession.entries_renewed (sourceIp : String) (vpnStatus : VpnStatus)
    (authorizationVersion : Nat) (expiresAt now : Instant) (r : AccessSession) :
    Row.entries (r.renewed sourceIp vpnStatus authorizationVersion expiresAt now) ⊆ Row.entries r := by
  unfold renewed
  split <;> exact List.Subset.refl _

/-! ## Writes to the RBAC tables -/

namespace RbacTables

def insertGroup (t : RbacTables) (row : Group) : RbacTables :=
  { t with
    groups := t.groups.insert row
    membership_group := t.membership_group.parent_insert
    groupRole_group := t.groupRole_group.parent_insert }

def updateGroup (t : RbacTables) (tenantId groupId : Uuid) (groupName : String)
    (description : Option String) (status : ActiveStatus) (now : Instant) : RbacTables :=
  { t with
    groups := t.groups.update (fun r => decide (r.tenantId = tenantId ∧ r.groupId = groupId))
      (fun r => { r with
        groupName := groupName, description := description, status := status, updatedAt := now })
      fun _ => List.Subset.refl _
    membership_group := t.membership_group.parent_update fun _ _ h => h
    groupRole_group := t.groupRole_group.parent_update fun _ _ h => h }

def insertRole (t : RbacTables) (row : Role) : RbacTables :=
  { t with
    roles := t.roles.insert row
    permission_role := t.permission_role.parent_insert
    assignment_role := t.assignment_role.parent_insert
    groupRole_role := t.groupRole_role.parent_insert }

def updateRole (t : RbacTables) (tenantId roleId : Uuid) (roleName : String)
    (description : Option String) (status : ActiveStatus) (now : Instant) : RbacTables :=
  { t with
    roles := t.roles.update (fun r => decide (r.tenantId = tenantId ∧ r.roleId = roleId))
      (fun r => { r with
        roleName := roleName, description := description, status := status, updatedAt := now })
      fun _ => List.Subset.refl _
    permission_role := t.permission_role.parent_update fun _ _ h => h
    assignment_role := t.assignment_role.parent_update fun _ _ h => h
    groupRole_role := t.groupRole_role.parent_update fun _ _ h => h }

def insertGroupMembership (t : RbacTables) (row : GroupMembership) : RbacTables :=
  { t with
    groupMemberships :=
      if ∃ g ∈ t.groups.rows, g.tenantId = row.tenantId ∧ g.groupId = row.groupId then
        t.groupMemberships.insert row
      else t.groupMemberships
    membership_group := by
      split
      · exact t.membership_group.insert ‹_›
      · exact t.membership_group }

def endGroupMembership (t : RbacTables) (ids : List Uuid) (tenantId groupId userId : Uuid)
    (now : Instant) : RbacTables :=
  { t with
    groupMemberships := t.groupMemberships.update
      (fun r => decide (r.groupMembershipId ∈ ids ∧ r.tenantId = tenantId ∧ r.groupId = groupId ∧
        r.userId = userId ∧ r.status = .active))
      (GroupMembership.ended now) (GroupMembership.entries_ended now)
    membership_group := t.membership_group.update fun _ _ h => h }

def insertGroupRoleAssignment (t : RbacTables) (row : GroupRoleAssignment) : RbacTables :=
  { t with
    groupRoleAssignments :=
      if (∃ g ∈ t.groups.rows, g.tenantId = row.tenantId ∧ g.groupId = row.groupId) ∧
          ∃ r ∈ t.roles.rows, r.tenantId = row.tenantId ∧ r.roleId = row.roleId then
        t.groupRoleAssignments.insert row
      else t.groupRoleAssignments
    groupRole_group := by
      split
      · rename_i h
        exact t.groupRole_group.insert h.1
      · exact t.groupRole_group
    groupRole_role := by
      split
      · rename_i h
        exact t.groupRole_role.insert h.2
      · exact t.groupRole_role }

def endGroupRoleAssignment (t : RbacTables) (ids : List Uuid) (tenantId groupId roleId : Uuid)
    (now : Instant) : RbacTables :=
  { t with
    groupRoleAssignments := t.groupRoleAssignments.update
      (fun r => decide (r.assignmentId ∈ ids ∧ r.tenantId = tenantId ∧ r.groupId = groupId ∧
        r.roleId = roleId ∧ r.status = .active))
      (GroupRoleAssignment.ended now) (GroupRoleAssignment.entries_ended now)
    groupRole_group := t.groupRole_group.update fun _ _ h => h
    groupRole_role := t.groupRole_role.update fun _ _ h => h }

def insertRolePermission (t : RbacTables) (row : RolePermission) : RbacTables :=
  { t with
    rolePermissions :=
      if ∃ r ∈ t.roles.rows, r.tenantId = row.tenantId ∧ r.roleId = row.roleId then
        t.rolePermissions.insert row
      else t.rolePermissions
    permission_role := by
      split
      · exact t.permission_role.insert ‹_›
      · exact t.permission_role }

def deleteRolePermission (t : RbacTables) (tenantId roleId : Uuid) (permissionKey : String) :
    RbacTables :=
  { t with
    rolePermissions := t.rolePermissions.delete fun r =>
      decide (r.tenantId = tenantId ∧ r.roleId = roleId ∧ r.permissionKey = permissionKey)
    permission_role := t.permission_role.delete }

def insertUserRoleAssignment (t : RbacTables) (row : UserRoleAssignment) : RbacTables :=
  { t with
    userRoleAssignments :=
      if ∃ r ∈ t.roles.rows, r.tenantId = row.tenantId ∧ r.roleId = row.roleId then
        t.userRoleAssignments.insert row
      else t.userRoleAssignments
    assignment_role := by
      split
      · exact t.assignment_role.insert ‹_›
      · exact t.assignment_role }

def endUserRoleAssignment (t : RbacTables) (ids : List Uuid) (tenantId userId roleId : Uuid)
    (now : Instant) : RbacTables :=
  { t with
    userRoleAssignments := t.userRoleAssignments.update
      (fun r => decide (r.assignmentId ∈ ids ∧ r.tenantId = tenantId ∧ r.userId = userId ∧
        r.roleId = roleId ∧ r.status = .active))
      (UserRoleAssignment.ended now) (UserRoleAssignment.entries_ended now)
    assignment_role := t.assignment_role.update fun _ _ h => h }

end RbacTables

/-! ## What each write does to the database -/

def Write.apply (db : Database) : Write → Database
  | insertGroup row => { db with toRbacTables := db.toRbacTables.insertGroup row }
  | updateGroup tenantId groupId groupName description status now =>
    { db with toRbacTables :=
        db.toRbacTables.updateGroup tenantId groupId groupName description status now }
  | insertGroupMembership row => { db with toRbacTables := db.toRbacTables.insertGroupMembership row }
  | endGroupMembership ids tenantId groupId userId now =>
    { db with toRbacTables := db.toRbacTables.endGroupMembership ids tenantId groupId userId now }
  | insertGroupRoleAssignment row =>
    { db with toRbacTables := db.toRbacTables.insertGroupRoleAssignment row }
  | endGroupRoleAssignment ids tenantId groupId roleId now =>
    { db with toRbacTables := db.toRbacTables.endGroupRoleAssignment ids tenantId groupId roleId now }
  | insertRole row => { db with toRbacTables := db.toRbacTables.insertRole row }
  | updateRole tenantId roleId roleName description status now =>
    { db with toRbacTables :=
        db.toRbacTables.updateRole tenantId roleId roleName description status now }
  | insertRolePermission row => { db with toRbacTables := db.toRbacTables.insertRolePermission row }
  | deleteRolePermission tenantId roleId permissionKey =>
    { db with toRbacTables := db.toRbacTables.deleteRolePermission tenantId roleId permissionKey }
  | insertUserRoleAssignment row =>
    { db with toRbacTables := db.toRbacTables.insertUserRoleAssignment row }
  | endUserRoleAssignment ids tenantId userId roleId now =>
    { db with toRbacTables := db.toRbacTables.endUserRoleAssignment ids tenantId userId roleId now }
  | bumpAuthorizationVersion tenantId userId =>
    { db with
      userTenantAuthorizationState := db.userTenantAuthorizationState.upsert
        (.primary, [userId, tenantId]) ⟨userId, tenantId, 2⟩
        (fun r => { r with authorizationVersion := r.authorizationVersion + 1 })
        fun _ => List.Subset.refl _ }
  | bumpMembershipVersion tenantId userId =>
    { db with
      tenantMemberships := db.tenantMemberships.update
        (fun r => decide (r.tenantId = tenantId ∧ r.userId = userId ∧ r.status = .active))
        (fun r => { r with authorizationVersion := r.authorizationVersion + 1 })
        fun _ => List.Subset.refl _ }
  | insertPrivilegedAccessRequest row =>
    { db with privilegedAccessRequests := db.privilegedAccessRequests.insert row }
  | decidePrivilegedAccessRequest tenantId requestId status approver now reason =>
    { db with
      privilegedAccessRequests := db.privilegedAccessRequests.update
        (fun r => decide (r.tenantId = tenantId ∧ r.requestId = requestId))
        (PrivilegedAccessRequest.decided status approver now reason)
        (PrivilegedAccessRequest.entries_decided status approver now reason) }
  | insertRoleTemplateBinding row =>
    { db with roleTemplateBindings := db.roleTemplateBindings.insert row }
  | supersedeRoleTemplateBindings ids tenantId roleId templateId now =>
    { db with
      roleTemplateBindings := db.roleTemplateBindings.update
        (fun r => decide (r.bindingId ∈ ids ∧ r.tenantId = tenantId ∧ r.roleId = roleId ∧
          r.templateId = templateId ∧ r.status = .current))
        (fun r => { r with status := .superseded, supersededAt := some now })
        fun _ => List.Subset.refl _ }
  | insertAdminChange row => { db with adminChangeRecords := db.adminChangeRecords.insert row }
  | upsertModule row =>
    { db with
      modules := db.modules.upsert (.primary, [row.moduleKey]) row
        (fun r => { r with
          moduleName := row.moduleName, catalogVersion := row.catalogVersion, status := .active })
        fun _ => List.Subset.refl _ }
  | upsertPermission row =>
    { db with
      permissions := db.permissions.upsert (.primary, [row.permissionKey]) row
        row.registered row.entries_registered }
  | configurePermission row =>
    { db with
      permissions := db.permissions.upsert (.primary, [row.permissionKey]) row
        row.configured row.entries_configured }
  | grantSuperAdminPermission permissionKey =>
    { db with
      platformRolePermissions :=
        db.platformRolePermissions.insert ⟨superAdminRoleKey, permissionKey⟩ }
  | revokeSuperAdminPermission permissionKey =>
    { db with
      platformRolePermissions := db.platformRolePermissions.delete fun r =>
        decide (r.roleKey = superAdminRoleKey ∧ r.permissionKey = permissionKey) }
  | upsertTemplate row =>
    { db with
      moduleRoleTemplates := db.moduleRoleTemplates.upsert
        (.natural, [row.moduleKey, row.templateKey]) row
        (fun r => { r with
          templateName := row.templateName, description := row.description
          catalogVersion := row.catalogVersion, status := row.status })
        fun _ => List.Subset.refl _ }
  | deleteTemplatePermissions templateId =>
    { db with
      moduleRoleTemplatePermissions := db.moduleRoleTemplatePermissions.delete fun r =>
        decide (r.templateId = templateId) }
  | insertTemplatePermission row =>
    { db with moduleRoleTemplatePermissions := db.moduleRoleTemplatePermissions.insert row }
  | expireStaleUserSessions ids tenantId userId deviceId now =>
    { db with
      accessSessions := db.accessSessions.update
        (fun r => decide (r.accessSessionId ∈ ids ∧ r.tenantId = tenantId ∧ r.principalId = userId ∧
          r.deviceId = some deviceId ∧ r.actorType = .user ∧ r.status = .active ∧ r.expiresAt ≤ now))
        (AccessSession.ended .expired) (AccessSession.entries_ended .expired) }
  | insertAccessSession row => { db with accessSessions := db.accessSessions.insert row }
  | updateReusedUserSession accessSessionId sourceIp vpnStatus authorizationVersion expiresAt now =>
    { db with
      accessSessions := db.accessSessions.update
        (fun r => decide (r.accessSessionId = accessSessionId ∧ r.status = .active))
        (AccessSession.renewed sourceIp vpnStatus authorizationVersion expiresAt now)
        (AccessSession.entries_renewed sourceIp vpnStatus authorizationVersion expiresAt now) }
  | updateActiveSessionContext accessSessionId tenantId userId locationId sourceIp vpnStatus
      authorizationVersion expiresAt now =>
    { db with
      accessSessions := db.accessSessions.update
        (fun r => decide (r.accessSessionId = accessSessionId ∧ r.tenantId = tenantId ∧
          r.principalId = userId ∧ r.actorType = .user ∧ r.status = .active))
        (fun r => { r.renewed sourceIp vpnStatus authorizationVersion expiresAt now with
          locationId := some locationId })
        (AccessSession.entries_renewed sourceIp vpnStatus authorizationVersion expiresAt now) }
  | revokeActiveUserSession accessSessionId tenantId userId =>
    { db with
      accessSessions := db.accessSessions.update
        (fun r => decide (r.accessSessionId = accessSessionId ∧ r.tenantId = tenantId ∧
          r.principalId = userId ∧ r.actorType = .user ∧ r.status = .active))
        (AccessSession.ended .revoked) (AccessSession.entries_ended .revoked) }
  | revokeUserSessions ids userId now =>
    { db with
      accessSessions := db.accessSessions.update
        (fun r => decide (r.accessSessionId ∈ ids ∧ r.principalId = userId ∧ r.actorType = .user ∧
          r.status = .active))
        (fun r => { r.ended .revoked with lastActivityAt := now })
        (AccessSession.entries_ended .revoked) }
  | insertEvaluation row =>
    { db with accessContextEvaluations := db.accessContextEvaluations.insert row }
  | updateUserStatus userId status now =>
    { db with
      users := db.users.update (fun r => decide (r.userId = userId))
        (fun r => { r with status := status, updatedAt := now }) fun _ => List.Subset.refl _ }
  | approveOnboardingRequest ids userId actor now reason =>
    { db with
      platformUserOnboardingRequests := db.platformUserOnboardingRequests.update
        (fun r => decide (r.onboardingRequestId ∈ ids ∧ r.userId = userId ∧
          r.status = .pendingAdminApproval))
        (fun r => { r with
          status := .approved, reviewedByUserId := some actor
          reviewedAt := some now, reviewReason := reason })
        fun _ => List.Subset.refl _ }
  | markMachineCredentialUsed credentialId now =>
    { db with
      principalCredentials := db.principalCredentials.update
        (fun r => decide (r.credentialId = credentialId))
        (fun r => { r with lastUsedAt := some now }) fun _ => List.Subset.refl _ }
  | activatePendingDevice tenantId userId deviceId decidedByUserId decidedAt =>
    { db with
      registeredDevices := db.registeredDevices.update
        (fun r => decide (r.tenantId = tenantId ∧ r.userId = userId ∧ r.deviceId = deviceId ∧
          r.status = .pending))
        (RegisteredDevice.activated decidedByUserId decidedAt) fun _ => List.Subset.refl _ }
  | approveEnrollmentRequest enrollmentRequestId tenantId userId deviceId decidedByUserId decidedAt =>
    { db with
      deviceEnrollmentRequests := db.deviceEnrollmentRequests.update
        (fun r => decide (r.enrollmentRequestId = enrollmentRequestId ∧ r.tenantId = tenantId ∧
          r.userId = userId ∧ r.deviceId = deviceId ∧ r.status = .pending))
        (DeviceEnrollmentRequest.approved decidedByUserId decidedAt) fun _ => List.Subset.refl _ }
  | insertSecurityPrincipal row =>
    { db with securityPrincipals := db.securityPrincipals.insert row }
  | insertUser row => { db with users := db.users.insert row }
  | insertExternalIdentity row => { db with externalIdentities := db.externalIdentities.insert row }
  | insertLocalUserCredential row =>
    { db with localUserCredentials := db.localUserCredentials.insert row }
  | insertPlatformUserRoleAssignment row =>
    { db with platformUserRoleAssignments := db.platformUserRoleAssignments.insert row }
  | insertSignupAttempt row =>
    { db with platformUserSignupAttempts := db.platformUserSignupAttempts.insert row }
  | prepareSignupAttempt signupAttemptId clerkUserId emailAddressId =>
    { db with
      platformUserSignupAttempts := db.platformUserSignupAttempts.modify
        (fun r => decide (r.signupAttemptId = signupAttemptId ∧ r.status = .authorizedForClerk))
        (PlatformUserSignupAttempt.prepared clerkUserId emailAddressId) }
  | closeSignupAttempts ids status =>
    { db with
      platformUserSignupAttempts := db.platformUserSignupAttempts.update
        (fun r => decide (r.signupAttemptId ∈ ids ∧ r.status = .authorizedForClerk))
        (PlatformUserSignupAttempt.closed status) (PlatformUserSignupAttempt.entries_closed status) }
  | completeSignupAttempt signupAttemptId now =>
    { db with
      platformUserSignupAttempts := db.platformUserSignupAttempts.update
        (fun r => decide (r.signupAttemptId = signupAttemptId))
        (PlatformUserSignupAttempt.completed now) (PlatformUserSignupAttempt.entries_completed now) }
  | insertOnboardingRequest row =>
    { db with platformUserOnboardingRequests := db.platformUserOnboardingRequests.insert row }
  | insertSecurityEvent row => { db with securityEvents := db.securityEvents.insert row }
  | insertTenant row => { db with tenants := db.tenants.insert row }
  | upsertSelfOnboardingToken row =>
    { db with
      tenantSelfOnboardingSettings := db.tenantSelfOnboardingSettings.upsert
        (.primary, [row.tenantId]) row
        (fun r => { r with
          tokenHash := row.tokenHash, tokenVersion := r.tokenVersion + 1, status := row.status
          updatedByUserId := row.updatedByUserId, updatedAt := row.updatedAt })
        fun _ => List.Subset.refl _ }
  | upsertSchedule row =>
    { db with
      accessSchedules :=
        if db.accessSchedules.rows.any fun r => decide (r.scheduleId = row.scheduleId) then
          db.accessSchedules.modify (fun r => decide (r.scheduleId = row.scheduleId)) row.configured
        else db.accessSchedules.insert row }
  | upsertWindow row =>
    { db with
      accessScheduleWindows := db.accessScheduleWindows.upsert
        (.primary, [row.scheduleWindowId]) row row.configured row.entries_configured }

instance : Replay Database Write := ⟨fun w db => w.apply db⟩

@[simp] theorem replay_eq (w : Write) (db : Database) : Replay.replay w db = w.apply db := rfl

/-! ## Row locks -/

inductive LockMode
  | keyShare | share | noKeyUpdate | update
  deriving DecidableEq, Repr

/-- PostgreSQL's table of conflicting row-level locks. -/
def LockMode.conflicts : LockMode → LockMode → Bool
  | .update, _ | _, .update => true
  | .noKeyUpdate, .keyShare | .keyShare, .noKeyUpdate => false
  | .noKeyUpdate, _ | _, .noKeyUpdate => true
  | _, _ => false

structure RowLock where
  relation : Relation
  entry : IndexEntry
  mode : LockMode
  deriving DecidableEq, Repr

def RowLock.conflicts (a b : RowLock) : Bool :=
  decide (a.relation = b.relation ∧ a.entry = b.entry) && a.mode.conflicts b.mode

theorem LockMode.conflicts_comm (a b : LockMode) : a.conflicts b = b.conflicts a := by
  cases a <;> cases b <;> rfl

theorem RowLock.conflicts_comm (a b : RowLock) : a.conflicts b = b.conflicts a := by
  unfold conflicts
  rw [LockMode.conflicts_comm]
  congr 1
  exact decide_eq_decide.mpr ⟨fun h => ⟨h.1.symm, h.2.symm⟩, fun h => ⟨h.1.symm, h.2.symm⟩⟩

/-! ## Statements -/

inductive ClerkCall
  | banUser (clerkUserId : String)
  | unbanUser (clerkUserId : String)
  | createPendingEmailUser (email : String)
  | deleteUser (clerkUserId : String)
  | prepareEmailVerification (emailAddressId : String)
  | attemptEmailVerification (emailAddressId code : String)
  | isEmailVerified (clerkUserId email : String)
  deriving DecidableEq, Repr

inductive ClerkAnswer
  | failed | done
  | created (clerkUserId emailAddressId : String)
  | verified (accepted : Bool)
  deriving DecidableEq, Repr

/-- The statements of the modelled functions, under the names of the functions
that run them. A conditional `UPDATE` has its snapshot as a statement of its own,
and a call of the Clerk backend is a step of its own. -/
inductive StatementName
  | getGroup | getRole | activeGroup | activeRole | activeMembership
  | existingGroupMembership | existingGroupRole | existingRolePermission | existingUserRole
  | effectiveGroupUsers | effectiveRoleUsers | ensureActivePermission
  | insertGroup | updateGroup | insertGroupMembership | endGroupMembership
  | insertGroupRole | endGroupRole | insertRole | updateRole
  | insertRolePermission | deleteRolePermission | insertUserRole | endUserRole
  | bumpVersion | audit | roleKeyAndStatus | pendingRequest | insertRequest
  | lockedRequest | decideRequest | request
  | template | affectedUsers | bind | supersedeBindings | bumpMembershipVersion | details
  | upsertModule | permission | effectiveRoleReferences | upsertPermission
  | lockTemplate | upsertTemplate | deleteTemplatePermissions | insertTemplatePermission
  | module | modulePermissions | moduleTemplates
  | tenantStatus | resolveIdentityUser | getUserContext | getTenantPolicy | lockActiveDevice
  | assignedLocations | ensureActiveSchedule | scheduleWindows | activeOverrideUntil
  | effectiveUserPermissions | expireStaleUserSessions | activeUserSession
  | updateReusedUserSession | createUserSession | recordEvaluation
  | userSession | userSessionForUpdate | updateActiveSessionContext | revokeActiveUserSession
  | userLifecycle | updateUserStatus | revokeUserSessions | approveOnboardingRequest | userById
  | machineCredential | machinePermissions | createMachineSession | markMachineCredentialUsed
  | lockMembershipForDeviceLimit | pendingDeviceForUpdate | countActiveDevices
  | pendingEnrollmentRequest | activateDevice | approveEnrollmentRequest
  | advisoryLock | userForClerkSubject | activeSuperAdminForUser | activeSuperAdminExists
  | clerkUserState | insertPrincipal | insertUser | insertExternalIdentity | insertCredential
  | insertPlatformAssignment | platformRolesPermissions
  | onboardingKey | staleIdentityAttempts | expireStaleIdentityAttempts
  | emailRegistered | mobileRegistered | liveAttempt | insertSignupAttempt | prepareSignupAttempt
  | cancelSignupAttempt | expireSignupAttempt | loadAttempt | loadAttemptForUpdate
  | clerkIdentityRegistered | insertOnboardingRequest | completeSignupAttempt | securityEvent
  | insertTenant | upsertSelfOnboardingToken | tenantById | permissionCatalogue | reservedRole
  | rolePermissionKeys | tenant | upsertSchedule | upsertWindow
  | snapshot (of : StatementName)
  | clerk (call : ClerkCall) (answer : ClerkAnswer)
  deriving DecidableEq, Repr

abbrev Tx := Transaction.Program Database Write RowLock StatementName Failure

abbrev TxState := Transaction.State Database Write RowLock StatementName Failure

structure Reference where
  relation : Relation
  key : List String
  present : Bool

namespace Database

def tenantReference (db : Database) (tenantId : Uuid) : Reference :=
  ⟨.tenants, [tenantId], db.tenants.rows.any fun r => decide (r.tenantId = tenantId)⟩

def principalReference (db : Database) (principalId : Uuid) : Reference :=
  ⟨.securityPrincipals, [principalId],
    db.securityPrincipals.rows.any fun r => decide (r.principalId = principalId)⟩

def userReference (db : Database) (userId : Uuid) : Reference :=
  ⟨.users, [userId], db.users.rows.any fun r => decide (r.userId = userId)⟩

def roleReference (db : Database) (tenantId roleId : Uuid) : Reference :=
  ⟨.roles, [roleId],
    db.roles.rows.any fun r => decide (r.tenantId = tenantId ∧ r.roleId = roleId)⟩

def groupReference (db : Database) (tenantId groupId : Uuid) : Reference :=
  ⟨.groups, [groupId],
    db.groups.rows.any fun r => decide (r.tenantId = tenantId ∧ r.groupId = groupId)⟩

def permissionReference (db : Database) (permissionKey : String) : Reference :=
  ⟨.permissions, [permissionKey],
    db.permissions.rows.any fun r => decide (r.permissionKey = permissionKey)⟩

def templateReference (db : Database) (templateId : Uuid) : Reference :=
  ⟨.moduleRoleTemplates, [templateId],
    db.moduleRoleTemplates.rows.any fun r => decide (r.templateId = templateId)⟩

def moduleReference (db : Database) (moduleKey : String) : Reference :=
  ⟨.modules, [moduleKey], db.modules.rows.any fun r => decide (r.moduleKey = moduleKey)⟩

def platformRoleReference (db : Database) (roleKey : String) : Reference :=
  ⟨.platformRoles, [roleKey], db.platformRoles.rows.any fun r => decide (r.roleKey = roleKey)⟩

def membershipReference (db : Database) (membershipId : Uuid) : Reference :=
  ⟨.tenantMemberships, [membershipId],
    db.tenantMemberships.rows.any fun r => decide (r.membershipId = membershipId)⟩

def deviceReference (db : Database) (deviceId : Uuid) : Reference :=
  ⟨.registeredDevices, [deviceId],
    db.registeredDevices.rows.any fun r => decide (r.deviceId = deviceId)⟩

def locationReference (db : Database) (locationId : Uuid) : Reference :=
  ⟨.tenantLocations, [locationId],
    db.tenantLocations.rows.any fun r => decide (r.locationId = locationId)⟩

def scheduleReference (db : Database) (scheduleId : Uuid) : Reference :=
  ⟨.accessSchedules, [scheduleId],
    db.accessSchedules.rows.any fun r => decide (r.scheduleId = scheduleId)⟩

def credentialReference (db : Database) (credentialId : Uuid) : Reference :=
  ⟨.principalCredentials, [credentialId],
    db.principalCredentials.rows.any fun r => decide (r.credentialId = credentialId)⟩

def sessionReference (db : Database) (accessSessionId : Uuid) : Reference :=
  ⟨.accessSessions, [accessSessionId],
    db.accessSessions.rows.any fun r => decide (r.accessSessionId = accessSessionId)⟩

end Database

def Reference.lock (r : Reference) : RowLock := ⟨r.relation, (.primary, r.key), .keyShare⟩

def rowLock (relation : Relation) (key : List String) (mode : LockMode) : RowLock :=
  ⟨relation, (.primary, key), mode⟩

/-- `INSERT`: the new row's index entries are locked, and so are the rows it refers to. -/
def insertRow {ρ : Type} [Row ρ] (table : Rows ρ) (row : ρ) (references : List Reference)
    (write : Write) : Except Failure (Outcome Write RowLock Unit) :=
  if (table.insert? row).isSome = false then .error (.integrityError .unique)
  else if references.all (·.present) = false then .error (.integrityError .foreignKey)
  else .ok {
    value := ()
    edits := [write]
    locks := (Row.entries row).map (fun e => ⟨Row.relation ρ, e, .update⟩) ++
      references.map Reference.lock }

/-- A conditional `UPDATE`: the rows of the statement's snapshot, each checked again
on its latest version when its lock is granted. -/
def updateWhere (name : StatementName) (relation : Relation) (mode : LockMode)
    (find : Database → List Uuid) (write : List Uuid → Write) : Tx (List Uuid) := do
  let found ← Program.query (.snapshot name) fun db => .ok (find db)
  Program.execute name fun db =>
    let ids := (find db).filter fun id => decide (id ∈ found)
    .ok { value := ids, edits := [write ids], locks := ids.map fun id => rowLock relation [id] mode }

/-- A conditional `SELECT ... FOR UPDATE`, whose rows are checked again in the same way. -/
def lockWhere (name : StatementName) (relation : Relation) (find : Database → List Uuid) :
    Tx (List Uuid) := do
  let found ← Program.query (.snapshot name) fun db => .ok (find db)
  Program.execute name fun db =>
    let ids := (find db).filter fun id => decide (id ∈ found)
    .ok { value := ids, locks := ids.map fun id => rowLock relation [id] .update }

/-- A statement whose values fit their columns. -/
theorem fits_ok {α : Type} {fits : Bool} {result : Except Failure α} {a : α}
    (h : (if fits = false then .error .dataError else result) = .ok a) :
    fits = true ∧ result = .ok a := by
  cases fits with
  | false => cases h
  | true => exact ⟨rfl, h⟩

theorem insertRow_ok {ρ : Type} [Row ρ] {table : Rows ρ} {row : ρ} {references : List Reference}
    {write : Write} {o : Outcome Write RowLock Unit}
    (h : insertRow table row references write = .ok o) :
    (table.insert? row).isSome = true ∧ references.all (·.present) = true ∧ o.edits = [write] := by
  unfold insertRow at h
  split at h
  · cases h
  · split at h
    · cases h
    · rename_i hunique hreferences
      cases h
      exact ⟨Bool.of_not_eq_false hunique, Bool.of_not_eq_false hreferences, rfl⟩

theorem insertRow_locks {ρ : Type} [Row ρ] {table : Rows ρ} {row : ρ} {references : List Reference}
    {write : Write} {o : Outcome Write RowLock Unit}
    (h : insertRow table row references write = .ok o) {e : IndexEntry} (he : e ∈ Row.entries row) :
    ⟨Row.relation ρ, e, .update⟩ ∈ o.locks := by
  unfold insertRow at h
  split at h
  · cases h
  · split at h
    · cases h
    · cases h
      exact List.mem_append_left _ (List.mem_map_of_mem he)

/-- The locks of an inserted row: its index entries and the rows it refers to. -/
theorem mem_insertRow_locks {ρ : Type} [Row ρ] {table : Rows ρ} {row : ρ}
    {references : List Reference} {write : Write} {o : Outcome Write RowLock Unit} {l : RowLock}
    (h : insertRow table row references write = .ok o) (hl : l ∈ o.locks) :
    (∃ e ∈ Row.entries row, l = ⟨Row.relation ρ, e, .update⟩) ∨
      ∃ r ∈ references, l = Reference.lock r := by
  unfold insertRow at h
  split at h
  · cases h
  · split at h
    · cases h
    · cases h
      rcases List.mem_append.mp hl with hl | hl
      · obtain ⟨e, he, rfl⟩ := List.mem_map.mp hl
        exact Or.inl ⟨e, he, rfl⟩
      · obtain ⟨r, hr, rfl⟩ := List.mem_map.mp hl
        exact Or.inr ⟨r, hr, rfl⟩

end VerigenceSecurity
