import VerigenceSecurity.OnboardingStore
import VerigenceSecurity.PlatformBootstrap
import VerigenceSecurity.PrivilegedAccess

/-! # Invitations

The part of `OnboardingService` that invites people into a tenant: an invitation is created with a
pending user and membership, and cancelled, or accepted with the identity that shows its secret.
-/

namespace VerigenceSecurity
set_option autoImplicit false

open Transaction Program Relational

/-- `PRIVILEGED_ROLE_KEYS` of the onboarding service. -/
def onboardingPrivilegedRoleKeys : List String :=
  ["tenant.owner", "tenant.admin", "tenant.rbac_admin", "tenant.access_admin",
    "tenant.security_policy_admin", "tenant.security_approver"]

/-- `except Exception: rollback; raise`. -/
def rollbackAndReraise {α : Type} (e : Failure) : OnboardingTx α := do
  rollbackNow
  raise e

/-! ## Queries -/

structure BoundIdentity where
  externalIdentityId : Uuid
  userId : Uuid
  status : IdentityStatus
  userStatus : UserStatus
  principalStatus : PrincipalStatus
  deriving DecidableEq, Repr

namespace OnboardingDatabase

variable (db : OnboardingDatabase)

def boundIdentity? (provider : IdentityProvider) (subject : String) : Option BoundIdentity :=
  (db.externalIdentities.rows.find? fun e =>
    decide (e.provider = provider ∧ e.providerSubject = subject)).bind fun e =>
  (db.users.rows.find? fun u => decide (u.userId = e.userId)).bind fun u =>
  (db.securityPrincipals.rows.find? fun p => decide (p.principalId = e.userId)).map fun p =>
    ⟨e.externalIdentityId, e.userId, e.status, u.status, p.status⟩

def membership? (tenantId userId : Uuid) : Option TenantMembership :=
  db.tenantMemberships.rows.find? fun r => decide (r.tenantId = tenantId ∧ r.userId = userId)

def pendingMembershipIds (tenantId userId : Uuid) : List Uuid :=
  (db.tenantMemberships.rows.filter fun r => decide (r.tenantId = tenantId ∧ r.userId = userId ∧
    r.status = .pending)).map (·.membershipId)

def activeRoleKey? (tenantId roleId : Uuid) : Option String :=
  (db.roles.rows.find? fun r => decide (r.tenantId = tenantId ∧ r.roleId = roleId ∧
    r.status = .active)).map (·.roleKey)

def isActiveGroup (tenantId groupId : Uuid) : Bool :=
  db.groups.rows.any fun r => decide (r.tenantId = tenantId ∧ r.groupId = groupId ∧
    r.status = .active)

def isActiveLocation (tenantId : Uuid) (location : ProposedLocation) : Bool :=
  db.tenantLocations.rows.any fun l => decide (l.tenantId = tenantId ∧
    l.locationId = location.locationId ∧ l.status = .active) &&
      db.accessSchedules.rows.any fun s => decide (s.tenantId = l.tenantId ∧
        s.scheduleId = location.scheduleId ∧ s.status = .active)

/-- A user that another row refers to is not deleted. -/
def refersToUser (userId : Uuid) : Bool :=
  db.externalIdentities.rows.any (fun r => decide (r.userId = userId)) ||
  db.tenantMemberships.rows.any (fun r => decide (r.userId = userId)) ||
  db.userRoleAssignments.rows.any (fun r => decide (r.userId = userId ∨
    r.assignedByUserId = userId)) ||
  db.userLocationAssignments.rows.any (fun r => decide (r.userId = userId)) ||
  db.accessScheduleOverrides.rows.any (fun r => decide (r.userId = userId)) ||
  db.registeredDevices.rows.any (fun r => decide (r.userId = userId ∨
    r.approvedByUserId = some userId)) ||
  db.deviceEnrollmentRequests.rows.any (fun r => decide (r.userId = userId ∨
    r.decidedByUserId = some userId)) ||
  db.userTenantAuthorizationState.rows.any (fun r => decide (r.userId = userId)) ||
  db.platformUserRoleAssignments.rows.any (fun r => decide (r.userId = userId)) ||
  db.localUserCredentials.rows.any (fun r => decide (r.userId = userId)) ||
  db.roleTemplateBindings.rows.any (fun r => decide (r.appliedByUserId = userId)) ||
  db.groupMemberships.rows.any (fun r => decide (r.userId = userId ∨ r.addedByUserId = userId)) ||
  db.groupRoleAssignments.rows.any (fun r => decide (r.assignedByUserId = userId)) ||
  db.privilegedAccessRequests.rows.any (fun r => decide (r.subjectUserId = userId ∨
    r.requestedByUserId = userId ∨ r.approvedByUserId = some userId)) ||
  db.adminChangeRecords.rows.any (fun r => decide (r.actorUserId = userId)) ||
  db.platformUserOnboardingRequests.rows.any (fun r => decide (r.userId = userId ∨
    r.reviewedByUserId = some userId)) ||
  db.tenantSelfOnboardingSettings.rows.any (fun r => decide (r.createdByUserId = userId ∨
    r.updatedByUserId = userId)) ||
  db.tenantInvitations.rows.any (fun r => decide (r.invitedUserId = userId ∨
    r.invitedByUserId = userId)) ||
  db.selfOnboardingRequests.rows.any (fun r => decide (r.userId = userId ∨
    r.reviewedByUserId = some userId))

def refersToPrincipal (principalId : Uuid) : Bool :=
  db.users.rows.any (fun r => decide (r.userId = principalId)) ||
  db.principalTenantScopes.rows.any (fun r => decide (r.principalId = principalId)) ||
  db.principalPermissionGrants.rows.any (fun r => decide (r.principalId = principalId)) ||
  db.principalCredentials.rows.any (fun r => decide (r.principalId = principalId)) ||
  db.accessSessions.rows.any (fun r => decide (r.principalId = principalId)) ||
  db.accessContextEvaluations.rows.any (fun r => decide (r.principalId = principalId)) ||
  db.securityEvents.rows.any (fun r => decide (r.principalId = principalId))

/-- A membership that a session was opened under is not deleted. -/
def sessionsUnder (ids : List Uuid) : Option Failure :=
  if db.accessSessions.rows.any fun r => r.membershipId.any fun id => decide (id ∈ ids) then
    some (.integrityError .foreignKey)
  else none

end OnboardingDatabase

/-! ## Statements -/

def membershipLock (membershipId : Uuid) (mode : LockMode) : OnboardingLock :=
  .stored (rowLock .tenantMemberships [membershipId] mode)

def insertMembership (row : TenantMembership) : OnboardingTx Unit :=
  execute .insertMembership fun db =>
    insertChecked (db.tenantMemberships.insert? row).isSome (rowLocks row)
      [db.tenantRef row.tenantId, db.userRef row.userId] (.insertMembership row)

def pendingMembership (membershipId tenantId userId : Uuid) : TenantMembership :=
  ⟨membershipId, tenantId, userId, .pending, none, none, 1⟩

/-- `_audit`; `changeId` is the UUID that it draws. -/
def recordChange (changeId correlationId tenantId actorUserId operationKey resourceType
    resourceId : String) (now : Instant) : OnboardingTx Unit :=
  execute (.stored .audit) fun db =>
    let row : AdminChangeRecord := ⟨changeId, correlationId, .tenant, some tenantId, actorUserId,
      operationKey, resourceType, resourceId, now⟩
    insertChecked (db.adminChangeRecords.insert? row).isSome (rowLocks row)
      [db.tenantRef tenantId, db.userRef actorUserId] (.stored (.insertAdminChange row))

def roleKeyOf (tenantId roleId : Uuid) : OnboardingTx String :=
  query .role fun db =>
    match db.activeRoleKey? tenantId roleId with
    | none => .error (.valueError "Role must belong to the Tenant and be ACTIVE")
    | some roleKey => .ok roleKey

def validatedRoles (tenantId : Uuid) : List Uuid → OnboardingTx (List Uuid)
  | [] => pure []
  | roleId :: rest => do
    let roleKey ← roleKeyOf tenantId roleId
    let privileged ← validatedRoles tenantId rest
    pure (if roleKey ∈ onboardingPrivilegedRoleKeys then roleId :: privileged else privileged)

def requireGroup (tenantId groupId : Uuid) : OnboardingTx Unit :=
  query .group fun db =>
    if db.isActiveGroup tenantId groupId then .ok ()
    else .error (.valueError "Group must belong to the Tenant and be ACTIVE")

def requireLocation (tenantId : Uuid) (location : ProposedLocation) : OnboardingTx Unit :=
  query .locationAndSchedule fun db =>
    if db.isActiveLocation tenantId location then .ok ()
    else .error (.valueError "Location and schedule must belong to the Tenant and be ACTIVE")

structure ValidatedAccess where
  access : ProposedAccess
  privilegedRoleIds : List Uuid

def validatedAccess (tenantId : Uuid) (access : ProposedAccess) : OnboardingTx ValidatedAccess := do
  let roles := access.roleIds.eraseDups
  let groups := access.groupIds.eraseDups
  let privileged ← validatedRoles tenantId roles
  each (requireGroup tenantId) groups
  let locations := access.locationAssignments.eraseDups
  each (requireLocation tenantId) locations
  pure ⟨⟨roles, groups, locations⟩, privileged⟩

/-! ## `create_invitation` -/

structure CreateInvitationCall where
  tenantId : Uuid
  actorUserId : Uuid
  displayName : String
  email : Option String
  mobile : Option String
  employeeCode : Option String
  access : ProposedAccess
  expiresAt : Instant
  correlationId : String
  now : Instant
  invitationId : Uuid
  userId : Uuid
  membershipId : Uuid
  changeId : Uuid
  rawValue : String

/-- `value.strip() if value else None`. -/
def strippedOrNone (value : Option String) : Option String :=
  (value.filter fun v => decide (v ≠ "")).map strip

/-- `not value`. -/
def missingText (value : Option String) : Bool := value.all fun v => decide (v = "")

namespace CreateInvitationCall

variable (c : CreateInvitationCall)

def user : User where
  userId := c.userId
  displayName := c.displayName
  firstName := none
  lastName := none
  primaryEmail := strippedOrNone c.email
  primaryMobile := strippedOrNone c.mobile
  status := .invited
  createdAt := c.now
  updatedAt := c.now

def row (hash : String → String) (validated : ValidatedAccess) (h : c.now < c.expiresAt) :
    TenantInvitation where
  invitationId := c.invitationId
  tenantId := c.tenantId
  invitedUserId := c.userId
  inviteeEmail := strippedOrNone c.email
  inviteeMobile := strippedOrNone c.mobile
  employeeCode := c.employeeCode
  acceptanceTokenHash := hash c.rawValue
  proposedAccess := validated.access
  requiresPrivilegedApproval := !validated.privilegedRoleIds.isEmpty
  status := .pending
  invitedByUserId := c.actorUserId
  invitedAt := c.now
  expiresAt := c.expiresAt
  acceptedAt := none
  correlationId := c.correlationId
  lifetime := h

end CreateInvitationCall

/-- What the service tells of an invitation: all but the hash. -/
structure InvitationView where
  invitationId : Uuid
  tenantId : Uuid
  invitedUserId : Uuid
  displayName : String
  inviteeEmail : Option String
  inviteeMobile : Option String
  employeeCode : Option String
  proposedAccess : ProposedAccess
  requiresPrivilegedApproval : Bool
  status : InvitationStatus
  invitedByUserId : Uuid
  invitedAt : Instant
  expiresAt : Instant
  acceptedAt : Option Instant
  correlationId : String
  deriving DecidableEq, Repr

def InvitationView.ofRow (r : TenantInvitation) (displayName : String) : InvitationView :=
  ⟨r.invitationId, r.tenantId, r.invitedUserId, displayName, r.inviteeEmail, r.inviteeMobile,
    r.employeeCode, r.proposedAccess, r.requiresPrivilegedApproval, r.status, r.invitedByUserId,
    r.invitedAt, r.expiresAt, r.acceptedAt, r.correlationId⟩

def OnboardingDatabase.invitationView? (db : OnboardingDatabase) (tenantId invitationId : Uuid) :
    Option InvitationView :=
  (db.tenantInvitations.rows.find? fun r => decide (r.tenantId = tenantId ∧
    r.invitationId = invitationId)).bind fun r =>
  (db.users.rows.find? fun u => decide (u.userId = r.invitedUserId)).map fun u =>
    .ofRow r u.displayName

def getInvitation (tenantId invitationId : Uuid) : OnboardingTx (Option InvitationView) :=
  query .invitation fun db => .ok (db.invitationView? tenantId invitationId)

def createInvitedUser (c : CreateInvitationCall) : OnboardingTx Unit := do
  storedPart.program (insertPrincipal ⟨c.userId, .user, c.displayName, .active⟩)
  storedPart.program (insertUser c.user)
  insertMembership (pendingMembership c.membershipId c.tenantId c.userId)

def insertInvitation (row : TenantInvitation) : OnboardingTx Unit :=
  execute .insertInvitation fun db =>
    insertChecked (db.tenantInvitations.insert? row).isSome
      (ownLocks .tenantInvitations row.entries)
      [db.tenantRef row.tenantId, db.userRef row.invitedUserId, db.userRef row.invitedByUserId]
      (.insertInvitation row)

def storeInvitation (c : CreateInvitationCall) (row : TenantInvitation) : OnboardingTx Unit := do
  createInvitedUser c
  insertInvitation row
  recordChange c.changeId c.correlationId c.tenantId c.actorUserId "security.member.invite"
    "INVITATION" c.invitationId c.now
  commitNow

def createInvitation (hash : String → String) (c : CreateInvitationCall) :
    OnboardingTx (InvitationView × String) :=
  if missingText (strippedOrNone c.email) ∧ missingText (strippedOrNone c.mobile) then
    raise (.valueError "At least one invitation contact channel is required")
  else if h : c.now < c.expiresAt then do
    let found ← query (.stored .tenantStatus) fun db =>
      .ok (db.tenants.rows.any fun r => decide (r.tenantId = c.tenantId))
    if !found then raise (.lookupError "Tenant not found")
    else
      let validated ← validatedAccess c.tenantId c.access
      attempt rollbackAndReraise (storeInvitation c (c.row hash validated h))
      let row ← getInvitation c.tenantId c.invitationId
      match row with
      | none => raise (.runtimeError "Created invitation could not be reloaded")
      | some row => pure (row, c.rawValue)
  else raise (.valueError "Invitation expiry must be in the future")

/-! ## `cancel_invitation` -/

structure CancelInvitationCall where
  tenantId : Uuid
  invitationId : Uuid
  actorUserId : Uuid
  correlationId : String
  now : Instant
  changeId : Uuid

def lockInvitation (invitationId : Uuid) (inTenant : TenantInvitation → Bool) :
    OnboardingTx (Option TenantInvitation) :=
  execute .lockInvitation fun db =>
    match db.tenantInvitations.rows.find? fun r =>
      decide (r.invitationId = invitationId) && inTenant r with
    | none => .ok { value := none }
    | some row => .ok {
        value := some row
        locks := [ownLock .tenantInvitations invitationId .update] }

def updateInvitation (name : OnboardingStatement) (invitationId : Uuid) (write : OnboardingWrite) :
    OnboardingTx Unit :=
  execute name fun _ => .ok {
    value := ()
    edits := [write]
    locks := [ownLock .tenantInvitations invitationId .noKeyUpdate] }

def cancelPending (c : CancelInvitationCall) (row : TenantInvitation) : OnboardingTx Bool := do
  updateInvitation .cancelInvitation c.invitationId (.cancelInvitation c.tenantId c.invitationId)
  changeWhere .endMembership (·.pendingMembershipIds c.tenantId row.invitedUserId)
    (fun id => [membershipLock id .noKeyUpdate]) (fun _ _ => none)
    (.endPendingMembership · c.tenantId row.invitedUserId c.now)
  recordChange c.changeId c.correlationId c.tenantId c.actorUserId
    "security.member.invitation.cancel" "INVITATION" c.invitationId c.now
  commitNow
  pure true

def cancelInvitation (c : CancelInvitationCall) : OnboardingTx Bool := do
  let found ← lockInvitation c.invitationId fun r => decide (r.tenantId = c.tenantId)
  match found with
  | none =>
    rollbackNow
    pure false
  | some row =>
    if row.status ≠ .pending then
      rollbackNow
      raise (.valueError "Only a PENDING invitation can be cancelled")
    else attempt rollbackAndReraise (cancelPending c row)

/-! ## `accept_invitation` -/

structure GrantIds where
  roleAssignment : Uuid → Uuid
  groupMembership : Uuid → Uuid
  locationAssignment : ProposedLocation → Uuid

structure AcceptInvitationCall where
  invitationId : Uuid
  acceptanceToken : String
  identityProvider : IdentityProvider
  identitySubject : String
  correlationId : String
  now : Instant
  externalIdentityId : Uuid
  membershipId : Uuid
  requestId : Uuid → Uuid
  grantIds : GrantIds
  changeId : Uuid

structure AcceptedInvitation where
  invitationId : Uuid
  tenantId : Uuid
  userId : Uuid
  status : InvitationStatus
  membershipStatus : MembershipStatus
  privilegedAccessRequestIds : List Uuid
  deriving DecidableEq, Repr

def deleteUser (userId : Uuid) : OnboardingTx Unit :=
  execute .deleteUser fun db =>
    if db.refersToUser userId then .error (.integrityError .foreignKey)
    else .ok {
      value := ()
      edits := [.deleteUser userId]
      locks := (db.users.rows.filter fun r => decide (r.userId = userId)).flatMap rowLocks }

def deletePrincipal (principalId : Uuid) : OnboardingTx Unit :=
  execute .deletePrincipal fun db =>
    if db.refersToPrincipal principalId then .error (.integrityError .foreignKey)
    else .ok {
      value := ()
      edits := [.deletePrincipal principalId]
      locks := [.stored (rowLock .securityPrincipals [principalId] .update)] }

def rebindInvitation (invitationId userId : Uuid) : OnboardingTx Unit :=
  execute .rebindInvitation fun db =>
    if (db.userRef userId).present = false then .error (.integrityError .foreignKey)
    else .ok {
      value := ()
      edits := [.rebindInvitation invitationId userId]
      locks := [ownLock .tenantInvitations invitationId .noKeyUpdate, (db.userRef userId).lock] }

/-- The invited user makes way for one who is known already. -/
def bindKnownUser (c : AcceptInvitationCall) (invitation : TenantInvitation) (userId : Uuid) :
    OnboardingTx Uuid := do
  let member ← query .membership fun db => .ok (db.membership? invitation.tenantId userId).isSome
  if member then raise (.valueError "Authenticated user already has a Tenant membership")
  else
    changeWhere .deleteMembership
      (·.pendingMembershipIds invitation.tenantId invitation.invitedUserId)
      (fun id => [membershipLock id .update, .stored ⟨.tenantMemberships,
        (.natural, [invitation.tenantId, invitation.invitedUserId]), .update⟩])
      OnboardingDatabase.sessionsUnder
      (.deletePendingMembership · invitation.tenantId invitation.invitedUserId)
    rebindInvitation c.invitationId userId
    insertMembership (pendingMembership c.membershipId invitation.tenantId userId)
    deleteUser invitation.invitedUserId
    deletePrincipal invitation.invitedUserId
    pure userId

def bindInvitationIdentity (c : AcceptInvitationCall) (invitation : TenantInvitation) :
    OnboardingTx Uuid := do
  let found ← query .identity fun db =>
    .ok (db.boundIdentity? c.identityProvider c.identitySubject)
  match found with
  | none =>
    storedPart.program (insertExternalIdentity ⟨c.externalIdentityId, invitation.invitedUserId,
      c.identityProvider, c.identitySubject, .active⟩)
    pure invitation.invitedUserId
  | some identity =>
    if identity.status ≠ .active ∨ identity.principalStatus ≠ .active then
      raise (securityError .principalNotActive)
    else if identity.userId = invitation.invitedUserId then pure invitation.invitedUserId
    else if identity.userStatus ≠ .active then raise (securityError .userNotActive)
    else bindKnownUser c invitation identity.userId

def updateUser (name : OnboardingStatement) (userId : Uuid) (write : OnboardingWrite) :
    OnboardingTx Unit :=
  execute name fun _ => .ok {
    value := ()
    edits := [write]
    locks := [.stored (rowLock .users [userId] .noKeyUpdate)] }

def invitationRequest (c : AcceptInvitationCall) (invitation : TenantInvitation)
    (userId roleId : Uuid) : PrivilegedAccessRequest where
  requestId := c.requestId roleId
  tenantId := invitation.tenantId
  subjectUserId := userId
  roleId := roleId
  sourceInvitationId := some c.invitationId
  status := .pending
  requestedByUserId := invitation.invitedByUserId
  requestedAt := c.now
  approvedByUserId := none
  decidedAt := none
  decisionReason := none
  correlationId := c.correlationId
  independent := by simp

def insertInvitationRequest (row : PrivilegedAccessRequest) (invitationId : Uuid) :
    OnboardingTx Unit :=
  execute .insertPrivilegedRequest fun db =>
    insertChecked (db.privilegedAccessRequests.insert? row).isSome (rowLocks row)
      [db.tenantRef row.tenantId, db.userRef row.subjectUserId, db.roleRef row.tenantId row.roleId,
        db.invitationRef invitationId, db.userRef row.requestedByUserId]
      (.stored (.insertPrivilegedAccessRequest row))

structure AccessGrant where
  tenantId : Uuid
  userId : Uuid
  actorUserId : Uuid
  now : Instant
  ids : GrantIds

namespace AccessGrant

variable (g : AccessGrant)

def roleAssignment (roleId : Uuid) : UserRoleAssignment :=
  ⟨g.ids.roleAssignment roleId, g.tenantId, g.userId, roleId, .active, some g.now, none, g.actorUserId⟩

def groupMembership (groupId : Uuid) : GroupMembership :=
  ⟨g.ids.groupMembership groupId, g.tenantId, groupId, g.userId, .active, some g.now, none,
    g.actorUserId, none⟩

def locationAssignment (location : ProposedLocation) : UserLocationAssignment :=
  ⟨g.ids.locationAssignment location, g.tenantId, g.userId, location.locationId,
    location.scheduleId, some g.now, none, .active⟩

def assignRole (roleId : Uuid) : OnboardingTx Unit :=
  execute .assignRole fun db =>
    let row := g.roleAssignment roleId
    insertUnlessTaken (db.userRoleAssignments.insert? row).isSome (rowLocks row)
      [db.userRef g.userId, db.roleRef g.tenantId roleId, db.userRef g.actorUserId]
      (.stored (.insertUserRoleAssignment row))

def joinGroup (groupId : Uuid) : OnboardingTx Unit :=
  execute .joinGroup fun db =>
    let row := g.groupMembership groupId
    insertUnlessTaken (db.groupMemberships.insert? row).isSome (rowLocks row)
      [db.tenantRef g.tenantId, db.groupRef g.tenantId groupId, db.userRef g.userId,
        db.userRef g.actorUserId]
      (.stored (.insertGroupMembership row))

def assignLocation (location : ProposedLocation) : OnboardingTx Unit :=
  execute .assignLocation fun db =>
    let row := g.locationAssignment location
    insertUnlessTaken (db.userLocationAssignments.insert? row).isSome (rowLocks row)
      [db.userRef g.userId, db.locationRef g.tenantId location.locationId,
        db.scheduleRef g.tenantId location.scheduleId, db.userRef g.actorUserId]
      (.insertUserLocationAssignment row)

def materialize (access : ProposedAccess) : OnboardingTx Unit := do
  changeWhere .activateMembership (·.pendingMembershipIds g.tenantId g.userId)
    (fun id => [membershipLock id .noKeyUpdate]) (fun _ _ => none)
    (.activatePendingMembership · g.tenantId g.userId g.now)
  each g.assignRole access.roleIds
  each g.joinGroup access.groupIds
  each g.assignLocation access.locationAssignments

end AccessGrant

def AcceptInvitationCall.grant (c : AcceptInvitationCall) (invitation : TenantInvitation)
    (userId : Uuid) : AccessGrant :=
  ⟨invitation.tenantId, userId, invitation.invitedByUserId, c.now, c.grantIds⟩

/-- With a privileged role among the proposed ones nothing is granted yet. -/
def grantOrRequest (c : AcceptInvitationCall) (invitation : TenantInvitation) (userId : Uuid)
    (validated : ValidatedAccess) : OnboardingTx MembershipStatus :=
  if validated.privilegedRoleIds ≠ [] then do
    each (fun roleId => insertInvitationRequest (invitationRequest c invitation userId roleId)
      c.invitationId) validated.privilegedRoleIds
    pure .pending
  else do
    (c.grant invitation userId).materialize validated.access
    pure .active

def acceptPending (c : AcceptInvitationCall) (invitation : TenantInvitation) :
    OnboardingTx AcceptedInvitation := do
  let userId ← bindInvitationIdentity c invitation
  let validated ← validatedAccess invitation.tenantId invitation.proposedAccess
  updateUser .activateUser userId (.activateInvitedUser userId c.now)
  updateInvitation .acceptInvitation c.invitationId (.acceptInvitation c.invitationId c.now)
  let membershipStatus ← grantOrRequest c invitation userId validated
  recordChange c.changeId c.correlationId invitation.tenantId userId "security.invitation.accept"
    "INVITATION" c.invitationId c.now
  commitNow
  pure ⟨c.invitationId, invitation.tenantId, userId, .accepted, membershipStatus,
    validated.privilegedRoleIds.map c.requestId⟩

/-- `verify` is `_verify_secret`: the stored hash against the secret that is shown. -/
def acceptInvitation (verify : String → String → Bool) (c : AcceptInvitationCall) :
    OnboardingTx AcceptedInvitation := do
  let found ← lockInvitation c.invitationId fun _ => true
  match found with
  | none => raise (securityError .permissionDenied)
  | some invitation =>
    if invitation.status ≠ .pending then raise (securityError .permissionDenied)
    else if invitation.expiresAt ≤ c.now then
      updateInvitation .expireInvitation c.invitationId (.expireInvitation c.invitationId)
      commitNow
      raise (securityError .permissionDenied)
    else if verify invitation.acceptanceTokenHash c.acceptanceToken = false then
      raise (securityError .permissionDenied)
    else attempt rollbackAndReraise (acceptPending c invitation)

end VerigenceSecurity
