import VerigenceSecurity.Core
import VerigenceSecurity.Library.Table

/-! # The rows of the security schema

Each row keeps the columns that the modelled functions read or write. A `CHECK`
that a proof rests on is a field of its row, the primary keys and unique indexes
are the entries of the row's table, and the foreign keys to groups and roles are
fields of the tables, so no stored row violates them.
-/

namespace VerigenceSecurity
set_option autoImplicit false

inductive TenantStatus
  | configuring | active | suspended | offboarding | offboarded
  deriving DecidableEq, Repr

inductive PrincipalStatus
  | active | suspended | disabled | revoked
  deriving DecidableEq, Repr

inductive UserStatus
  | pending | invited | active | suspended | disabled | exited
  deriving DecidableEq, Repr

inductive IdentityStatus
  | active | revoked
  deriving DecidableEq, Repr

inductive MembershipStatus
  | pending | active | suspended | ended
  deriving DecidableEq, Repr

/-- Groups, roles, locations, schedules, windows, platform roles and modules. -/
inductive ActiveStatus
  | active | inactive
  deriving DecidableEq, Repr

/-- Assignments, memberships of groups, scopes and grants. -/
inductive AssignmentStatus
  | active | ended
  deriving DecidableEq, Repr

/-- Permissions and role templates. -/
inductive LifecycleStatus
  | active | deprecated | retired
  deriving DecidableEq, Repr

inductive RequestStatus
  | pending | approved | rejected | cancelled | expired
  deriving DecidableEq, Repr

inductive BindingStatus
  | current | superseded
  deriving DecidableEq, Repr

inductive CredentialStatus
  | active | revoked | expired
  deriving DecidableEq, Repr

inductive OverrideStatus
  | active | revoked | expired
  deriving DecidableEq, Repr

inductive PolicyStatus
  | draft | active
  deriving DecidableEq, Repr

inductive DeviceStatus
  | pending | active | blocked | revoked
  deriving DecidableEq, Repr

inductive SessionStatus
  | active | expired | revoked
  deriving DecidableEq, Repr

inductive AuthenticationSource
  | clerk | devMock | clientCredential
  deriving DecidableEq, Repr

inductive EnrollmentStatus
  | pending | approved | rejected | expired
  deriving DecidableEq, Repr

inductive SignupStatus
  | authorizedForClerk | completed | expired | cancelled
  deriving DecidableEq, Repr

inductive OnboardingKeyStatus
  | active | disabled
  deriving DecidableEq, Repr

inductive AssignmentSource
  | bootstrap | admin
  deriving DecidableEq, Repr

inductive OnboardingStatus
  | pendingClerk | clerkInvited | pendingAdminApproval | approved | rejected | cancelled
  | clerkProvisioningFailed
  deriving DecidableEq, Repr

inductive Decision
  | allow | deny
  deriving DecidableEq, Repr

inductive DecisionReason
  | accessGranted | machineAccessGranted | denied (code : ErrorCode)
  deriving DecidableEq, Repr

inductive ScopeType
  | platform | tenant
  deriving DecidableEq, Repr

/-! ## Tables and their index entries -/

inductive Relation
  | tenants | securityPrincipals | users | externalIdentities | tenantMemberships | permissions
  | roles | rolePermissions | userRoleAssignments | principalTenantScopes
  | principalPermissionGrants | principalCredentials | tenantLocations | accessSchedules
  | accessScheduleWindows | userLocationAssignments | accessScheduleOverrides
  | tenantSecurityPolicies | registeredDevices | accessSessions | accessContextEvaluations
  | userTenantAuthorizationState | platformRoles | platformRolePermissions
  | platformUserRoleAssignments | modules | moduleRoleTemplates | moduleRoleTemplatePermissions
  | roleTemplateBindings | groups | groupMemberships | groupRoleAssignments
  | privilegedAccessRequests | adminChangeRecords | platformUserOnboardingRequests
  | deviceEnrollmentRequests | localUserCredentials | platformUserOnboardingSettings
  | platformUserSignupAttempts | securityEvents | tenantSelfOnboardingSettings | advisoryLocks
  deriving DecidableEq, Repr

inductive Index
  | primary | natural | identity | active | pending | email | mobile | clerkUser | clerkEmail
  deriving DecidableEq, Repr

abbrev IndexEntry := Index × List String

class Row (ρ : Type) where
  relation : Relation
  entries : ρ → List IndexEntry

abbrev Rows (ρ : Type) [Row ρ] := Relational.Table ρ IndexEntry Row.entries

structure Tenant where
  tenantId : Uuid
  tenantCode : String
  tenantName : String
  status : TenantStatus
  createdAt : Instant
  updatedAt : Instant
  deriving DecidableEq, Repr

instance : Row Tenant :=
  ⟨.tenants, fun r => [(.primary, [r.tenantId]), (.natural, [r.tenantCode])]⟩

structure SecurityPrincipal where
  principalId : Uuid
  actorType : ActorType
  principalName : String
  status : PrincipalStatus
  deriving DecidableEq, Repr

instance : Row SecurityPrincipal := ⟨.securityPrincipals, fun r => [(.primary, [r.principalId])]⟩

/-- `regexp_replace(value, '[^0-9]', '', 'g')`. -/
def mobileDigits (value : String) : String := String.ofList (value.toList.filter Char.isDigit)

/-- `lower(value)` under the `C` locale. -/
def lower (value : String) : String := value.toLower

structure User where
  userId : Uuid
  displayName : String
  firstName : Option String
  lastName : Option String
  primaryEmail : Option String
  primaryMobile : Option String
  status : UserStatus
  createdAt : Instant
  updatedAt : Instant
  deriving DecidableEq, Repr

instance : Row User where
  relation := .users
  entries r := (.primary, [r.userId]) ::
    (r.primaryEmail.toList.map fun email => (.email, [lower email])) ++
    r.primaryMobile.toList.map fun mobile => (.mobile, [mobileDigits mobile])

structure ExternalIdentity where
  externalIdentityId : Uuid
  userId : Uuid
  provider : IdentityProvider
  providerSubject : String
  status : IdentityStatus
  deriving DecidableEq, Repr

instance : Row ExternalIdentity where
  relation := .externalIdentities
  entries r := [(.primary, [r.externalIdentityId]),
    (.natural, [r.provider.text, r.providerSubject])]

structure TenantMembership where
  membershipId : Uuid
  tenantId : Uuid
  userId : Uuid
  status : MembershipStatus
  validFrom : Option Instant
  validTo : Option Instant
  authorizationVersion : Nat
  deriving DecidableEq, Repr

instance : Row TenantMembership where
  relation := .tenantMemberships
  entries r := [(.primary, [r.membershipId]), (.natural, [r.tenantId, r.userId])]

structure Permission where
  permissionKey : String
  moduleKey : String
  resourceKey : String
  actionKey : String
  displayName : Option String
  description : Option String
  status : LifecycleStatus
  catalogVersion : Option String
  deriving DecidableEq, Repr

instance : Row Permission := ⟨.permissions, fun r => [(.primary, [r.permissionKey])]⟩

def Permission.fits (row : Permission) : Bool :=
  fitsVarchar 180 row.permissionKey && fitsVarchar 40 row.moduleKey &&
    fitsVarchar 100 row.resourceKey && fitsVarchar 80 row.actionKey &&
    row.displayName.all (fitsVarchar 240) && row.description.all (!holdsNul ·) &&
      row.catalogVersion.all (fitsVarchar 40)

structure Role where
  roleId : Uuid
  tenantId : Uuid
  roleKey : String
  roleName : String
  description : Option String
  status : ActiveStatus
  createdAt : Instant
  updatedAt : Instant
  deriving DecidableEq, Repr

instance : Row Role where
  relation := .roles
  entries r := [(.primary, [r.roleId]), (.natural, [r.tenantId, r.roleKey]),
    (.identity, [r.tenantId, r.roleId])]

structure RolePermission where
  tenantId : Uuid
  roleId : Uuid
  permissionKey : String
  deriving DecidableEq, Repr

instance : Row RolePermission :=
  ⟨.rolePermissions, fun r => [(.primary, [r.tenantId, r.roleId, r.permissionKey])]⟩

structure UserRoleAssignment where
  assignmentId : Uuid
  tenantId : Uuid
  userId : Uuid
  roleId : Uuid
  status : AssignmentStatus
  validFrom : Option Instant
  validTo : Option Instant
  assignedByUserId : Uuid
  deriving DecidableEq, Repr

instance : Row UserRoleAssignment where
  relation := .userRoleAssignments
  entries r := (.primary, [r.assignmentId]) ::
    match r.status with
    | .active => [(.active, [r.tenantId, r.userId, r.roleId])]
    | .ended => []

structure PrincipalTenantScope where
  scopeId : Uuid
  principalId : Uuid
  tenantId : Uuid
  status : AssignmentStatus
  validFrom : Option Instant
  validTo : Option Instant
  deriving DecidableEq, Repr

instance : Row PrincipalTenantScope where
  relation := .principalTenantScopes
  entries r := (.primary, [r.scopeId]) ::
    match r.status with
    | .active => [(.active, [r.principalId, r.tenantId])]
    | .ended => []

structure PrincipalPermissionGrant where
  grantId : Uuid
  principalId : Uuid
  tenantId : Uuid
  permissionKey : String
  status : AssignmentStatus
  deriving DecidableEq, Repr

instance : Row PrincipalPermissionGrant where
  relation := .principalPermissionGrants
  entries r := (.primary, [r.grantId]) ::
    match r.status with
    | .active => [(.active, [r.principalId, r.tenantId, r.permissionKey])]
    | .ended => []

structure PrincipalCredential where
  credentialId : Uuid
  principalId : Uuid
  clientId : String
  secretHash : String
  status : CredentialStatus
  validFrom : Instant
  validTo : Option Instant
  lastUsedAt : Option Instant
  deriving DecidableEq, Repr

instance : Row PrincipalCredential where
  relation := .principalCredentials
  entries r := [(.primary, [r.credentialId]), (.natural, [r.clientId])]

structure TenantLocation where
  locationId : Uuid
  tenantId : Uuid
  latitude : Rat
  longitude : Rat
  allowedRadiusMeters : Int
  timezoneIana : String
  status : ActiveStatus
  deriving DecidableEq, Repr

instance : Row TenantLocation where
  relation := .tenantLocations
  entries r := [(.primary, [r.locationId])]

structure AccessSchedule where
  scheduleId : Uuid
  tenantId : Uuid
  scheduleKey : String
  scheduleName : String
  status : ActiveStatus
  deriving DecidableEq, Repr

instance : Row AccessSchedule where
  relation := .accessSchedules
  entries r := [(.primary, [r.scheduleId]), (.natural, [r.tenantId, r.scheduleKey])]

/-- Local times count microseconds from midnight. -/
structure AccessScheduleWindow where
  scheduleWindowId : Uuid
  tenantId : Uuid
  scheduleId : Uuid
  isoDayOfWeek : Int
  startLocalTime : Int
  endLocalTime : Int
  crossesMidnight : Bool
  status : ActiveStatus
  deriving DecidableEq, Repr

instance : Row AccessScheduleWindow :=
  ⟨.accessScheduleWindows, fun r => [(.primary, [r.scheduleWindowId])]⟩

structure UserLocationAssignment where
  assignmentId : Uuid
  tenantId : Uuid
  userId : Uuid
  locationId : Uuid
  scheduleId : Uuid
  validFrom : Option Instant
  validTo : Option Instant
  status : AssignmentStatus
  deriving DecidableEq, Repr

instance : Row UserLocationAssignment where
  relation := .userLocationAssignments
  entries r := (.primary, [r.assignmentId]) ::
    match r.status with
    | .active => [(.active, [r.tenantId, r.userId, r.locationId])]
    | .ended => []

structure AccessScheduleOverride where
  overrideId : Uuid
  tenantId : Uuid
  userId : Uuid
  locationId : Uuid
  validFrom : Instant
  validTo : Instant
  status : OverrideStatus
  deriving DecidableEq, Repr

instance : Row AccessScheduleOverride :=
  ⟨.accessScheduleOverrides, fun r => [(.primary, [r.overrideId])]⟩

/-- The bounds are the `CHECK`s of the table. -/
structure TenantSecurityPolicy where
  tenantId : Uuid
  maxActiveDevicesPerUser : Int
  maxGeoAccuracyMeters : PyFloat
  maxGeoAgeSeconds : Int
  geoRevalidationIntervalSeconds : Int
  accessTokenTtlMinutes : Int
  machineTokenTtlMinutes : Int
  sessionIdleTimeoutMinutes : Int
  sessionMaxDurationMinutes : Int
  vpnDetectedAction : PolicyAction
  vpnUnknownAction : PolicyAction
  status : PolicyStatus
  geoRevalidationInterval_pos : 0 < geoRevalidationIntervalSeconds
  accessTokenTtl_pos : 0 < accessTokenTtlMinutes
  machineTokenTtl_pos : 0 < machineTokenTtlMinutes
  sessionMaxDuration_pos : 0 < sessionMaxDurationMinutes
  deriving DecidableEq

instance : Row TenantSecurityPolicy := ⟨.tenantSecurityPolicies, fun r => [(.primary, [r.tenantId])]⟩

structure RegisteredDevice where
  deviceId : Uuid
  tenantId : Uuid
  userId : Uuid
  status : DeviceStatus
  approvedByUserId : Option Uuid
  approvedAt : Option Instant
  deriving DecidableEq, Repr

instance : Row RegisteredDevice := ⟨.registeredDevices, fun r => [(.primary, [r.deviceId])]⟩

structure DeviceEnrollmentRequest where
  enrollmentRequestId : Uuid
  tenantId : Uuid
  userId : Uuid
  deviceId : Uuid
  status : EnrollmentStatus
  decidedByUserId : Option Uuid
  decidedAt : Option Instant
  deriving DecidableEq, Repr

instance : Row DeviceEnrollmentRequest :=
  ⟨.deviceEnrollmentRequests, fun r => [(.primary, [r.enrollmentRequestId])]⟩

/-- `lifetime` is the table's `CHECK (expires_at_utc > started_at_utc)`. -/
structure AccessSession where
  accessSessionId : Uuid
  tenantId : Uuid
  principalId : Uuid
  actorType : ActorType
  membershipId : Option Uuid
  deviceId : Option Uuid
  locationId : Option Uuid
  credentialId : Option Uuid
  authenticationSource : AuthenticationSource
  authorizationVersion : Option Nat
  sourceIp : String
  vpnStatus : Option VpnStatus
  startedAt : Instant
  expiresAt : Instant
  lastActivityAt : Instant
  lastGeoValidatedAt : Option Instant
  status : SessionStatus
  lifetime : startedAt < expiresAt
  deriving DecidableEq

/-- A null column keeps the row out of a unique index, as a null device does here. -/
instance : Row AccessSession where
  relation := .accessSessions
  entries r := (.primary, [r.accessSessionId]) ::
    match r.actorType, r.status, r.deviceId with
    | .user, .active, some deviceId => [(.active, [r.tenantId, r.principalId, deviceId])]
    | _, _, _ => []

structure AccessContextEvaluation where
  evaluationId : Uuid
  accessSessionId : Option Uuid
  tenantId : Uuid
  principalId : Uuid
  actorType : ActorType
  suppliedLatitude : Option PyFloat
  suppliedLongitude : Option PyFloat
  suppliedAccuracyMeters : Option PyFloat
  geoCapturedAt : Option Instant
  geoSource : Option GeoSource
  geoIntegrityStatus : Option GeoIntegrityStatus
  geoIntegrityReason : Option String
  matchedLocationId : Option Uuid
  matchedDistanceMeters : Option Rat
  evaluatedLocalTime : Option Int
  evaluatedTimezone : Option String
  scheduleId : Option Uuid
  sourceIp : String
  vpnStatus : Option VpnStatus
  decision : Decision
  decisionReasonCode : DecisionReason
  correlationId : String
  evaluatedAt : Instant
  deriving DecidableEq, Repr

instance : Row AccessContextEvaluation :=
  ⟨.accessContextEvaluations, fun r => [(.primary, [r.evaluationId])]⟩

def AccessContextEvaluation.fits (row : AccessContextEvaluation) : Bool :=
  row.suppliedLatitude.all (·.fitsNumeric 9 6) && row.suppliedLongitude.all (·.fitsNumeric 9 6) &&
    row.suppliedAccuracyMeters.all (·.fitsNumeric 10 2) &&
    row.geoIntegrityReason.all (fitsVarchar 240) &&
      row.matchedDistanceMeters.all fun meters => (PyFloat.number meters).fitsNumeric 12 2

structure UserTenantAuthorizationState where
  userId : Uuid
  tenantId : Uuid
  authorizationVersion : Nat
  deriving DecidableEq, Repr

instance : Row UserTenantAuthorizationState :=
  ⟨.userTenantAuthorizationState, fun r => [(.primary, [r.userId, r.tenantId])]⟩

structure PlatformRole where
  roleKey : String
  status : ActiveStatus
  deriving DecidableEq, Repr

instance : Row PlatformRole := ⟨.platformRoles, fun r => [(.primary, [r.roleKey])]⟩

structure PlatformRolePermission where
  roleKey : String
  permissionKey : String
  deriving DecidableEq, Repr

instance : Row PlatformRolePermission :=
  ⟨.platformRolePermissions, fun r => [(.primary, [r.roleKey, r.permissionKey])]⟩

structure PlatformUserRoleAssignment where
  assignmentId : Uuid
  userId : Uuid
  roleKey : String
  status : AssignmentStatus
  assignmentSource : AssignmentSource
  deriving DecidableEq, Repr

instance : Row PlatformUserRoleAssignment where
  relation := .platformUserRoleAssignments
  entries r := (.primary, [r.assignmentId]) ::
    match r.status with
    | .active => [(.active, [r.userId, r.roleKey])]
    | .ended => []

structure Module where
  moduleKey : String
  moduleName : String
  catalogVersion : String
  status : ActiveStatus
  deriving DecidableEq, Repr

instance : Row Module := ⟨.modules, fun r => [(.primary, [r.moduleKey])]⟩

def Module.fits (row : Module) : Bool :=
  fitsVarchar 40 row.moduleKey && fitsVarchar 240 row.moduleName && fitsVarchar 40 row.catalogVersion

structure ModuleRoleTemplate where
  templateId : Uuid
  moduleKey : String
  templateKey : String
  templateName : String
  description : Option String
  catalogVersion : String
  status : LifecycleStatus
  deriving DecidableEq, Repr

instance : Row ModuleRoleTemplate where
  relation := .moduleRoleTemplates
  entries r := [(.primary, [r.templateId]), (.natural, [r.moduleKey, r.templateKey])]

structure ModuleRoleTemplatePermission where
  templateId : Uuid
  permissionKey : String
  deriving DecidableEq, Repr

instance : Row ModuleRoleTemplatePermission :=
  ⟨.moduleRoleTemplatePermissions, fun r => [(.primary, [r.templateId, r.permissionKey])]⟩

structure RoleTemplateBinding where
  bindingId : Uuid
  tenantId : Uuid
  roleId : Uuid
  templateId : Uuid
  appliedCatalogVersion : String
  status : BindingStatus
  appliedByUserId : Uuid
  supersededAt : Option Instant
  deriving DecidableEq, Repr

instance : Row RoleTemplateBinding := ⟨.roleTemplateBindings, fun r => [(.primary, [r.bindingId])]⟩

structure Group where
  groupId : Uuid
  tenantId : Uuid
  groupKey : String
  groupName : String
  description : Option String
  status : ActiveStatus
  createdAt : Instant
  updatedAt : Instant
  deriving DecidableEq, Repr

instance : Row Group where
  relation := .groups
  entries r := [(.primary, [r.groupId]), (.natural, [r.tenantId, r.groupKey]),
    (.identity, [r.tenantId, r.groupId])]

structure GroupMembership where
  groupMembershipId : Uuid
  tenantId : Uuid
  groupId : Uuid
  userId : Uuid
  status : AssignmentStatus
  validFrom : Option Instant
  validTo : Option Instant
  addedByUserId : Uuid
  endedAt : Option Instant
  deriving DecidableEq, Repr

instance : Row GroupMembership where
  relation := .groupMemberships
  entries r := (.primary, [r.groupMembershipId]) ::
    match r.status with
    | .active => [(.active, [r.tenantId, r.groupId, r.userId])]
    | .ended => []

structure GroupRoleAssignment where
  assignmentId : Uuid
  tenantId : Uuid
  groupId : Uuid
  roleId : Uuid
  status : AssignmentStatus
  assignedByUserId : Uuid
  endedAt : Option Instant
  deriving DecidableEq, Repr

instance : Row GroupRoleAssignment where
  relation := .groupRoleAssignments
  entries r := (.primary, [r.assignmentId]) ::
    match r.status with
    | .active => [(.active, [r.tenantId, r.groupId, r.roleId])]
    | .ended => []

/-- `independent` is the pair of `CHECK`s on the approver. -/
structure PrivilegedAccessRequest where
  requestId : Uuid
  tenantId : Uuid
  subjectUserId : Uuid
  roleId : Uuid
  sourceInvitationId : Option Uuid
  status : RequestStatus
  requestedByUserId : Uuid
  requestedAt : Instant
  approvedByUserId : Option Uuid
  decidedAt : Option Instant
  decisionReason : Option String
  correlationId : String
  independent : ∀ a ∈ approvedByUserId, a ≠ subjectUserId ∧ a ≠ requestedByUserId
  deriving DecidableEq

instance : Row PrivilegedAccessRequest where
  relation := .privilegedAccessRequests
  entries r := (.primary, [r.requestId]) ::
    match r.status with
    | .pending => [(.pending, [r.tenantId, r.subjectUserId, r.roleId])]
    | _ => []

structure AdminChangeRecord where
  adminChangeId : Uuid
  correlationId : String
  scopeType : ScopeType
  tenantId : Option Uuid
  actorUserId : Uuid
  operationKey : String
  resourceType : String
  resourceId : String
  occurredAt : Instant
  deriving DecidableEq, Repr

instance : Row AdminChangeRecord := ⟨.adminChangeRecords, fun r => [(.primary, [r.adminChangeId])]⟩

structure PlatformUserOnboardingRequest where
  onboardingRequestId : Uuid
  userId : Uuid
  email : String
  clerkUserId : Option String
  status : OnboardingStatus
  submittedSourceIp : String
  submittedAt : Instant
  reviewedByUserId : Option Uuid
  reviewedAt : Option Instant
  reviewReason : Option String
  correlationId : String
  deriving DecidableEq, Repr

instance : Row PlatformUserOnboardingRequest where
  relation := .platformUserOnboardingRequests
  entries r := [(.primary, [r.onboardingRequestId]), (.natural, [r.userId])]

structure PlatformUserOnboardingSettings where
  singletonId : Nat
  keyHash : String
  status : OnboardingKeyStatus
  deriving DecidableEq, Repr

instance : Row PlatformUserOnboardingSettings :=
  ⟨.platformUserOnboardingSettings, fun r => [(.primary, [toString r.singletonId])]⟩

/-- `lifetime` and `completion` are the `CHECK`s of the table. -/
structure PlatformUserSignupAttempt where
  signupAttemptId : Uuid
  firstName : String
  lastName : String
  email : String
  mobile : String
  status : SignupStatus
  submittedSourceIp : String
  correlationId : String
  createdAt : Instant
  expiresAt : Instant
  clerkUserId : Option String
  clerkEmailAddressId : Option String
  completedAt : Option Instant
  lifetime : createdAt < expiresAt
  completion : (status = .completed ∧ clerkUserId.isSome ∧ completedAt.isSome) ∨
    (status ≠ .completed ∧ completedAt = none)
  deriving DecidableEq

/-- A live attempt owns its e-mail and its mobile, any attempt its Clerk identifiers. -/
instance : Row PlatformUserSignupAttempt where
  relation := .platformUserSignupAttempts
  entries r := (.primary, [r.signupAttemptId]) ::
    (match r.status with
      | .authorizedForClerk => [(.email, [lower r.email]), (.mobile, [r.mobile])]
      | _ => []) ++
    (r.clerkUserId.toList.map fun id => (.clerkUser, [id])) ++
    r.clerkEmailAddressId.toList.map fun id => (.clerkEmail, [id])

structure LocalUserCredential where
  credentialId : Uuid
  userId : Uuid
  loginName : String
  passwordHash : String
  mustChangePassword : Bool
  deriving DecidableEq, Repr

instance : Row LocalUserCredential where
  relation := .localUserCredentials
  entries r := [(.primary, [r.credentialId]), (.natural, [r.userId]), (.identity, [r.loginName])]

structure SecurityEvent where
  securityEventId : Uuid
  principalId : Uuid
  actorType : ActorType
  eventType : String
  entityType : String
  entityId : String
  outcome : String
  reasonCode : String
  sourceIp : String
  correlationId : String
  occurredAt : Instant
  deriving DecidableEq, Repr

instance : Row SecurityEvent := ⟨.securityEvents, fun r => [(.primary, [r.securityEventId])]⟩

structure TenantSelfOnboardingSettings where
  tenantId : Uuid
  tokenHash : String
  tokenVersion : Nat
  status : OnboardingKeyStatus
  createdByUserId : Uuid
  createdAt : Instant
  updatedByUserId : Uuid
  updatedAt : Instant
  deriving DecidableEq, Repr

instance : Row TenantSelfOnboardingSettings :=
  ⟨.tenantSelfOnboardingSettings, fun r => [(.primary, [r.tenantId])]⟩

/-! ## The database -/

def GroupMembership.inGroup (m : GroupMembership) (g : Group) : Prop :=
  g.tenantId = m.tenantId ∧ g.groupId = m.groupId

def GroupRoleAssignment.toGroup (a : GroupRoleAssignment) (g : Group) : Prop :=
  g.tenantId = a.tenantId ∧ g.groupId = a.groupId

def GroupRoleAssignment.ofRole (a : GroupRoleAssignment) (r : Role) : Prop :=
  r.tenantId = a.tenantId ∧ r.roleId = a.roleId

def UserRoleAssignment.ofRole (a : UserRoleAssignment) (r : Role) : Prop :=
  r.tenantId = a.tenantId ∧ r.roleId = a.roleId

def RolePermission.ofRole (p : RolePermission) (r : Role) : Prop :=
  r.tenantId = p.tenantId ∧ r.roleId = p.roleId

structure RbacTables where
  roles : Rows Role
  rolePermissions : Rows RolePermission
  userRoleAssignments : Rows UserRoleAssignment
  groups : Rows Group
  groupMemberships : Rows GroupMembership
  groupRoleAssignments : Rows GroupRoleAssignment
  permission_role : Relational.Refers rolePermissions roles RolePermission.ofRole
  assignment_role : Relational.Refers userRoleAssignments roles UserRoleAssignment.ofRole
  membership_group : Relational.Refers groupMemberships groups GroupMembership.inGroup
  groupRole_group : Relational.Refers groupRoleAssignments groups GroupRoleAssignment.toGroup
  groupRole_role : Relational.Refers groupRoleAssignments roles GroupRoleAssignment.ofRole

instance : Inhabited RbacTables where
  default := {
    roles := default, rolePermissions := default, userRoleAssignments := default
    groups := default, groupMemberships := default, groupRoleAssignments := default
    permission_role := fun _ h => nomatch h
    assignment_role := fun _ h => nomatch h
    membership_group := fun _ h => nomatch h
    groupRole_group := fun _ h => nomatch h
    groupRole_role := fun _ h => nomatch h }

structure Database extends RbacTables where
  tenants : Rows Tenant
  securityPrincipals : Rows SecurityPrincipal
  users : Rows User
  externalIdentities : Rows ExternalIdentity
  tenantMemberships : Rows TenantMembership
  permissions : Rows Permission
  principalTenantScopes : Rows PrincipalTenantScope
  principalPermissionGrants : Rows PrincipalPermissionGrant
  principalCredentials : Rows PrincipalCredential
  tenantLocations : Rows TenantLocation
  accessSchedules : Rows AccessSchedule
  accessScheduleWindows : Rows AccessScheduleWindow
  userLocationAssignments : Rows UserLocationAssignment
  accessScheduleOverrides : Rows AccessScheduleOverride
  tenantSecurityPolicies : Rows TenantSecurityPolicy
  registeredDevices : Rows RegisteredDevice
  accessSessions : Rows AccessSession
  accessContextEvaluations : Rows AccessContextEvaluation
  userTenantAuthorizationState : Rows UserTenantAuthorizationState
  platformRoles : Rows PlatformRole
  platformRolePermissions : Rows PlatformRolePermission
  platformUserRoleAssignments : Rows PlatformUserRoleAssignment
  modules : Rows Module
  moduleRoleTemplates : Rows ModuleRoleTemplate
  moduleRoleTemplatePermissions : Rows ModuleRoleTemplatePermission
  roleTemplateBindings : Rows RoleTemplateBinding
  privilegedAccessRequests : Rows PrivilegedAccessRequest
  adminChangeRecords : Rows AdminChangeRecord
  platformUserOnboardingRequests : Rows PlatformUserOnboardingRequest
  deviceEnrollmentRequests : Rows DeviceEnrollmentRequest
  localUserCredentials : Rows LocalUserCredential
  platformUserOnboardingSettings : Rows PlatformUserOnboardingSettings
  platformUserSignupAttempts : Rows PlatformUserSignupAttempt
  securityEvents : Rows SecurityEvent
  tenantSelfOnboardingSettings : Rows TenantSelfOnboardingSettings
  deriving Inhabited

end VerigenceSecurity
