import VerigenceSecurity.TenantRbac
import VerigenceSecurity.GeoSchedule

/-! # The security repository

`SecurityRepository` with its group-aware subclass, and the session repositories of
refresh and revocation. The subclass overrides the user context, the effective
permissions and the insertion of a session.
-/

namespace VerigenceSecurity
set_option autoImplicit false

open Transaction Program

inductive RepositoryClass
  | security | groupAware
  deriving DecidableEq, Repr

structure AuthenticatedIdentity where
  provider : IdentityProvider
  providerSubject : String
  deriving DecidableEq, Repr

/-- No membership status is the subclass's `NOT_REQUIRED`. -/
structure UserContext where
  userId : Uuid
  userStatus : UserStatus
  membershipId : Uuid
  membershipStatus : Option MembershipStatus
  authorizationVersion : Nat
  deriving DecidableEq, Repr

structure MachineCredential where
  principalId : Uuid
  actorType : ActorType
  credentialId : Uuid
  clientId : String
  secretHash : String
  deriving DecidableEq, Repr

/-! ## Queries -/

namespace Database

def tenantStatus (db : Database) (tenantId : Uuid) : Except Failure TenantStatus :=
  match db.tenants.rows.find? fun r => decide (r.tenantId = tenantId) with
  | none => .error (securityError .tenantNotActive)
  | some row => .ok row.status

def identityRows (db : Database) (identity : AuthenticatedIdentity) : List SecurityPrincipal :=
  (db.externalIdentities.rows.filter fun ei => decide (ei.provider = identity.provider ∧
      ei.providerSubject = identity.providerSubject ∧ ei.status = .active)).flatMap fun ei =>
    (db.users.rows.filter fun u => decide (u.userId = ei.userId)).flatMap fun u =>
      db.securityPrincipals.rows.filter fun sp => decide (sp.principalId = u.userId)

def resolveIdentityUser (db : Database) (identity : AuthenticatedIdentity) : Except Failure Uuid :=
  match (db.identityRows identity).head? with
  | none => .error (securityError .userNotOnboarded)
  | some principal =>
    if principal.actorType ≠ .user then .error (securityError .actorTypeNotAllowed)
    else if principal.status ≠ .active then .error (securityError .principalNotActive)
    else .ok principal.principalId

def userRow? (db : Database) (userId : Uuid) : Option User :=
  db.users.rows.find? fun r => decide (r.userId = userId)

def principalRow? (db : Database) (principalId : Uuid) : Option SecurityPrincipal :=
  db.securityPrincipals.rows.find? fun r => decide (r.principalId = principalId)

/-- `SecurityRepository.get_user_context`. -/
def membershipContext (db : Database) (userId tenantId : Uuid) (now : Instant) :
    Except Failure UserContext :=
  match db.userRow? userId with
  | none => .error (securityError .userNotOnboarded)
  | some user =>
    if user.status ≠ .active then .error (securityError .userNotActive)
    else
      match db.tenantMemberships.rows.find? fun m =>
          decide (m.userId = userId ∧ m.tenantId = tenantId) with
      | none => .error (securityError .tenantMembershipRequired)
      | some m =>
        if m.status ≠ .active ∨ validAt m.validFrom m.validTo now = false then
          .error (securityError .tenantMembershipInactive)
        else .ok ⟨user.userId, user.status, m.membershipId, some m.status, m.authorizationVersion⟩

/-- `GroupAwareSecurityRepository.get_user_context`, which has no membership gate. -/
def globalContext (db : Database) (userId tenantId : Uuid) : Except Failure UserContext :=
  match db.userRow? userId, db.principalRow? userId with
  | some user, some principal =>
    if principal.status ≠ .active then .error (securityError .principalNotActive)
    else if user.status ≠ .active then .error (securityError .userNotActive)
    else .ok ⟨user.userId, user.status, "", none, db.authorizationVersion tenantId userId⟩
  | _, _ => .error (securityError .userNotOnboarded)

def tenantPolicy (db : Database) (tenantId : Uuid) : Except Failure TenantSecurityPolicy :=
  match db.tenantSecurityPolicies.rows.find? fun r => decide (r.tenantId = tenantId) with
  | none => .error (securityError .tenantSecurityNotReady)
  | some policy =>
    if policy.status ≠ .active then .error (securityError .tenantSecurityNotReady) else .ok policy

def deviceRow? (db : Database) (tenantId userId deviceId : Uuid) : Option RegisteredDevice :=
  db.registeredDevices.rows.find? fun r =>
    decide (r.tenantId = tenantId ∧ r.userId = userId ∧ r.deviceId = deviceId)

def assignedLocations (db : Database) (tenantId userId : Uuid) (now : Instant) :
    List LocationCandidate :=
  (db.userLocationAssignments.rows.filter fun a => decide (a.tenantId = tenantId ∧
      a.userId = userId ∧ a.status = .active) && validAt a.validFrom a.validTo now).flatMap fun a =>
    (db.tenantLocations.rows.filter fun l => decide (l.tenantId = a.tenantId ∧
      l.locationId = a.locationId ∧ l.status = .active)).map fun l =>
    ⟨l.locationId, l.latitude, l.longitude, l.allowedRadiusMeters, l.timezoneIana, a.scheduleId⟩

def ensureActiveSchedule (db : Database) (tenantId scheduleId : Uuid) : Except Failure Unit :=
  match db.accessSchedules.rows.find? fun r =>
      decide (r.tenantId = tenantId ∧ r.scheduleId = scheduleId) with
  | none => .error (securityError .accessScheduleMissing)
  | some row =>
    if row.status ≠ .active then .error (securityError .accessScheduleMissing) else .ok ()

def scheduleWindows (db : Database) (tenantId scheduleId : Uuid) : List ScheduleWindow :=
  (db.accessScheduleWindows.rows.filter fun r => decide (r.tenantId = tenantId ∧
    r.scheduleId = scheduleId ∧ r.status = .active)).map fun r =>
    ⟨r.isoDayOfWeek, r.startLocalTime, r.endLocalTime, r.crossesMidnight⟩

def activeOverrideUntil (db : Database) (tenantId userId locationId : Uuid) (now : Instant) :
    Option Instant :=
  ((db.accessScheduleOverrides.rows.filter fun r => decide (r.tenantId = tenantId ∧
    r.userId = userId ∧ r.locationId = locationId ∧ r.status = .active ∧ r.validFrom ≤ now ∧
    now < r.validTo)).map fun r => r.validTo).max?

/-- `SecurityRepository.effective_user_permissions`, which sees direct assignments only. -/
def directUserPermissions (db : Database) (tenantId userId : Uuid) (now : Instant) :
    Except Failure (List String × List String) :=
  rolesAndPermissions (db.roleGrants tenantId (db.directTenantRoles tenantId userId now))

def activeUserSession (db : Database) (tenantId userId deviceId : Uuid) : Option AccessSession :=
  db.accessSessions.rows.find? fun r => decide (r.tenantId = tenantId ∧ r.principalId = userId ∧
    r.deviceId = some deviceId ∧ r.actorType = .user ∧ r.status = .active)

def userSession (db : Database) (accessSessionId tenantId userId : Uuid) : Option AccessSession :=
  db.accessSessions.rows.find? fun r => decide (r.accessSessionId = accessSessionId ∧
    r.tenantId = tenantId ∧ r.principalId = userId ∧ r.actorType = .user)

end Database

/-! ## Gates shared by the services -/

def requireActiveTenant (tenantId : Uuid) : Tx Unit :=
  query .tenantStatus fun db => do
    match ← db.tenantStatus tenantId with
    | .offboarding | .offboarded => .error (securityError .tenantOffboarding)
    | .configuring | .suspended => .error (securityError .tenantNotActive)
    | .active => .ok ()

def getUserContext (repo : RepositoryClass) (userId tenantId : Uuid) (now : Instant) :
    Tx UserContext :=
  query .getUserContext fun db =>
    match repo with
    | .security => db.membershipContext userId tenantId now
    | .groupAware => db.globalContext userId tenantId

def getTenantPolicy (tenantId : Uuid) : Tx TenantSecurityPolicy :=
  query .getTenantPolicy fun db => db.tenantPolicy tenantId

def checkDevice : Option RegisteredDevice → Except Failure Unit
  | none => .error (securityError .deviceNotRegistered)
  | some device =>
    match device.status with
    | .pending => .error (securityError .deviceApprovalRequired)
    | .blocked | .revoked => .error (securityError .deviceNotActive)
    | .active => .ok ()

/-- The row stays locked when its status is refused. -/
def lockActiveDevice (userId tenantId deviceId : Uuid) : Tx Unit := do
  let device ← execute .lockActiveDevice fun db =>
    let found := db.deviceRow? tenantId userId deviceId
    .ok {
      value := found
      locks := found.toList.map fun r => rowLock .registeredDevices [r.deviceId] .update }
  done (checkDevice device)

def effectivePermissionsOf (repo : RepositoryClass) (tenantId userId : Uuid) (now : Instant) :
    Tx (List String × List String) :=
  query .effectiveUserPermissions fun db =>
    match repo with
    | .security => db.directUserPermissions tenantId userId now
    | .groupAware => effectiveUserPermissions db tenantId userId now

/-! ## Sessions -/

def expireStaleUserSessions (tenantId userId deviceId : Uuid) (now : Instant) : Tx Unit := do
  let _ ← updateWhere .expireStaleUserSessions .accessSessions .noKeyUpdate
    (fun db => (db.accessSessions.rows.filter fun r => decide (r.tenantId = tenantId ∧
      r.principalId = userId ∧ r.deviceId = some deviceId ∧ r.actorType = .user ∧
      r.status = .active ∧ r.expiresAt ≤ now)).map (·.accessSessionId))
    (.expireStaleUserSessions · tenantId userId deviceId now)
  pure ()

structure NewSession where
  accessSessionId : Uuid
  tenantId : Uuid
  userId : Uuid
  membershipId : Uuid
  deviceId : Uuid
  locationId : Uuid
  provider : IdentityProvider
  authorizationVersion : Nat
  sourceIp : String
  vpnStatus : VpnStatus
  expiresAt : Instant
  now : Instant

def IdentityProvider.source : IdentityProvider → AuthenticationSource
  | .clerk => .clerk
  | .devMock => .devMock

/-- The subclass leaves the membership column null. -/
def NewSession.row (repo : RepositoryClass) (s : NewSession) (lifetime : s.now < s.expiresAt) :
    AccessSession where
  accessSessionId := s.accessSessionId
  tenantId := s.tenantId
  principalId := s.userId
  actorType := .user
  membershipId := match repo with
    | .security => some s.membershipId
    | .groupAware => none
  deviceId := some s.deviceId
  locationId := some s.locationId
  credentialId := none
  authenticationSource := s.provider.source
  authorizationVersion := some s.authorizationVersion
  sourceIp := s.sourceIp
  vpnStatus := some s.vpnStatus
  startedAt := s.now
  expiresAt := s.expiresAt
  lastActivityAt := s.now
  lastGeoValidatedAt := some s.now
  status := .active
  lifetime := lifetime

def createUserSession (repo : RepositoryClass) (s : NewSession) : Tx Unit :=
  execute .createUserSession fun db =>
    if lifetime : s.now < s.expiresAt then
      let row := s.row repo lifetime
      insertRow db.accessSessions row ([db.tenantReference s.tenantId,
        db.principalReference s.userId, db.deviceReference s.deviceId,
        db.locationReference s.locationId] ++ row.membershipId.toList.map db.membershipReference)
        (.insertAccessSession row)
    else .error (.integrityError .check)

/-- An update of the one session that `find` gives: the `CHECK` on its lifetime, its lock and its
write. No row is no error. -/
def renewSession (name : StatementName) (find : Database → Option AccessSession)
    (expiresAt : Instant) (write : Write) : Tx Bool :=
  execute name fun db =>
    match find db with
    | none => .ok { value := false }
    | some row =>
      if row.startedAt < expiresAt then .ok {
        value := true
        edits := [write]
        locks := [rowLock .accessSessions [row.accessSessionId] .noKeyUpdate] }
      else .error (.integrityError .check)

/-- Nothing is returned: the number of updated rows is not looked at. -/
def updateReusedUserSession (accessSessionId : Uuid) (sourceIp : String) (vpnStatus : VpnStatus)
    (authorizationVersion : Nat) (expiresAt now : Instant) : Tx Unit := do
  let _ ← renewSession .updateReusedUserSession
    (fun db => db.accessSessions.rows.find? fun r =>
      decide (r.accessSessionId = accessSessionId ∧ r.status = .active)) expiresAt
    (.updateReusedUserSession accessSessionId sourceIp vpnStatus authorizationVersion expiresAt now)
  pure ()

def updateActiveSessionContext (accessSessionId tenantId userId locationId : Uuid)
    (sourceIp : String) (vpnStatus : VpnStatus) (authorizationVersion : Nat)
    (expiresAt now : Instant) : Tx Bool :=
  renewSession .updateActiveSessionContext
    (fun db => (db.userSession accessSessionId tenantId userId).filter fun r =>
      decide (r.status = .active)) expiresAt
    (.updateActiveSessionContext accessSessionId tenantId userId locationId sourceIp vpnStatus
      authorizationVersion expiresAt now)

def userSessionForUpdate (accessSessionId tenantId userId : Uuid) : Tx (Option AccessSession) :=
  execute .userSessionForUpdate fun db =>
    let found := db.userSession accessSessionId tenantId userId
    .ok {
      value := found
      locks := found.toList.map fun r => rowLock .accessSessions [r.accessSessionId] .update }

def recordEvaluation (row : AccessContextEvaluation) : Tx Unit :=
  execute .recordEvaluation fun db =>
    if row.fits = false then .error .dataError
    else insertRow db.accessContextEvaluations row ([db.tenantReference row.tenantId,
      db.principalReference row.principalId] ++ row.accessSessionId.toList.map db.sessionReference ++
      row.matchedLocationId.toList.map db.locationReference ++
      row.scheduleId.toList.map db.scheduleReference) (.insertEvaluation row)

end VerigenceSecurity
