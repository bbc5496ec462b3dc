import VerigenceSecurity.AccessService
import VerigenceSecurity.PythonText

/-! # The first platform administrator

Three services create the first Super Admin: the operator's provisioning, the claim of a
Clerk identity and the local bootstrap. Each asks first whether there is one already.
-/

namespace VerigenceSecurity
set_option autoImplicit false

open Transaction Program Relational

/-! ## Statements -/

/-- `pg_advisory_xact_lock(hashtext(key))`, a lock on a number that no row carries. -/
def advisoryLock (hashtext : String → Int) (key : String) : RowLock :=
  rowLock .advisoryLocks [toString (hashtext key)] .update

def advisoryXactLock (hashtext : String → Int) (key : String) : Tx Unit :=
  execute .advisoryLock fun _ => .ok { value := (), locks := [advisoryLock hashtext key] }

/-- The width of `principal_name` is checked before the row is stored. -/
def insertPrincipal (row : SecurityPrincipal) : Tx Unit :=
  execute .insertPrincipal fun db =>
    if 240 < row.principalName.length then .error .dataError
    else insertRow db.securityPrincipals row [] (.insertSecurityPrincipal row)

/-- The same for `display_name`. -/
def insertUser (row : User) : Tx Unit :=
  execute .insertUser fun db =>
    if 240 < row.displayName.length then .error .dataError
    else insertRow db.users row [db.principalReference row.userId] (.insertUser row)

def insertExternalIdentity (row : ExternalIdentity) : Tx Unit :=
  execute .insertExternalIdentity fun db =>
    insertRow db.externalIdentities row [db.userReference row.userId] (.insertExternalIdentity row)

def insertCredential (row : LocalUserCredential) : Tx Unit :=
  execute .insertCredential fun db =>
    if 320 < row.loginName.length then .error .dataError
    else insertRow db.localUserCredentials row [db.userReference row.userId]
      (.insertLocalUserCredential row)

def assignSuperAdmin (assignmentId userId : Uuid) : Tx Unit :=
  execute .insertPlatformAssignment fun db =>
    let row : PlatformUserRoleAssignment := ⟨assignmentId, userId, superAdminRoleKey, .active, .bootstrap⟩
    insertRow db.platformUserRoleAssignments row
      [db.userReference userId, db.platformRoleReference superAdminRoleKey]
      (.insertPlatformUserRoleAssignment row)

def accountRow (userId : Uuid) (displayName : String) (now : Instant) : User :=
  ⟨userId, displayName, none, none, none, none, .active, now, now⟩

namespace Database

def activeSuperAdmins (db : Database) : List PlatformUserRoleAssignment :=
  db.platformUserRoleAssignments.rows.filter fun r =>
    decide (r.roleKey = superAdminRoleKey ∧ r.status = .active)

def userForClerkSubject (db : Database) (subject : String) : Option Uuid :=
  (db.externalIdentities.rows.find? fun e =>
    decide (e.provider = .clerk ∧ e.providerSubject = subject)).map (·.userId)

end Database

def activeSuperAdminExists : Tx Bool :=
  query .activeSuperAdminExists fun db => .ok (decide (db.activeSuperAdmins ≠ []))

def activeSuperAdminForUser (userId : Uuid) : Tx Bool :=
  query .activeSuperAdminForUser fun db =>
    .ok (db.activeSuperAdmins.any fun r => decide (r.userId = userId))

/-! ## `InitialSuperAdminProvisioningService` -/

def provisionLockKey : String := "verigence.platform.initial.super_admin.provision"

structure ProvisionCall where
  clerkUserId : String
  displayName : String := "superadmin"
  now : Instant
  userId : Uuid
  externalIdentityId : Uuid
  assignmentId : Uuid
  changeId : Uuid
  correlationId : String

structure InitialSuperAdminProvisioningResult where
  userId : Uuid
  created : Bool
  deriving DecidableEq, Repr

/-- An immutable Clerk `user_` identifier of at most 240 characters. -/
@[irreducible] def isClerkUserId (subject : String) : Bool :=
  startsWith subject "user_" && decide (subject.length ≤ 240)

def createClerkAccount (subject displayName : String) (userId externalIdentityId : Uuid) (now : Instant) :
    Tx Unit := do
  insertPrincipal ⟨userId, .user, "clerk:" ++ subject, .active⟩
  insertUser (accountRow userId displayName now)
  insertExternalIdentity ⟨externalIdentityId, userId, .clerk, subject, .active⟩

/-- The assignment and its audit record, whose actor is the new administrator. -/
def grantSuperAdmin (assignmentId userId changeId : Uuid) (correlationId operationKey : String)
    (now : Instant) : Tx Unit := do
  assignSuperAdmin assignmentId userId
  platformAudit ⟨userId, correlationId, now, userId, changeId⟩ operationKey "platform_user" userId

def provision (hashtext : String → Int) (p : ProvisionCall) :
    Tx InitialSuperAdminProvisioningResult := do
  let subject := strip p.clerkUserId
  let name := if strip p.displayName = "" then "superadmin" else strip p.displayName
  if isClerkUserId subject = false then
    raise (.valueError "Initial Super Admin Clerk user ID must be an immutable Clerk user_ identifier")
  else
    attempt rollbackAndRaise (do
      advisoryXactLock hashtext provisionLockKey
      let existing ← query .userForClerkSubject fun db => .ok (db.userForClerkSubject subject)
      match existing with
      | some userId =>
        let isSuperAdmin ← activeSuperAdminForUser userId
        if isSuperAdmin then
          commitNow
          pure ⟨userId, false⟩
        else
          raise (.runtimeError ("The configured Clerk identity is already mapped to Security but is " ++
            "not an active Platform Super Admin"))
      | none =>
        let found ← activeSuperAdminExists
        if found then
          raise (.runtimeError ("A different active Platform Super Admin already exists; initial " ++
            "provisioning will not replace it"))
        else
          createClerkAccount subject name p.userId p.externalIdentityId p.now
          grantSuperAdmin p.assignmentId p.userId p.changeId p.correlationId
            "platform.super_admin.system_provision" p.now
          commitNow
          pure ⟨p.userId, true⟩)

/-! ## `PlatformIdentityService.bootstrap_claim` -/

structure PlatformSettings extends Settings where
  securityBootstrapEnabled : Bool := false
  securityBootstrapSuperAdminClerkUserId : String := ""
  platformBootstrapEnabled : Bool := false
  platformBootstrapLogin : String := ""
  platformBootstrapPassword : String := ""
  platformAdminTokenTtlMinutes : Option Int := none

structure PlatformAdminClaims where
  userId : Uuid
  roles : List String
  permissions : List String
  mustChangePassword : Bool

structure PlatformAdminTokenService where
  settings : PlatformSettings
  codec : JwtCodec

def PlatformAdminTokenService.audience : String := "verigence-security-admin"

def PlatformAdminTokenService.payload (tokens : PlatformAdminTokenService) (draw : TokenDraw)
    (claims : PlatformAdminClaims) (permissions : List String) (expiresAt : Instant) : Payload :=
  [("iss", .text tokens.settings.securityTokenIssuer), ("sub", .text claims.userId),
    ("aud", .text audience), ("iat", numericDate draw.now), ("exp", numericDate expiresAt),
    ("jti", .text draw.jti), ("roles", .texts claims.roles), ("permissions", .texts permissions),
    ("must_change_password", .bool claims.mustChangePassword)]

def PlatformAdminTokenService.issue (tokens : PlatformAdminTokenService) (draw : TokenDraw)
    (claims : PlatformAdminClaims) : Except Failure (String × Instant) := do
  let settings := tokens.settings
  if settings.securityPrivateKeyPem = "" ∨ settings.securityKeyId = "" then
    .error (securityError .signingKeyUnavailable)
  else
    match settings.platformAdminTokenTtlMinutes with
    | none => .error (.runtimeError "PLATFORM_ADMIN_TOKEN_TTL_MINUTES is not configured")
    | some ttl =>
      let permissions ← validatePermissions claims.permissions
      if claims.roles.isEmpty || claims.roles.any fun role => !startsWith role "platform." then
        .error (.valueError "Platform Admin token requires Platform roles")
      else
        let expiresAt := draw.now + minutes ttl
        match tokens.codec.encode (tokens.payload draw claims permissions expiresAt)
            settings.securityPrivateKeyPem settings.securityKeyId with
        | none => .error (securityError .signingKeyUnavailable)
        | some token => .ok (token, expiresAt)

structure PlatformIdentityResult where
  accessToken : String
  expiresAt : Instant
  userId : Uuid
  roles : List String
  permissions : List String
  deriving DecidableEq, Repr

def claimLockKey : String := "verigence.platform.super_admin.bootstrap"

structure ClaimCall where
  tokens : PlatformAdminTokenService
  identity : AuthenticatedIdentity
  correlationId : String
  now : Instant
  userId : Uuid
  externalIdentityId : Uuid
  assignmentId : Uuid
  changeId : Uuid
  token : TokenDraw

structure ClerkUserState where
  userId : Uuid
  identityStatus : IdentityStatus
  userStatus : UserStatus
  principalStatus : PrincipalStatus
  deriving DecidableEq, Repr

def Database.clerkUserState (db : Database) (subject : String) : Option ClerkUserState :=
  ((db.externalIdentities.rows.filter fun e =>
      decide (e.provider = .clerk ∧ e.providerSubject = subject)).flatMap fun e =>
    (db.users.rows.filter fun u => decide (u.userId = e.userId)).flatMap fun u =>
      (db.securityPrincipals.rows.filter fun p => decide (p.principalId = e.userId)).map fun p =>
        (⟨e.userId, e.status, u.status, p.status⟩ : ClerkUserState)).head?

def requireClerk (identity : AuthenticatedIdentity) : Except Failure Unit :=
  if identity.provider ≠ .clerk ∨ identity.providerSubject = "" then
    .error (securityError .authTokenInvalid)
  else .ok ()

def resolveOrCreateSecurityUser (c : ClaimCall) : Tx Uuid := do
  let subject := c.identity.providerSubject
  let state ← query .clerkUserState fun db => .ok (db.clerkUserState subject)
  match state with
  | some state =>
    if state.identityStatus ≠ .active ∨ state.principalStatus ≠ .active then
      raise (securityError .principalNotActive)
    else if state.userStatus ≠ .active then raise (securityError .userNotActive)
    else pure state.userId
  | none =>
    createClerkAccount subject ("clerk:" ++ subject) c.userId c.externalIdentityId c.now
    pure c.userId

def issueForUser (c : ClaimCall) (userId : Uuid) : Tx PlatformIdentityResult := do
  let grants ← query .platformRolesPermissions fun db => .ok (db.platformGrants userId)
  let roles := sortedSet (grants.map Prod.fst)
  let permissions := sortedSet (grants.map Prod.snd)
  if roles = [] ∨ permissions = [] then raise (securityError .permissionDenied)
  else
    let (token, expiresAt) ← done (c.tokens.issue c.token ⟨userId, roles, permissions, false⟩)
    pure ⟨token, expiresAt, userId, roles, permissions⟩

/-- The token is issued after the commit. -/
def bootstrapClaim (hashtext : String → Int) (c : ClaimCall) : Tx PlatformIdentityResult := do
  done (requireClerk c.identity)
  let expected := strip c.tokens.settings.securityBootstrapSuperAdminClerkUserId
  if c.tokens.settings.securityBootstrapEnabled = false then raise (securityError .permissionDenied)
  else if expected = "" ∨ c.identity.providerSubject ≠ expected then
    raise (securityError .permissionDenied)
  else
    let userId ← attempt rollbackAndRaise (do
      advisoryXactLock hashtext claimLockKey
      let found ← activeSuperAdminExists
      if found then raise (securityError .permissionDenied)
      else
        let userId ← resolveOrCreateSecurityUser c
        grantSuperAdmin c.assignmentId userId c.changeId c.correlationId
          "platform.super_admin.clerk_bootstrap" c.now
        commitNow
        pure userId)
    issueForUser c userId

/-! ## `PlatformBootstrapService` -/

/-- The hash is drawn with a random salt, the correlation id from a UUID. -/
structure LocalBootstrapCall where
  settings : PlatformSettings
  passwordHash : String
  now : Instant
  userId : Uuid
  credentialId : Uuid
  assignmentId : Uuid
  changeId : Uuid
  correlationUuid : Uuid

/-- The check runs before the `try` block and takes no lock. -/
def bootstrapIfNeeded (c : LocalBootstrapCall) : Tx (Option Uuid) := do
  let loginName := strip c.settings.platformBootstrapLogin
  if c.settings.platformBootstrapEnabled = false then pure none
  else
    let found ← activeSuperAdminExists
    if found then pure none
    else
      attempt rollbackAndRaise (do
        insertPrincipal ⟨c.userId, .user, loginName, .active⟩
        insertUser (accountRow c.userId loginName c.now)
        insertCredential ⟨c.credentialId, c.userId, loginName, c.passwordHash, true⟩
        grantSuperAdmin c.assignmentId c.userId c.changeId ("bootstrap-" ++ c.correlationUuid)
          "platform.super_admin.bootstrap" c.now
        commitNow
        pure (some c.userId))

end VerigenceSecurity
