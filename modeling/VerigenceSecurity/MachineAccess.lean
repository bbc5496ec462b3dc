import VerigenceSecurity.AccessService
import VerigenceSecurity.ModuleCatalog

/-! # Machine clients and the exchange of user tokens

`MachineAccessService`: a machine client gets a token of its own, or it trades a user's
token for one of the same session with fewer permissions and itself as the actor.
-/

namespace VerigenceSecurity
set_option autoImplicit false

open Transaction Program

/-- Python's `str.lower` and the SHA-256 digest in hexadecimal are parameters. -/
structure MachineRuntime where
  lower : String → String
  sha256Hex : String → String
  tokens : TokenService

/-! ## Queries -/

namespace Database

def machineCredential (db : Database) (clientId : String) (now : Instant) :
    Except Failure MachineCredential :=
  let rows := (db.principalCredentials.rows.filter fun c => decide (c.clientId = clientId)).flatMap
    fun c => (db.securityPrincipals.rows.filter fun p =>
      decide (p.principalId = c.principalId)).map fun p => (c, p)
  match rows.head? with
  | none => .error (securityError .machineCredentialInvalid)
  | some (credential, principal) =>
    if principal.status ≠ .active then .error (securityError .principalNotActive)
    else if principal.actorType = .user then .error (securityError .actorTypeNotAllowed)
    else if credential.status = .expired ∨ credential.validTo.any (fun t => decide (t ≤ now)) then
      .error (securityError .machineCredentialExpired)
    else if credential.status ≠ .active ∨ now < credential.validFrom then
      .error (securityError .machineCredentialInvalid)
    else .ok ⟨principal.principalId, principal.actorType, credential.credentialId,
      credential.clientId, credential.secretHash⟩

def machinePermissions (db : Database) (principalId tenantId : Uuid) (now : Instant) :
    Except Failure (List String) :=
  if db.principalTenantScopes.rows.any fun s => decide (s.principalId = principalId ∧
      s.tenantId = tenantId ∧ s.status = .active) && validAt s.validFrom s.validTo now then
    .ok (sortedSet ((db.principalPermissionGrants.rows.filter fun g =>
        decide (g.principalId = principalId ∧ g.tenantId = tenantId ∧ g.status = .active)).flatMap
      fun g => (db.permissions.rows.filter fun p => decide (p.permissionKey = g.permissionKey ∧
        p.status = .active)).map (·.permissionKey)))
  else .error (securityError .principalTenantScopeRequired)

end Database

def isHexDigest (verifier : String) : Bool :=
  decide (verifier.toList.length = 64) && verifier.toList.all fun c => "0123456789abcdef".toList.contains c

def authenticateCredential (rt : MachineRuntime) (clientId clientSecret : String) (now : Instant)
    (db : Database) : Except Failure MachineCredential := do
  let credential ← db.machineCredential clientId now
  let verifier := rt.lower (strip credential.secretHash)
  if isHexDigest verifier = false ∨ verifier ≠ rt.sha256Hex clientSecret then
    .error (securityError .machineCredentialInvalid)
  else .ok credential

/-! ## Claims -/

structure UserTokenClaims where
  subject : Uuid
  tenantId : Uuid
  accessSessionId : Uuid
  roles : List String
  deviceId : Uuid
  locationId : Uuid
  permissions : List String
  exp : Rat

def Json.nonEmptyText? (value : Json) : Option String := value.text?.filter fun v => decide (v ≠ "")

def userTokenClaims? (payload : Payload) : Option UserTokenClaims := do
  let subject ← (payload.get "sub").nonEmptyText?
  let tenantId ← (payload.get "tenant_id").nonEmptyText?
  let accessSessionId ← (payload.get "access_session_id").nonEmptyText?
  let roles ← (payload.get "roles").texts?
  let deviceId ← (payload.get "device_id").nonEmptyText?
  let locationId ← (payload.get "location_id").nonEmptyText?
  let permissions ← (payload.get "permissions").texts?
  let exp ← (payload.get "exp").number?
  pure ⟨subject, tenantId, accessSessionId, roles, deviceId, locationId, permissions, exp⟩

def userTokenClaims (payload : Payload) : Except Failure UserTokenClaims :=
  if (payload.get "actor_type").text? ≠ some "USER" then .error (securityError .authTokenInvalid)
  else
    match userTokenClaims? payload with
    | none => .error (securityError .authTokenInvalid)
    | some claims => .ok claims

/-- `datetime.fromtimestamp`, which rounds half to even. -/
def fromTimestamp (timestamp : Rat) : Instant :=
  let exact := timestamp * 1000000
  let fraction := exact - exact.floor
  if fraction < 1 / 2 ∨ (fraction = 1 / 2 ∧ exact.floor % 2 = 0) then exact.floor
  else exact.floor + 1

def requestedPermissions (requested : List String) : Except Failure (List String) :=
  let present := requested.filter fun p => decide (p ≠ "")
  if present = [] then .error (securityError .permissionDenied) else validatePermissions present

/-! ## `exchange_user_token` -/

structure ExchangeRequest where
  clientId : String
  clientSecret : String
  subjectToken : String
  requestedPermissions : List String

/-- The service reads its clock, then the codec reads one of its own. -/
structure ExchangeDraw where
  now : Instant
  verifyNow : Instant
  token : TokenDraw

structure ExchangeResponse where
  accessToken : String
  expiresAt : Instant
  permissions : List String
  deriving DecidableEq, Repr

def grantRequested (machinePermissions userPermissions requested : List String) :
    Except Failure (List String) := do
  let validated ← validatePermissions userPermissions
  let wanted ← requestedPermissions requested
  if wanted.all fun p => decide (p ∈ machinePermissions ∧ p ∈ validated) then .ok wanted
  else .error (securityError .permissionDenied)

def UserTokenClaims.exchanged (claims : UserTokenClaims) (permissions : List String)
    (clientId : String) : AccessTokenClaims where
  principalId := claims.subject
  actorType := .user
  tenantId := claims.tenantId
  accessSessionId := claims.accessSessionId
  permissions := permissions
  roles := claims.roles
  deviceId := some claims.deviceId
  locationId := some claims.locationId
  expiresAt := fromTimestamp claims.exp
  delegatedActorId := some clientId

def markMachineCredentialUsed (credentialId : Uuid) (now : Instant) : Tx Unit :=
  execute .markMachineCredentialUsed fun db => .ok {
    value := ()
    edits := [.markMachineCredentialUsed credentialId now]
    locks := (db.principalCredentials.rows.filter fun r =>
      decide (r.credentialId = credentialId)).map fun r =>
        rowLock .principalCredentials [r.credentialId] .noKeyUpdate }

def exchangeUserToken (rt : MachineRuntime) (draw : ExchangeDraw) (request : ExchangeRequest) :
    Tx ExchangeResponse :=
  attempt rollbackAndRaise (do
    let credential ← query .machineCredential
      (authenticateCredential rt request.clientId request.clientSecret draw.now)
    let payload ← done (rt.tokens.verify draw.verifyNow request.subjectToken)
    let claims ← done (userTokenClaims payload)
    requireActiveTenant claims.tenantId
    let machinePermissions ← query .machinePermissions fun db =>
      db.machinePermissions credential.principalId claims.tenantId draw.now
    let permissions ← done (grantRequested machinePermissions claims.permissions
      request.requestedPermissions)
    let exchanged := claims.exchanged permissions credential.clientId
    let token ← done (rt.tokens.issue draw.token exchanged)
    markMachineCredentialUsed credential.credentialId draw.now
    commitNow
    pure ⟨token, exchanged.expiresAt, permissions⟩)

/-! ## `issue_machine_token` -/

structure MachineTokenRequest where
  clientId : String
  clientSecret : String
  tenantId : Uuid
  requestedPermissions : List String
  sourceIp : String
  correlationId : String

structure MachineTokenDraw where
  now : Instant
  sessionId : Uuid
  evaluationId : Uuid
  token : TokenDraw

def authorizedPermissions (credential : MachineCredential) (tenantId : Uuid) (requested : List String)
    (now : Instant) : Tx (List String) := do
  let wanted ← done (requestedPermissions requested)
  let granted ← query .machinePermissions fun db =>
    db.machinePermissions credential.principalId tenantId now
  let allowed ← done (validatePermissions granted)
  if wanted.all fun p => decide (p ∈ allowed) then pure wanted
  else raise (securityError .permissionDenied)

def MachineCredential.session (credential : MachineCredential) (draw : MachineTokenDraw)
    (request : MachineTokenRequest) (expiry : Instant) (lifetime : draw.now < expiry) :
    AccessSession where
  accessSessionId := draw.sessionId
  tenantId := request.tenantId
  principalId := credential.principalId
  actorType := credential.actorType
  membershipId := none
  deviceId := none
  locationId := none
  credentialId := some credential.credentialId
  authenticationSource := .clientCredential
  authorizationVersion := none
  sourceIp := request.sourceIp
  vpnStatus := none
  startedAt := draw.now
  expiresAt := expiry
  lastActivityAt := draw.now
  lastGeoValidatedAt := none
  status := .active
  lifetime := lifetime

def createMachineSession (credential : MachineCredential) (draw : MachineTokenDraw)
    (request : MachineTokenRequest) (expiry : Instant) : Tx Unit :=
  execute .createMachineSession fun db =>
    if lifetime : draw.now < expiry then
      let row := credential.session draw request expiry lifetime
      insertRow db.accessSessions row [db.tenantReference request.tenantId,
        db.principalReference credential.principalId, db.credentialReference credential.credentialId]
        (.insertAccessSession row)
    else .error (.integrityError .check)

def MachineCredential.evaluation (credential : MachineCredential) (draw : MachineTokenDraw)
    (request : MachineTokenRequest) : AccessContextEvaluation where
  evaluationId := draw.evaluationId
  accessSessionId := some draw.sessionId
  tenantId := request.tenantId
  principalId := credential.principalId
  actorType := credential.actorType
  suppliedLatitude := none
  suppliedLongitude := none
  suppliedAccuracyMeters := none
  geoCapturedAt := none
  geoSource := none
  geoIntegrityStatus := none
  geoIntegrityReason := none
  matchedLocationId := none
  matchedDistanceMeters := none
  evaluatedLocalTime := none
  evaluatedTimezone := none
  scheduleId := none
  sourceIp := request.sourceIp
  vpnStatus := none
  decision := .allow
  decisionReasonCode := .machineAccessGranted
  correlationId := request.correlationId
  evaluatedAt := draw.now

def MachineCredential.claims (credential : MachineCredential) (draw : MachineTokenDraw)
    (request : MachineTokenRequest) (permissions : List String) (expiry : Instant) :
    AccessTokenClaims where
  principalId := credential.principalId
  actorType := credential.actorType
  tenantId := request.tenantId
  accessSessionId := draw.sessionId
  permissions := permissions
  expiresAt := expiry
  subject := some credential.clientId

def issueMachineToken (rt : MachineRuntime) (draw : MachineTokenDraw) (request : MachineTokenRequest) :
    Tx ExchangeResponse :=
  attempt rollbackAndRaise (do
    let credential ← query .machineCredential
      (authenticateCredential rt request.clientId request.clientSecret draw.now)
    requireActiveTenant request.tenantId
    let policy ← getTenantPolicy request.tenantId
    let permissions ← authorizedPermissions credential request.tenantId request.requestedPermissions
      draw.now
    let expiry := draw.now + minutes policy.machineTokenTtlMinutes
    createMachineSession credential draw request expiry
    recordEvaluation (credential.evaluation draw request)
    let token ← done (rt.tokens.issue draw.token (credential.claims draw request permissions expiry))
    markMachineCredentialUsed credential.credentialId draw.now
    commitNow
    pure ⟨token, expiry, permissions⟩)

end VerigenceSecurity
