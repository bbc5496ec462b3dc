import VerigenceSecurity.SecurityRepository
import VerigenceSecurity.TenantRoles
import VerigenceSecurity.TokenService

/-! # Creating and reusing access sessions

`UserAccessService`. Its evaluation of the position, the schedule, the network risk
and the permissions is the same as that of the refresh service and is shared here.
-/

namespace VerigenceSecurity
set_option autoImplicit false

open Transaction Program Relational

/-- What the services use that is not stored: distances, time zones and signing. -/
structure Runtime where
  haversineMeters : Haversine
  zoneInfo : ZoneInfo
  tokens : TokenService

/-- What both renewals of a session draw: the clock, the answer of the network-risk adapter
and what the evaluation record and the token need. -/
structure AccessDraw where
  now : Instant
  risk : Except Failure VpnStatus
  evaluationId : Uuid
  token : TokenDraw

structure AccessRequest where
  identity : AuthenticatedIdentity
  tenantId : Uuid
  deviceId : Uuid
  geo : GeoSample
  sourceIp : String
  correlationId : String

/-! ## The evaluation of a request -/

def matchPosition (rt : Runtime) (policy : TenantSecurityPolicy) (userId tenantId : Uuid)
    (geo : GeoSample) (now : Instant) : Tx (LocationCandidate × Rat) := do
  done (validateGeo geo policy.maxGeoAccuracyMeters policy.maxGeoAgeSeconds now)
  query .assignedLocations fun db =>
    matchLocation rt.haversineMeters geo (db.assignedLocations tenantId userId now)

def scheduleAt (rt : Runtime) (userId tenantId : Uuid) (location : LocationCandidate)
    (now : Instant) : Tx ScheduleDecision := do
  query .ensureActiveSchedule fun db => db.ensureActiveSchedule tenantId location.scheduleId
  let windows ← query .scheduleWindows fun db =>
    .ok (db.scheduleWindows tenantId location.scheduleId)
  let overrideUntil ← query .activeOverrideUntil fun db =>
    .ok (db.activeOverrideUntil tenantId userId location.locationId now)
  done (evaluateSchedule rt.zoneInfo now location.timezoneIana windows overrideUntil)

def checkNetwork (policy : TenantSecurityPolicy) (vpnStatus : VpnStatus) : Except Failure Unit :=
  if vpnStatus = .detected ∧ policy.vpnDetectedAction = .deny then
    .error (securityError .vpnAccessDenied)
  else if vpnStatus = .unknown ∧ policy.vpnUnknownAction = .deny then
    .error (securityError .networkRiskUnknownDenied)
  else .ok ()

def authorize (repo : RepositoryClass) (policy : TenantSecurityPolicy) (vpnStatus : VpnStatus)
    (userId tenantId : Uuid) (now : Instant) : Tx (List String × List String) := do
  done (checkNetwork policy vpnStatus)
  let (roles, databasePermissions) ← effectivePermissionsOf repo tenantId userId now
  let permissions ← done (validatePermissions databasePermissions)
  pure (roles, permissions)

/-- The minimum of the four bounds of a token and its session. -/
def sessionExpiry (policy : TenantSecurityPolicy) (startedAt authorizedUntil now : Instant) :
    Instant :=
  min (min (now + minutes policy.accessTokenTtlMinutes)
      (now + seconds policy.geoRevalidationIntervalSeconds))
    (min (startedAt + minutes policy.sessionMaxDurationMinutes) authorizedUntil)

/-! ## What a granted request leaves behind -/

structure Grant where
  accessSessionId : Uuid
  userId : Uuid
  tenantId : Uuid
  deviceId : Uuid
  location : LocationCandidate
  distance : Rat
  schedule : ScheduleDecision
  vpnStatus : VpnStatus
  roles : List String
  permissions : List String
  expiry : Instant

def Grant.evaluation (g : Grant) (draw : AccessDraw) (geo : GeoSample)
    (sourceIp correlationId : String) : AccessContextEvaluation where
  evaluationId := draw.evaluationId
  accessSessionId := some g.accessSessionId
  tenantId := g.tenantId
  principalId := g.userId
  actorType := .user
  suppliedLatitude := some geo.latitude
  suppliedLongitude := some geo.longitude
  suppliedAccuracyMeters := some geo.accuracyMeters
  geoCapturedAt := some geo.capturedAt
  geoSource := some geo.source
  geoIntegrityStatus := some geo.integrityStatus
  geoIntegrityReason := geo.integrityReason
  matchedLocationId := some g.location.locationId
  matchedDistanceMeters := some g.distance
  evaluatedLocalTime := some g.schedule.localTime
  evaluatedTimezone := some g.location.timezoneIana
  scheduleId := some g.location.scheduleId
  sourceIp := sourceIp
  vpnStatus := some g.vpnStatus
  decision := .allow
  decisionReasonCode := .accessGranted
  correlationId := correlationId
  evaluatedAt := draw.now

def Grant.claims (g : Grant) : AccessTokenClaims where
  principalId := g.userId
  actorType := .user
  tenantId := g.tenantId
  accessSessionId := g.accessSessionId
  permissions := g.permissions
  roles := g.roles
  deviceId := some g.deviceId
  locationId := some g.location.locationId
  expiresAt := g.expiry

structure AccessResponse where
  accessSessionId : Uuid
  accessToken : String
  expiresAt : Instant
  actorType : ActorType
  tenantId : Uuid
  deviceId : Uuid
  locationId : Uuid
  roles : List String
  permissions : List String
  deriving DecidableEq, Repr

def Grant.response (g : Grant) (token : String) : AccessResponse where
  accessSessionId := g.accessSessionId
  accessToken := token
  expiresAt := g.expiry
  actorType := .user
  tenantId := g.tenantId
  deviceId := g.deviceId
  locationId := g.location.locationId
  roles := g.roles
  permissions := g.permissions

/-- Evidence, then the token, then the commit: a failed signature leaves nothing behind. -/
def Grant.finish (g : Grant) (rt : Runtime) (draw : AccessDraw) (geo : GeoSample)
    (sourceIp correlationId : String) : Tx AccessResponse := do
  recordEvaluation (g.evaluation draw geo sourceIp correlationId)
  let token ← done (rt.tokens.issue draw.token g.claims)
  commitNow
  pure (g.response token)

/-! ## `create_or_reuse` -/

def openSession (repo : RepositoryClass) (newSessionId : Uuid) (draw : AccessDraw)
    (request : AccessRequest) (vpnStatus : VpnStatus) (context : UserContext) (userId : Uuid)
    (policy : TenantSecurityPolicy) (location : LocationCandidate) (authorizedUntil : Instant) :
    Tx (Uuid × Instant) := do
  expireStaleUserSessions request.tenantId userId request.deviceId draw.now
  let active ← query .activeUserSession fun db =>
    .ok (db.activeUserSession request.tenantId userId request.deviceId)
  match active with
  | some session =>
    if session.locationId ≠ some location.locationId then
      raise (securityError .accessSessionContextConflict)
    else
      let expiry := sessionExpiry policy session.startedAt authorizedUntil draw.now
      updateReusedUserSession session.accessSessionId request.sourceIp vpnStatus
        context.authorizationVersion expiry draw.now
      pure (session.accessSessionId, expiry)
  | none =>
    let expiry := sessionExpiry policy draw.now authorizedUntil draw.now
    createUserSession repo {
      accessSessionId := newSessionId, tenantId := request.tenantId, userId := userId
      membershipId := context.membershipId, deviceId := request.deviceId
      locationId := location.locationId, provider := request.identity.provider
      authorizationVersion := context.authorizationVersion, sourceIp := request.sourceIp
      vpnStatus := vpnStatus, expiresAt := expiry, now := draw.now }
    pure (newSessionId, expiry)

/-- `create_or_reuse`. The session id is drawn only when a session is created. -/
def createOrReuse (rt : Runtime) (repo : RepositoryClass) (newSessionId : Uuid) (draw : AccessDraw)
    (request : AccessRequest) : Tx AccessResponse := do
  let vpnStatus ← done draw.risk
  attempt rollbackAndRaise (do
    requireActiveTenant request.tenantId
    let userId ← query .resolveIdentityUser fun db => db.resolveIdentityUser request.identity
    let context ← getUserContext repo userId request.tenantId draw.now
    let policy ← getTenantPolicy request.tenantId
    lockActiveDevice userId request.tenantId request.deviceId
    let (location, distance) ← matchPosition rt policy userId request.tenantId request.geo draw.now
    let schedule ← scheduleAt rt userId request.tenantId location draw.now
    let (roles, permissions) ← authorize repo policy vpnStatus userId request.tenantId draw.now
    let (accessSessionId, expiry) ← openSession repo newSessionId draw request vpnStatus context
      userId policy location schedule.authorizedUntil
    Grant.finish {
      accessSessionId := accessSessionId, userId := userId, tenantId := request.tenantId
      deviceId := request.deviceId, location := location, distance := distance
      schedule := schedule, vpnStatus := vpnStatus, roles := roles, permissions := permissions
      expiry := expiry } rt draw request.geo request.sourceIp request.correlationId)

/-! ## A workplace -/

theorem workplace_revalidation_pos : (0 : Int) < 900 := by decide

theorem workplace_ttl_pos : (0 : Int) < 15 := by decide

theorem workplace_duration_pos : (0 : Int) < 480 := by decide

def workplacePolicy : TenantSecurityPolicy where
  tenantId := "tenant"
  maxActiveDevicesPerUser := 1
  maxGeoAccuracyMeters := 100
  maxGeoAgeSeconds := 60
  geoRevalidationIntervalSeconds := 900
  accessTokenTtlMinutes := 15
  machineTokenTtlMinutes := 15
  sessionIdleTimeoutMinutes := 30
  sessionMaxDurationMinutes := 480
  vpnDetectedAction := .deny
  vpnUnknownAction := .flag
  status := .active
  geoRevalidationInterval_pos := workplace_revalidation_pos
  accessTokenTtl_pos := workplace_ttl_pos
  machineTokenTtl_pos := workplace_ttl_pos
  sessionMaxDuration_pos := workplace_duration_pos

/-- One user with a phone, who may work at the office on Thursdays from eight to five. -/
def workplace : Database :=
  { (default : Database) with
    tenants := Table.empty.insert ⟨"tenant", "TENANT", "Tenant", .active, 0, 0⟩
    securityPrincipals := Table.empty.insert ⟨"user", .user, "user", .active⟩
    users := Table.empty.insert ⟨"user", "User", none, none, none, none, .active, 0, 0⟩
    externalIdentities := Table.empty.insert ⟨"identity", "user", .clerk, "user_1", .active⟩
    permissions := Table.empty.insert
      ⟨"security.site.read", "security", "site", "read", none, none, .active, none⟩
    tenantLocations := Table.empty.insert ⟨"office", "tenant", 50, 14, 100, "UTC", .active⟩
    accessSchedules := Table.empty.insert ⟨"schedule", "tenant", "OFFICE", "Office hours", .active⟩
    accessScheduleWindows := Table.empty.insert
      ⟨"window", "tenant", "schedule", 4, seconds 28800, seconds 61200, false, .active⟩
    userLocationAssignments := Table.empty.insert
      ⟨"assignment", "tenant", "user", "office", "schedule", none, none, .active⟩
    tenantSecurityPolicies := Table.empty.insert workplacePolicy
    registeredDevices := Table.empty.insert ⟨"phone", "tenant", "user", .active, none, none⟩
    platformRoles := Table.empty.insert ⟨"platform.viewer", .active⟩
    platformRolePermissions := Table.empty.insert ⟨"platform.viewer", "security.site.read"⟩
    platformUserRoleAssignments := Table.empty.insert
      ⟨"grant", "user", "platform.viewer", .active, .admin⟩ }

def workplaceRuntime : Runtime where
  haversineMeters := fun latitude longitude latitude' longitude' =>
    .ok (if latitude = .number latitude' ∧ longitude = .number longitude' then 0 else 1000)
  zoneInfo := fun key => if key = "UTC" then some ⟨fun _ => 0, fun _ => 0⟩ else none
  tokens := {
    settings := {
      securityKeyId := "key", securityPrivateKeyPem := "private", securityPublicKeyPem := "public" }
    codec := ⟨fun _ _ _ => some "token", fun _ _ _ _ _ => .error .invalid⟩ }

def requestAt (later : Int) : AccessRequest where
  identity := ⟨.clerk, "user_1"⟩
  tenantId := "tenant"
  deviceId := "phone"
  geo := ⟨50, 14, 10, seconds (43200 + later), .native, .normal, none⟩
  sourceIp := "192.0.2.1"
  correlationId := "correlation"

def drawAt (later : Int) (evaluationId : Uuid) : AccessDraw where
  now := seconds (43200 + later)
  risk := .ok .notDetected
  evaluationId := evaluationId
  token := ⟨seconds (43200 + later), "jti"⟩

/-- The session ends after a quarter of an hour. -/
example : ((createOrReuse workplaceRuntime .groupAware "session" (drawAt 0 "evaluation")
    (requestAt 0)).alone workplace).1.map (fun a => (a.accessSessionId, a.expiresAt)) =
      .ok ("session", seconds 44100) := by
  decide +kernel

end VerigenceSecurity
