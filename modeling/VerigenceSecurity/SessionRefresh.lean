import VerigenceSecurity.AccessService

/-! # Refreshing and revoking sessions

`UserSessionRefreshService.refresh` and `UserSessionLifecycleService.revoke`. A
refused refresh leaves a record of what had been found out by then; each part of
the `try` block is guarded with the evidence that its handler would see.
-/

namespace VerigenceSecurity
set_option autoImplicit false

open Transaction Program

structure RefreshRequest where
  userId : Uuid
  tenantId : Uuid
  accessSessionId : Uuid
  geo : Option GeoSample
  sourceIp : String
  correlationId : String

structure RefreshEvidence where
  accessSessionId : Option Uuid := none
  location : Option LocationCandidate := none
  distance : Option Rat := none
  schedule : Option ScheduleDecision := none
  risk : Option VpnStatus := none

structure RefreshedUserSession where
  accessSessionId : Uuid
  accessToken : String
  expiresAt : Instant
  tenantId : Uuid
  userId : Uuid
  deviceId : Uuid
  locationId : Uuid
  roles : List String
  permissions : List String
  deriving DecidableEq, Repr

def requireRefreshGeo (geo : Option GeoSample) : Except Failure GeoSample :=
  match geo with
  | none => .error (securityError .geoRequired)
  | some sample => .ok sample

/-- The columns of a denied evaluation; what was not found out stays null. -/
def RefreshEvidence.denial (evidence : RefreshEvidence) (evaluationId : Uuid) (now : Instant)
    (request : RefreshRequest) (code : ErrorCode) : AccessContextEvaluation where
  evaluationId := evaluationId
  accessSessionId := evidence.accessSessionId
  tenantId := request.tenantId
  principalId := request.userId
  actorType := .user
  suppliedLatitude := request.geo.map (·.latitude)
  suppliedLongitude := request.geo.map (·.longitude)
  suppliedAccuracyMeters := request.geo.map (·.accuracyMeters)
  geoCapturedAt := request.geo.map (·.capturedAt)
  geoSource := request.geo.map (·.source)
  geoIntegrityStatus := request.geo.map (·.integrityStatus)
  geoIntegrityReason := request.geo.bind (·.integrityReason)
  matchedLocationId := evidence.location.map (·.locationId)
  matchedDistanceMeters := evidence.distance
  evaluatedLocalTime := evidence.schedule.map (·.localTime)
  evaluatedTimezone := evidence.location.map (·.timezoneIana)
  scheduleId := evidence.location.map (·.scheduleId)
  sourceIp := request.sourceIp
  vpnStatus := evidence.risk
  decision := .deny
  decisionReasonCode := .denied code
  correlationId := request.correlationId
  evaluatedAt := now

/-- `_persist_denial_evidence_best_effort`: its own failure is swallowed. -/
def persistDenialEvidence (row : AccessContextEvaluation) : Tx Unit :=
  attempt (fun _ => rollbackNow) (do
    recordEvaluation row
    commitNow)

/-- The two handlers of `refresh`. Server errors are no denials and leave no evidence. -/
def deny {α : Type} (denialId : Uuid) (now : Instant) (request : RefreshRequest)
    (evidence : RefreshEvidence) (error : Failure) : Tx α := do
  rollbackNow
  match error with
  | .security e =>
    if e.statusCode < 500 then
      persistDenialEvidence (evidence.denial denialId now request e.code)
      raise error
    else raise error
  | _ => raise error

def observeSession (repo : RepositoryClass) (request : RefreshRequest) (now : Instant) :
    Tx (UserContext × TenantSecurityPolicy × Option Uuid) := do
  requireActiveTenant request.tenantId
  let context ← getUserContext repo request.userId request.tenantId now
  let policy ← getTenantPolicy request.tenantId
  let observed ← query .userSession fun db =>
    .ok (db.userSession request.accessSessionId request.tenantId request.userId)
  match observed with
  | none => raise (securityError .sessionRevoked)
  | some session =>
    if session.status ≠ .active then raise (securityError .sessionRevoked)
    else pure (context, policy, session.deviceId)

/-- The device lock comes before the session lock, as in `create_or_reuse`. A session
without a device has the text of `None` for its device id. -/
def lockSession (request : RefreshRequest) (device : Option Uuid) (now : Instant) :
    Tx AccessSession := do
  lockActiveDevice request.userId request.tenantId (device.getD "None")
  let locked ← userSessionForUpdate request.accessSessionId request.tenantId request.userId
  match locked with
  | none => raise (securityError .sessionRevoked)
  | some session =>
    if session.status ≠ .active then raise (securityError .sessionRevoked)
    else if session.deviceId ≠ device then raise (securityError .sessionRevoked)
    else if session.expiresAt ≤ now then raise (securityError .authTokenExpired)
    else pure session

def renewLocked (request : RefreshRequest) (draw : AccessDraw) (vpnStatus : VpnStatus)
    (context : UserContext) (policy : TenantSecurityPolicy) (session : AccessSession)
    (location : LocationCandidate) (authorizedUntil : Instant) : Tx Instant := do
  let expiry := sessionExpiry policy session.startedAt authorizedUntil draw.now
  if expiry ≤ draw.now then raise (securityError .authTokenExpired)
  else
    let updated ← updateActiveSessionContext request.accessSessionId request.tenantId request.userId
      location.locationId request.sourceIp vpnStatus context.authorizationVersion expiry draw.now
    if !updated then raise (securityError .sessionRevoked)
    else pure expiry

def AccessResponse.refreshed (response : AccessResponse) (userId : Uuid) : RefreshedUserSession where
  accessSessionId := response.accessSessionId
  accessToken := response.accessToken
  expiresAt := response.expiresAt
  tenantId := response.tenantId
  userId := userId
  deviceId := response.deviceId
  locationId := response.locationId
  roles := response.roles
  permissions := response.permissions

/-- `refresh`. A denial draws an evaluation id of its own. -/
def refresh (rt : Runtime) (repo : RepositoryClass) (denialId : Uuid) (draw : AccessDraw)
    (request : RefreshRequest) : Tx RefreshedUserSession := do
  let geo ← attempt (deny denialId draw.now request {}) (done (requireRefreshGeo request.geo))
  let vpnStatus ← attempt (deny denialId draw.now request {}) (done draw.risk)
  let (context, policy, device) ← attempt
    (deny denialId draw.now request { risk := some vpnStatus })
    (observeSession repo request draw.now)
  let (session, location, distance) ← attempt
    (deny denialId draw.now request {
      risk := some vpnStatus, accessSessionId := some request.accessSessionId })
    (do
      let session ← lockSession request device draw.now
      let (location, distance) ←
        matchPosition rt policy request.userId request.tenantId geo draw.now
      pure (session, location, distance))
  let schedule ← attempt
    (deny denialId draw.now request {
      risk := some vpnStatus, accessSessionId := some request.accessSessionId
      location := some location, distance := some distance })
    (scheduleAt rt request.userId request.tenantId location draw.now)
  attempt
    (deny denialId draw.now request {
      risk := some vpnStatus, accessSessionId := some request.accessSessionId
      location := some location, distance := some distance, schedule := some schedule })
    (do
      let (roles, permissions) ←
        authorize repo policy vpnStatus request.userId request.tenantId draw.now
      let expiry ← renewLocked request draw vpnStatus context policy session location
        schedule.authorizedUntil
      let response ← Grant.finish {
        accessSessionId := request.accessSessionId, userId := request.userId
        tenantId := request.tenantId, deviceId := device.getD "None", location := location
        distance := distance, schedule := schedule, vpnStatus := vpnStatus, roles := roles
        permissions := permissions, expiry := expiry } rt draw geo request.sourceIp
        request.correlationId
      pure (response.refreshed request.userId))

/-! ## Revocation -/

def revokeActiveUserSession (accessSessionId tenantId userId : Uuid) : Tx Bool :=
  execute .revokeActiveUserSession fun db =>
    match (db.userSession accessSessionId tenantId userId).filter fun r =>
        decide (r.status = .active) with
    | none => .ok { value := false }
    | some row => .ok {
        value := true
        edits := [.revokeActiveUserSession accessSessionId tenantId userId]
        locks := [rowLock .accessSessions [row.accessSessionId] .noKeyUpdate] }

def revoke (accessSessionId tenantId userId : Uuid) : Tx Bool :=
  attempt rollbackAndRaise (do
    let session ← userSessionForUpdate accessSessionId tenantId userId
    if session.all fun s => decide (s.status ≠ .active) then
      rollbackNow
      pure false
    else
      let revoked ← revokeActiveUserSession accessSessionId tenantId userId
      if !revoked then
        rollbackNow
        pure false
      else
        commitNow
        pure true)

end VerigenceSecurity
