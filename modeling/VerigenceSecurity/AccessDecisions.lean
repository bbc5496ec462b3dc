import VerigenceSecurity.IssuedExpiries
import VerigenceSecurity.RenewalAgreement
import VerigenceSecurity.ScheduleOverrides
import VerigenceSecurity.ScheduleWindows

/-! # Access decisions

`create_or_reuse` succeeds exactly when every gate is open, each gate being a condition on the stored
rows. What it leaves behind then agrees with the token and the answer.
-/

namespace VerigenceSecurity
set_option autoImplicit false

open Transaction Program Relational

/-! ## The gates as conditions on rows -/

theorem find?_eq_some_iff {ρ : Type} [Row ρ] {t : Rows ρ} {p : ρ → Bool} (k : IndexEntry)
    (hkey : ∀ r, p r = true → k ∈ Row.entries r) {row : ρ} :
    t.rows.find? p = some row ↔ row ∈ t.rows ∧ p row = true := by
  constructor
  · intro h
    exact ⟨List.mem_of_find?_eq_some h, List.find?_some h⟩
  · rintro ⟨hmem, hp⟩
    exact Table.find?_of_mem hmem hp k hkey

namespace Database

variable {db : Database} {tenantId userId : Uuid}

theorem tenantPolicy_eq_ok_iff {policy : TenantSecurityPolicy} :
    db.tenantPolicy tenantId = .ok policy ↔
      policy ∈ db.tenantSecurityPolicies.rows ∧ policy.tenantId = tenantId ∧
        policy.status = .active := by
  have hfind : ∀ row, db.tenantSecurityPolicies.rows.find?
      (fun r => decide (r.tenantId = tenantId)) = some row ↔
      row ∈ db.tenantSecurityPolicies.rows ∧ decide (row.tenantId = tenantId) = true :=
    fun row => find?_eq_some_iff (.primary, [tenantId]) fun r hr => by
      simp [Row.entries, of_decide_eq_true hr]
  unfold tenantPolicy
  constructor
  · intro h
    split at h
    · cases h
    · rename_i row hrow
      obtain ⟨hmem, hid⟩ := (hfind row).mp hrow
      split at h
      · cases h
      · rename_i hstatus
        cases h
        exact ⟨hmem, of_decide_eq_true hid, not_not.mp hstatus⟩
  · rintro ⟨hmem, hid, hstatus⟩
    rw [(hfind policy).mpr ⟨hmem, decide_eq_true hid⟩]
    simp only [hstatus, ne_eq, not_true_eq_false, if_false]

end Database

/-- An override that applies, or a window of today or of yesterday that contains the local time. -/
def ScheduleAllows (db : Database) (zoneInfo : ZoneInfo) (tenantId userId : Uuid)
    (location : LocationCandidate) (now : Instant) : Prop :=
  (∃ row ∈ db.accessScheduleOverrides.rows, row.AppliesTo tenantId userId location.locationId now) ∨
    ∃ zone, zoneInfo location.timezoneIana = some zone ∧
      ∃ window ∈ db.scheduleWindows tenantId location.scheduleId,
        window.openAt (dateOf (zone.toWall now)) (zone.toWall now) = true ∨
          window.openAt (dateOf (zone.toWall now) - 1) (zone.toWall now) = true

/-- The rows behind a request: the gates of `create_or_reuse` before it looks for a session. -/
structure GatesOpen (db : Database) (rt : Runtime) (now : Instant) (vpnStatus : VpnStatus)
    (request : AccessRequest) (userId : Uuid) (policy : TenantSecurityPolicy)
    (location : LocationCandidate) (distance : Rat) : Prop where
  tenant : ∃ row ∈ db.tenants.rows, row.tenantId = request.tenantId ∧ row.status = .active
  identity : ∃ row ∈ db.externalIdentities.rows, row.provider = request.identity.provider ∧
    row.providerSubject = request.identity.providerSubject ∧ row.status = .active ∧
      row.userId = userId
  principal : ∃ row ∈ db.securityPrincipals.rows, row.principalId = userId ∧
    row.actorType = .user ∧ row.status = .active
  user : ∃ row ∈ db.users.rows, row.userId = userId ∧ row.status = .active
  inForce : policy ∈ db.tenantSecurityPolicies.rows ∧ policy.tenantId = request.tenantId ∧
    policy.status = .active
  device : ∃ row ∈ db.registeredDevices.rows, row.tenantId = request.tenantId ∧
    row.userId = userId ∧ row.deviceId = request.deviceId ∧ row.status = .active
  integrity : request.geo.integrityStatus ≠ .suspected
  accuracy : request.geo.accuracyMeters.exceeds policy.maxGeoAccuracyMeters = false
  captured : request.geo.capturedAt ≤ now ∧
    now ≤ request.geo.capturedAt + seconds policy.maxGeoAgeSeconds
  computable : ∀ candidate ∈ db.assignedLocations request.tenantId userId now, ∃ value,
    candidate.distance rt.haversineMeters request.geo = .ok value
  position : (candidatesAround rt.haversineMeters request.geo
    (db.assignedLocations request.tenantId userId now)).argmin Prod.snd = some (location, distance)
  schedule : ∃ row ∈ db.accessSchedules.rows, row.tenantId = request.tenantId ∧
    row.scheduleId = location.scheduleId ∧ row.status = .active
  allowed : ScheduleAllows db rt.zoneInfo request.tenantId userId location now
  network : ¬ (vpnStatus = .detected ∧ policy.vpnDetectedAction = .deny) ∧
    ¬ (vpnStatus = .unknown ∧ policy.vpnUnknownAction = .deny)
  permitted : effectivePermissions db request.tenantId userId now ≠ []
  canonical : ∀ p ∈ effectivePermissions db request.tenantId userId now,
    isCanonicalPermission p = true

theorem GatesOpen.located {db : Database} {rt : Runtime} {now : Instant} {vpnStatus : VpnStatus}
    {request : AccessRequest} {userId : Uuid} {policy : TenantSecurityPolicy}
    {location : LocationCandidate} {distance : Rat}
    (h : GatesOpen db rt now vpnStatus request userId policy location distance) :
    matchLocation rt.haversineMeters request.geo (db.assignedLocations request.tenantId userId now) =
      .ok (location, distance) :=
  matchLocation_eq_ok_iff.mpr ⟨h.computable, h.position⟩

section Decision

variable {db : Database} {rt : Runtime} {draw : AccessDraw} {vpnStatus : VpnStatus}
  {request : AccessRequest} {userId : Uuid}

structure GrantStored (g : Grant) (ev : Evaluated) (draw : AccessDraw) (sourceIp : String)
    (row : AccessSession) : Prop where
  accessSessionId : row.accessSessionId = g.accessSessionId
  tenantId : row.tenantId = g.tenantId
  principalId : row.principalId = g.userId
  actorType : row.actorType = .user
  deviceId : row.deviceId = some g.deviceId
  locationId : row.locationId = some g.location.locationId
  expiresAt : row.expiresAt = g.expiry
  vpnStatus : row.vpnStatus = some g.vpnStatus
  authorizationVersion : row.authorizationVersion = some ev.context.authorizationVersion
  sourceIp : row.sourceIp = sourceIp
  lastActivityAt : row.lastActivityAt = draw.now
  lastGeoValidatedAt : row.lastGeoValidatedAt = some draw.now
  status : row.status = .active

abbrev Database.expired (db : Database) (draw : AccessDraw) (request : AccessRequest) (userId : Uuid) :
    Database :=
  Write.apply db (expiry db request.tenantId userId request.deviceId draw.now)

def Evaluated.newSession (ev : Evaluated) (draw : AccessDraw) (request : AccessRequest)
    (userId newSessionId : Uuid) : NewSession where
  accessSessionId := newSessionId
  tenantId := request.tenantId
  userId := userId
  membershipId := ev.context.membershipId
  deviceId := request.deviceId
  locationId := ev.location.locationId
  provider := request.identity.provider
  authorizationVersion := ev.context.authorizationVersion
  sourceIp := request.sourceIp
  vpnStatus := ev.vpnStatus
  expiresAt := ev.expiry draw.now draw.now
  now := draw.now

variable {repo : RepositoryClass} {newSessionId : Uuid} {ev : Evaluated} {s t : Session Database}
  {opened : Uuid × Instant}

structure SessionOpened (db after : Database) (draw : AccessDraw) (request : AccessRequest)
    (ev : Evaluated) (g : Grant) : Prop where
  stored : ∃ row ∈ after.accessSessions.rows, GrantStored g ev draw request.sourceIp row
  others : ∃ sessions, after = { db with accessSessions := sessions }

theorem SessionOpened.inserted {d : Database} {g : Grant} {row : AccessSession}
    (hfree : (d.accessSessions.insert? row).isSome = true)
    (hothers : ∃ sessions, d = { db with accessSessions := sessions })
    (hrow : GrantStored g ev draw request.sourceIp row) :
    SessionOpened db (Write.apply d (.insertAccessSession row)) draw request ev g := by
  obtain ⟨sessions, rfl⟩ := hothers
  exact ⟨⟨row, mem_insertAccessSession hfree, hrow⟩, _, rfl⟩

variable {policy : TenantSecurityPolicy} {location : LocationCandidate} {distance : Rat}

end Decision

end VerigenceSecurity
