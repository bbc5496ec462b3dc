import VerigenceSecurity.Library.Evaluation
import VerigenceSecurity.SessionRefresh

/-! # The gates of access

What `create_or_reuse` and `refresh` find out about a request before they write anything is one
computation on the rows. Both services make it in the same order.
-/

namespace VerigenceSecurity
set_option autoImplicit false

open Transaction Program

/-! ## The computation -/

namespace Database

def activeTenant (db : Database) (tenantId : Uuid) : Except Failure Unit := do
  match ← db.tenantStatus tenantId with
  | .offboarding | .offboarded => .error (securityError .tenantOffboarding)
  | .configuring | .suspended => .error (securityError .tenantNotActive)
  | .active => .ok ()

def userContext (db : Database) (repo : RepositoryClass) (userId tenantId : Uuid) (now : Instant) :
    Except Failure UserContext :=
  match repo with
  | .security => db.membershipContext userId tenantId now
  | .groupAware => db.globalContext userId tenantId

def userPermissions (db : Database) (repo : RepositoryClass) (tenantId userId : Uuid)
    (now : Instant) : Except Failure (List String × List String) :=
  match repo with
  | .security => db.directUserPermissions tenantId userId now
  | .groupAware => effectiveUserPermissions db tenantId userId now

def positionOf (db : Database) (rt : Runtime) (policy : TenantSecurityPolicy)
    (userId tenantId : Uuid) (geo : GeoSample) (now : Instant) :
    Except Failure (LocationCandidate × Rat) := do
  validateGeo geo policy.maxGeoAccuracyMeters policy.maxGeoAgeSeconds now
  matchLocation rt.haversineMeters geo (db.assignedLocations tenantId userId now)

def scheduleOf (db : Database) (rt : Runtime) (userId tenantId : Uuid)
    (location : LocationCandidate) (now : Instant) : Except Failure ScheduleDecision := do
  db.ensureActiveSchedule tenantId location.scheduleId
  evaluateSchedule rt.zoneInfo now location.timezoneIana
    (db.scheduleWindows tenantId location.scheduleId)
    (db.activeOverrideUntil tenantId userId location.locationId now)

def rightsOf (db : Database) (repo : RepositoryClass) (policy : TenantSecurityPolicy)
    (vpnStatus : VpnStatus) (userId tenantId : Uuid) (now : Instant) :
    Except Failure (List String × List String) := do
  checkNetwork policy vpnStatus
  let (roles, databasePermissions) ← db.userPermissions repo tenantId userId now
  let permissions ← validatePermissions databasePermissions
  pure (roles, permissions)

end Database

structure Evaluated where
  vpnStatus : VpnStatus
  context : UserContext
  policy : TenantSecurityPolicy
  location : LocationCandidate
  distance : Rat
  schedule : ScheduleDecision
  roles : List String
  permissions : List String

def Database.evaluate (db : Database) (rt : Runtime) (repo : RepositoryClass) (draw : AccessDraw)
    (userId tenantId deviceId : Uuid) (geo : GeoSample) : Except Failure Evaluated := do
  let vpnStatus ← draw.risk
  db.activeTenant tenantId
  let context ← db.userContext repo userId tenantId draw.now
  let policy ← db.tenantPolicy tenantId
  checkDevice (db.deviceRow? tenantId userId deviceId)
  let (location, distance) ← db.positionOf rt policy userId tenantId geo draw.now
  let schedule ← db.scheduleOf rt userId tenantId location draw.now
  let (roles, permissions) ← db.rightsOf repo policy vpnStatus userId tenantId draw.now
  pure ⟨vpnStatus, context, policy, location, distance, schedule, roles, permissions⟩

def Evaluated.expiry (ev : Evaluated) (startedAt now : Instant) : Instant :=
  sessionExpiry ev.policy startedAt ev.schedule.authorizedUntil now

/-- Every gate is open, and this is what was found behind it. -/
structure AccessGates (db : Database) (rt : Runtime) (repo : RepositoryClass) (draw : AccessDraw)
    (userId tenantId deviceId : Uuid) (geo : GeoSample) (ev : Evaluated) : Prop where
  risk : draw.risk = .ok ev.vpnStatus
  tenant : db.tenantStatus tenantId = .ok .active
  context : db.userContext repo userId tenantId draw.now = .ok ev.context
  policy : db.tenantPolicy tenantId = .ok ev.policy
  device : ∃ row, db.deviceRow? tenantId userId deviceId = some row ∧ row.status = .active
  fresh : validateGeo geo ev.policy.maxGeoAccuracyMeters ev.policy.maxGeoAgeSeconds draw.now = .ok ()
  location : matchLocation rt.haversineMeters geo (db.assignedLocations tenantId userId draw.now) =
    .ok (ev.location, ev.distance)
  assigned : db.ensureActiveSchedule tenantId ev.location.scheduleId = .ok ()
  schedule : evaluateSchedule rt.zoneInfo draw.now ev.location.timezoneIana
    (db.scheduleWindows tenantId ev.location.scheduleId)
    (db.activeOverrideUntil tenantId userId ev.location.locationId draw.now) = .ok ev.schedule
  network : checkNetwork ev.policy ev.vpnStatus = .ok ()
  rights : ∃ keys, db.userPermissions repo tenantId userId draw.now = .ok (ev.roles, keys) ∧
    validatePermissions keys = .ok ev.permissions

theorem activeTenant_eq_ok_iff {db : Database} {tenantId : Uuid} :
    db.activeTenant tenantId = .ok () ↔ db.tenantStatus tenantId = .ok .active := by
  unfold Database.activeTenant
  rw [except_bind_ok_iff]
  constructor
  · rintro ⟨status, hstatus, h⟩
    cases status with
    | active => exact hstatus
    | _ => cases h
  · intro h
    exact ⟨.active, h, rfl⟩

theorem checkDevice_eq_ok_iff {found : Option RegisteredDevice} :
    checkDevice found = .ok () ↔ ∃ row, found = some row ∧ row.status = .active := by
  unfold checkDevice
  cases found with
  | none => simp
  | some row => cases hstatus : row.status <;> simp [hstatus]

theorem evaluate_eq_ok_iff {db : Database} {rt : Runtime} {repo : RepositoryClass}
    {draw : AccessDraw} {userId tenantId deviceId : Uuid} {geo : GeoSample} {ev : Evaluated} :
    db.evaluate rt repo draw userId tenantId deviceId geo = .ok ev ↔
      AccessGates db rt repo draw userId tenantId deviceId geo ev := by
  simp only [Database.evaluate, Database.positionOf, Database.scheduleOf, Database.rightsOf,
    except_bind_ok_iff]
  constructor
  · rintro ⟨vpnStatus, hrisk, _, htenant, context, hcontext, policy, hpolicy, _, hdevice,
      ⟨location, distance⟩, ⟨_, hgeo, hlocation⟩, schedule, ⟨_, hassigned, hschedule⟩,
      ⟨roles, permissions⟩, ⟨_, hnetwork, ⟨_, keys⟩, hkeys, _, hvalid, hrights⟩, hev⟩
    cases hrights
    cases hev
    exact ⟨hrisk, activeTenant_eq_ok_iff.mp htenant, hcontext, hpolicy,
      checkDevice_eq_ok_iff.mp hdevice, hgeo, hlocation, hassigned, hschedule, hnetwork,
      keys, hkeys, hvalid⟩
  · intro h
    obtain ⟨keys, hkeys, hvalid⟩ := h.rights
    exact ⟨ev.vpnStatus, h.risk, (), activeTenant_eq_ok_iff.mpr h.tenant, ev.context, h.context,
      ev.policy, h.policy, (), checkDevice_eq_ok_iff.mpr h.device, (ev.location, ev.distance),
      ⟨(), h.fresh, h.location⟩, ev.schedule, ⟨(), h.assigned, h.schedule⟩, (ev.roles, ev.permissions),
      ⟨(), h.network, (ev.roles, keys), hkeys, ev.permissions, hvalid, rfl⟩, rfl⟩

/-! ## The services make it -/

section Services

variable {rt : Runtime} {repo : RepositoryClass} {s : Session Database}

theorem requireActiveTenant_computes (tenantId : Uuid) :
    (requireActiveTenant tenantId).Computes s (s.view.activeTenant tenantId) :=
  computes_query _ _

theorem getUserContext_computes (userId tenantId : Uuid) (now : Instant) :
    (getUserContext repo userId tenantId now).Computes s
      (s.view.userContext repo userId tenantId now) :=
  computes_query _ _

theorem getTenantPolicy_computes (tenantId : Uuid) :
    (getTenantPolicy tenantId).Computes s (s.view.tenantPolicy tenantId) :=
  computes_query _ _

theorem lockActiveDevice_computes (userId tenantId deviceId : Uuid) :
    (lockActiveDevice userId tenantId deviceId).Computes s
      (checkDevice (s.view.deviceRow? tenantId userId deviceId)) :=
  computes_of_exec rfl

theorem matchPosition_computes (policy : TenantSecurityPolicy) (userId tenantId : Uuid)
    (geo : GeoSample) (now : Instant) :
    (matchPosition rt policy userId tenantId geo now).Computes s
      (s.view.positionOf rt policy userId tenantId geo now) :=
  evaluatesTo_bind (computes_done _) fun _ _ => computes_query _ _

theorem scheduleAt_computes (userId tenantId : Uuid) (location : LocationCandidate) (now : Instant) :
    (scheduleAt rt userId tenantId location now).Computes s
      (s.view.scheduleOf rt userId tenantId location now) := by
  refine evaluatesTo_bind (computes_query _ _) fun _ _ => ?_
  refine evaluatesTo_after (exec_query _ _ _) ?_
  refine evaluatesTo_after (exec_query _ _ _) ?_
  exact computes_done _

theorem authorize_computes (policy : TenantSecurityPolicy) (vpnStatus : VpnStatus)
    (userId tenantId : Uuid) (now : Instant) :
    (authorize repo policy vpnStatus userId tenantId now).Computes s
      (s.view.rightsOf repo policy vpnStatus userId tenantId now) := by
  refine evaluatesTo_bind (computes_done _) fun _ _ => ?_
  refine evaluatesTo_bind (computes_query _ _) ?_
  rintro ⟨roles, databasePermissions⟩ _
  exact evaluatesTo_bind (computes_done _) fun _ _ => computes_pure _

/-- `create_or_reuse` after the evaluation of the request. -/
def grantAccess (rt : Runtime) (repo : RepositoryClass) (newSessionId : Uuid) (draw : AccessDraw)
    (request : AccessRequest) (userId : Uuid) (ev : Evaluated) : Tx AccessResponse := do
  let (accessSessionId, expiry) ← openSession repo newSessionId draw request ev.vpnStatus ev.context
    userId ev.policy ev.location ev.schedule.authorizedUntil
  Grant.finish {
    accessSessionId := accessSessionId, userId := userId, tenantId := request.tenantId
    deviceId := request.deviceId, location := ev.location, distance := ev.distance
    schedule := ev.schedule, vpnStatus := ev.vpnStatus, roles := ev.roles
    permissions := ev.permissions, expiry := expiry } rt draw request.geo request.sourceIp
    request.correlationId

theorem exec_rollbackAndRaise {α : Type} (e : Failure) (t : Session Database) :
    ∃ u, (rollbackAndRaise e : Tx α).exec t = (.error e, u) := ⟨_, rfl⟩

theorem createOrReuse_evaluates {newSessionId : Uuid} {draw : AccessDraw} {request : AccessRequest}
    {userId : Uuid} (huser : s.view.resolveIdentityUser request.identity = .ok userId) :
    (createOrReuse rt repo newSessionId draw request).EvaluatesTo s
      (s.view.evaluate rt repo draw userId request.tenantId request.deviceId request.geo)
      fun ev => attempt rollbackAndRaise
        (grantAccess rt repo newSessionId draw request userId ev) := by
  refine evaluatesTo_bind (computes_done _) fun vpnStatus _ => ?_
  refine evaluatesTo_attempt exec_rollbackAndRaise ?_
  refine evaluatesTo_bind (requireActiveTenant_computes _) fun _ _ => ?_
  refine evaluatesTo_after ((exec_query _ _ _).trans (by rw [huser])) ?_
  refine evaluatesTo_bind (getUserContext_computes _ _ _) fun context _ => ?_
  refine evaluatesTo_bind (getTenantPolicy_computes _) fun policy _ => ?_
  refine evaluatesTo_bind (lockActiveDevice_computes _ _ _) fun _ _ => ?_
  refine evaluatesTo_bind (matchPosition_computes _ _ _ _ _) ?_
  rintro ⟨location, distance⟩ _
  refine evaluatesTo_bind (scheduleAt_computes _ _ _ _) fun schedule _ => ?_
  refine evaluatesTo_bind (authorize_computes _ _ _ _ _) ?_
  rintro ⟨roles, permissions⟩ _
  rfl

end Services

/-! ## What a grant leaves behind -/

def Database.evaluationReferences (db : Database) (row : AccessContextEvaluation) : List Reference :=
  [db.tenantReference row.tenantId, db.principalReference row.principalId] ++
    row.accessSessionId.toList.map db.sessionReference ++
    row.matchedLocationId.toList.map db.locationReference ++
    row.scheduleId.toList.map db.scheduleReference

section Finish

variable {rt : Runtime} {draw : AccessDraw} {g : Grant} {geo : GeoSample}
  {sourceIp correlationId : String} {response : AccessResponse} {s t : Session Database}

theorem recordEvaluation_exec_ok_iff {row : AccessContextEvaluation} :
    (recordEvaluation row).exec s = (.ok (), t) ↔
      row.fits = true ∧ (s.view.accessContextEvaluations.insert? row).isSome = true ∧
        (s.view.evaluationReferences row).all (·.present) = true ∧
          t = ⟨s.committed, Write.apply s.view (.insertEvaluation row)⟩ := by
  constructor
  · intro h
    obtain ⟨o, ho, _, rfl⟩ := exec_execute_ok h
    obtain ⟨hfits, hinsert⟩ := fits_ok ho
    obtain ⟨hfree, hpresent, hedits⟩ := insertRow_ok hinsert
    exact ⟨hfits, hfree, hpresent, by rw [hedits]; rfl⟩
  · rintro ⟨hfits, hfree, hpresent, rfl⟩
    unfold Database.evaluationReferences at hpresent
    simp only [recordEvaluation, exec_execute, insertRow, hfits, hfree, hpresent, Bool.true_eq_false,
      if_false]
    rfl

theorem Grant.finish_exec_ok_iff :
    (g.finish rt draw geo sourceIp correlationId).exec s = (.ok response, t) ↔
      (g.evaluation draw geo sourceIp correlationId).fits = true ∧
        (s.view.accessContextEvaluations.insert? (g.evaluation draw geo sourceIp correlationId)).isSome =
          true ∧
        (s.view.evaluationReferences (g.evaluation draw geo sourceIp correlationId)).all (·.present) =
          true ∧
        ∃ token, rt.tokens.issue draw.token g.claims = .ok token ∧ response = g.response token ∧
          t.view = Write.apply s.view (.insertEvaluation (g.evaluation draw geo sourceIp correlationId)) ∧
          t.committed = t.view := by
  unfold Grant.finish
  constructor
  · intro h
    obtain ⟨_, m, hrecord, hrest⟩ := exec_bind_ok h
    obtain ⟨hfits, hfree, hpresent, rfl⟩ := recordEvaluation_exec_ok_iff.mp hrecord
    obtain ⟨token, m, hissue, hrest⟩ := exec_bind_ok hrest
    obtain ⟨htoken, rfl⟩ := exec_done_ok hissue
    cases hrest
    exact ⟨hfits, hfree, hpresent, token, htoken, rfl, rfl, rfl⟩
  · rintro ⟨hfits, hfree, hpresent, token, htoken, rfl, hview, hcommitted⟩
    refine (exec_bind_of_ok (recordEvaluation_exec_ok_iff.mpr ⟨hfits, hfree, hpresent, rfl⟩)).trans ?_
    rw [htoken]
    obtain ⟨committed, view⟩ := t
    simp only at hview hcommitted
    rw [hcommitted, hview]
    rfl

end Finish

end VerigenceSecurity
