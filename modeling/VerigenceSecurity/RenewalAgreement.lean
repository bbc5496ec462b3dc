import VerigenceSecurity.Library.Failures
import VerigenceSecurity.AccessGates
import VerigenceSecurity.DeviceSessions
import VerigenceSecurity.RefreshFailures

/-! # The two renewals of a session

`create_or_reuse` and `refresh` on the same live session, with the same draws. They part only
where the limit of the renewed session has already been reached.
-/

namespace VerigenceSecurity
set_option autoImplicit false

open Transaction Program Relational

def AccessRequest.refreshing (request : AccessRequest) (userId accessSessionId : Uuid) :
    RefreshRequest where
  userId := userId
  tenantId := request.tenantId
  accessSessionId := accessSessionId
  geo := some request.geo
  sourceIp := request.sourceIp
  correlationId := request.correlationId

/-! ## The refresh of a live session -/

/-- `refresh` after the evaluation of the request. -/
def renewAccess (rt : Runtime) (draw : AccessDraw) (request : AccessRequest) (userId : Uuid)
    (session : AccessSession) (ev : Evaluated) : Tx RefreshedUserSession := do
  let expiry ← renewLocked (request.refreshing userId session.accessSessionId) draw ev.vpnStatus
    ev.context ev.policy session ev.location ev.schedule.authorizedUntil
  let response ← Grant.finish {
    accessSessionId := session.accessSessionId, userId := userId, tenantId := request.tenantId
    deviceId := session.deviceId.getD "None", location := ev.location, distance := ev.distance
    schedule := ev.schedule, vpnStatus := ev.vpnStatus, roles := ev.roles
    permissions := ev.permissions, expiry := expiry } rt draw request.geo request.sourceIp
    request.correlationId
  pure (response.refreshed userId)

theorem exec_deny {α : Type} (denialId : Uuid) (now : Instant) (request : RefreshRequest)
    (evidence : RefreshEvidence) (e : Failure) (t : Session Database) :
    ∃ u, (deny denialId now request evidence e : Tx α).exec t = (.error e, u) := by
  unfold deny
  rw [exec_bind, exec_rollbackNow]
  cases e with
  | security error =>
    simp only
    split
    · rw [exec_bind, persistDenialEvidence, exec_attempt]
      cases (do
          recordEvaluation (evidence.denial denialId now request error.code)
          commitNow : Tx Unit).exec ⟨t.committed, t.committed⟩ with
      | mk r v => cases r <;> exact ⟨_, rfl⟩
    · exact ⟨_, rfl⟩
  | _ => exact ⟨_, rfl⟩

section Renewal

variable {rt : Runtime} {repo : RepositoryClass} {newSessionId denialId : Uuid} {draw : AccessDraw}
  {request : AccessRequest} {userId : Uuid} {session : AccessSession} {s : Session Database}

/-- The session of the device is the one that the refresh names. -/
theorem userSession_of_active
    (h : s.view.activeUserSession request.tenantId userId request.deviceId = some session) :
    s.view.userSession session.accessSessionId request.tenantId userId = some session := by
  obtain ⟨hmem, hentry⟩ := activeUserSession_eq_some_iff.mp h
  obtain ⟨htenant, huser, _, hactor, _⟩ := activeEntry_mem_iff.mp hentry
  refine Table.find?_of_mem hmem (decide_eq_true ⟨rfl, htenant, huser, hactor⟩)
    (.primary, [session.accessSessionId]) ?_
  intro other hother
  obtain ⟨hid, _⟩ := of_decide_eq_true hother
  simp [Row.entries, hid]

theorem lockSession_computes
    (h : s.view.activeUserSession request.tenantId userId request.deviceId = some session)
    (hlive : draw.now < session.expiresAt) :
    (lockSession (request.refreshing userId session.accessSessionId) session.deviceId
      draw.now).Computes s (do
        checkDevice (s.view.deviceRow? request.tenantId userId request.deviceId)
        pure session) := by
  obtain ⟨_, hentry⟩ := activeUserSession_eq_some_iff.mp h
  obtain ⟨_, _, hdevice, _, hstatus⟩ := activeEntry_mem_iff.mp hentry
  unfold lockSession
  rw [hdevice]
  refine evaluatesTo_bind (lockActiveDevice_computes _ _ _) fun _ _ => ?_
  refine evaluatesTo_after (congrArg (fun found => (Except.ok found, s)) (userSession_of_active h)) ?_
  simp only
  rw [if_neg (not_not.mpr hstatus), if_neg (not_not.mpr hdevice), if_neg (not_le.mpr hlive)]
  exact computes_pure _

theorem observeSession_computes
    (h : s.view.activeUserSession request.tenantId userId request.deviceId = some session) :
    (observeSession repo (request.refreshing userId session.accessSessionId) draw.now).Computes s (do
      s.view.activeTenant request.tenantId
      let context ← s.view.userContext repo userId request.tenantId draw.now
      let policy ← s.view.tenantPolicy request.tenantId
      pure (context, policy, session.deviceId)) := by
  obtain ⟨_, hentry⟩ := activeUserSession_eq_some_iff.mp h
  obtain ⟨_, _, _, _, hstatus⟩ := activeEntry_mem_iff.mp hentry
  refine evaluatesTo_bind (requireActiveTenant_computes _) fun _ _ => ?_
  refine evaluatesTo_bind (getUserContext_computes _ _ _) fun context _ => ?_
  refine evaluatesTo_bind (getTenantPolicy_computes _) fun policy _ => ?_
  refine evaluatesTo_after ((exec_query _ _ _).trans
    (congrArg (fun found => (Except.ok found, s)) (userSession_of_active h))) ?_
  simp only
  rw [if_neg (not_not.mpr hstatus)]
  exact computes_pure _

def Database.evaluateInGroups (db : Database) (rt : Runtime) (repo : RepositoryClass)
    (draw : AccessDraw) (userId tenantId deviceId : Uuid) (geo : GeoSample) (session : AccessSession) :
    Except Failure Evaluated := do
  let vpnStatus ← draw.risk
  let (context, policy, _) ← (do
    db.activeTenant tenantId
    let context ← db.userContext repo userId tenantId draw.now
    let policy ← db.tenantPolicy tenantId
    pure (context, policy, session.deviceId))
  let (_, location, distance) ← (do
    let session ← (do
      checkDevice (db.deviceRow? tenantId userId deviceId)
      pure session)
    let (location, distance) ← db.positionOf rt policy userId tenantId geo draw.now
    pure (session, location, distance))
  let schedule ← db.scheduleOf rt userId tenantId location draw.now
  let (roles, permissions) ← db.rightsOf repo policy vpnStatus userId tenantId draw.now
  pure ⟨vpnStatus, context, policy, location, distance, schedule, roles, permissions⟩

theorem evaluate_eq_evaluateInGroups (db : Database) (userId tenantId deviceId : Uuid)
    (geo : GeoSample) (session : AccessSession) :
    db.evaluate rt repo draw userId tenantId deviceId geo =
      db.evaluateInGroups rt repo draw userId tenantId deviceId geo session := by
  simp only [Database.evaluate, Database.evaluateInGroups, LawfulMonad.bind_assoc,
    LawfulMonad.pure_bind]

/-- On a live session `refresh` makes the evaluation that `create_or_reuse` makes. -/
theorem refresh_evaluates
    (h : s.view.activeUserSession request.tenantId userId request.deviceId = some session)
    (hlive : draw.now < session.expiresAt) :
    (refresh rt repo denialId draw (request.refreshing userId session.accessSessionId)).EvaluatesTo s
      (s.view.evaluate rt repo draw userId request.tenantId request.deviceId request.geo)
      fun ev => attempt (deny denialId draw.now (request.refreshing userId session.accessSessionId) {
        risk := some ev.vpnStatus, accessSessionId := some session.accessSessionId
        location := some ev.location, distance := some ev.distance
        schedule := some ev.schedule }) (renewAccess rt draw request userId session ev) := by
  rw [evaluate_eq_evaluateInGroups _ _ _ _ _ session]
  refine evaluatesTo_after rfl ?_
  refine evaluatesTo_bind (computes_attempt (exec_deny _ _ _ _) (computes_done _)) fun vpnStatus _ => ?_
  refine evaluatesTo_bind (computes_attempt (exec_deny _ _ _ _) (observeSession_computes h)) ?_
  rintro ⟨context, policy, device⟩ hobserved
  obtain rfl : session.deviceId = device := by
    obtain ⟨_, _, hcontext⟩ := except_bind_ok_iff.mp hobserved
    obtain ⟨_, _, hpolicy⟩ := except_bind_ok_iff.mp hcontext
    obtain ⟨_, _, hpure⟩ := except_bind_ok_iff.mp hpolicy
    cases hpure
    rfl
  refine evaluatesTo_bind (computes_attempt (exec_deny _ _ _ _) ?_) ?_
  · refine evaluatesTo_bind (lockSession_computes h hlive) fun locked _ => ?_
    refine evaluatesTo_bind (matchPosition_computes _ _ _ _ _) ?_
    rintro ⟨location, distance⟩ _
    exact computes_pure _
  rintro ⟨locked, location, distance⟩ hlocated
  obtain rfl : session = locked := by
    obtain ⟨_, hlocked, hposition⟩ := except_bind_ok_iff.mp hlocated
    obtain ⟨_, _, hpure⟩ := except_bind_ok_iff.mp hlocked
    cases hpure
    obtain ⟨_, _, hpair⟩ := except_bind_ok_iff.mp hposition
    cases hpair
    rfl
  refine evaluatesTo_bind (computes_attempt (exec_deny _ _ _ _) (scheduleAt_computes _ _ _ _)) ?_
  intro schedule _
  refine evaluatesTo_attempt_bind (exec_deny _ _ _ _) (authorize_computes _ _ _ _ _) ?_
  rintro ⟨roles, permissions⟩ _
  rfl

/-! ## What each writes -/

def Database.renewed (db : Database) (draw : AccessDraw) (request : AccessRequest)
    (session : AccessSession) (ev : Evaluated) : Database :=
  Write.apply db (.updateReusedUserSession session.accessSessionId request.sourceIp ev.vpnStatus
    ev.context.authorizationVersion (ev.expiry session.startedAt draw.now) draw.now)

def Evaluated.grant (ev : Evaluated) (draw : AccessDraw) (request : AccessRequest) (userId : Uuid)
    (session : AccessSession) : Grant where
  accessSessionId := session.accessSessionId
  userId := userId
  tenantId := request.tenantId
  deviceId := request.deviceId
  location := ev.location
  distance := ev.distance
  schedule := ev.schedule
  vpnStatus := ev.vpnStatus
  roles := ev.roles
  permissions := ev.permissions
  expiry := ev.expiry session.startedAt draw.now

/-- Both renewals end with the same grant on the same rows. -/
def finishRenewal (rt : Runtime) (draw : AccessDraw) (request : AccessRequest) (userId : Uuid)
    (session : AccessSession) (ev : Evaluated) (s : Session Database) :
    Except Failure AccessResponse × Session Database :=
  if session.startedAt < ev.expiry session.startedAt draw.now then
    ((ev.grant draw request userId session).finish rt draw request.geo request.sourceIp
      request.correlationId).exec ⟨s.committed, s.view.renewed draw request session ev⟩
  else (.error (.integrityError .check), s)

theorem exec_updateWhere (name : StatementName) (relation : Relation) (mode : LockMode)
    (find : Database → List Uuid) (write : List Uuid → Write) :
    (updateWhere name relation mode find write).exec s =
      (.ok (find s.view), ⟨s.committed, Write.apply s.view (write (find s.view))⟩) := by
  have hfound : (find s.view).filter (fun id => decide (id ∈ find s.view)) = find s.view :=
    List.filter_eq_self.mpr fun id hid => decide_eq_true hid
  unfold updateWhere
  rw [exec_bind, exec_query]
  simp only [exec_execute, hfound, replayAll_cons, replayAll_nil]
  rfl

theorem renewSession_exec (name : StatementName) (find : Database → Option AccessSession)
    (expiresAt : Instant) (write : Write) (hfound : find s.view = some session) :
    (renewSession name find expiresAt write).exec s =
      if session.startedAt < expiresAt then (.ok true, ⟨s.committed, Write.apply s.view write⟩)
      else (.error (.integrityError .check), s) := by
  unfold renewSession
  rw [exec_execute, hfound]
  by_cases hcheck : session.startedAt < expiresAt
  · simp only [if_pos hcheck, replayAll_cons, replayAll_nil]
    rfl
  · simp only [if_neg hcheck]

theorem expireStaleUserSessions_exec (tenantId deviceId : Uuid) (now : Instant) :
    (expireStaleUserSessions tenantId userId deviceId now).exec s =
      (.ok (), ⟨s.committed, Write.apply s.view (expiry s.view tenantId userId deviceId now)⟩) := by
  unfold expireStaleUserSessions
  rw [exec_bind, exec_updateWhere]
  rfl

/-- The only active session of the device has not expired. -/
theorem apply_expiry_of_live
    (h : s.view.activeUserSession request.tenantId userId request.deviceId = some session)
    (hlive : draw.now < session.expiresAt) :
    Write.apply s.view (expiry s.view request.tenantId userId request.deviceId draw.now) = s.view := by
  obtain ⟨hmem, hentry⟩ := activeUserSession_eq_some_iff.mp h
  simp only [expiry, Write.apply]
  rw [Table.update_eq_self]
  intro r hr
  apply decide_eq_false
  rintro ⟨_, htenant, huser, hdevice, hactor, hstatus, hexpired⟩
  obtain rfl : r = session := Table.shared_entry hr hmem
    (activeEntry_mem_iff.mpr ⟨htenant, huser, hdevice, hactor, hstatus⟩) hentry
  exact absurd hlive (not_lt.mpr hexpired)

theorem updateReusedUserSession_exec (sourceIp : String) (vpnStatus : VpnStatus) (version : Nat)
    (expiresAt now : Instant) (hmem : session ∈ s.view.accessSessions.rows)
    (hstatus : session.status = .active) :
    (updateReusedUserSession session.accessSessionId sourceIp vpnStatus version expiresAt now).exec s =
      if session.startedAt < expiresAt then
        (.ok (), ⟨s.committed, Write.apply s.view (.updateReusedUserSession session.accessSessionId
          sourceIp vpnStatus version expiresAt now)⟩)
      else (.error (.integrityError .check), s) := by
  have hfound : s.view.accessSessions.rows.find? (fun r =>
      decide (r.accessSessionId = session.accessSessionId ∧ r.status = .active)) = some session := by
    refine Table.find?_of_mem hmem (decide_eq_true ⟨rfl, hstatus⟩)
      (.primary, [session.accessSessionId]) ?_
    intro other hother
    obtain ⟨hid, _⟩ := of_decide_eq_true hother
    simp [Row.entries, hid]
  unfold updateReusedUserSession
  rw [exec_bind, renewSession_exec _ _ _ _ hfound]
  split
  · rename_i hrun
    split at hrun
    · cases hrun
      rw [if_pos ‹_›]
      rfl
    · cases hrun
  · rename_i hrun
    split at hrun
    · cases hrun
    · cases hrun
      rw [if_neg ‹_›]

theorem grantAccess_exec {ev : Evaluated}
    (h : s.view.activeUserSession request.tenantId userId request.deviceId = some session)
    (hlive : draw.now < session.expiresAt)
    (hlocation : session.locationId = some ev.location.locationId) :
    (grantAccess rt repo newSessionId draw request userId ev).exec s =
      finishRenewal rt draw request userId session ev s := by
  obtain ⟨hmem, hentry⟩ := activeUserSession_eq_some_iff.mp h
  obtain ⟨_, _, _, _, hstatus⟩ := activeEntry_mem_iff.mp hentry
  have hexpiry : sessionExpiry ev.policy session.startedAt ev.schedule.authorizedUntil draw.now =
      ev.expiry session.startedAt draw.now := rfl
  unfold grantAccess openSession finishRenewal
  simp only [exec_bind, expireStaleUserSessions_exec, apply_expiry_of_live h hlive, exec_query, h,
    hlocation, ne_eq, not_true_eq_false, if_false, hexpiry,
    updateReusedUserSession_exec _ _ _ _ _ hmem hstatus]
  by_cases hcheck : session.startedAt < ev.expiry session.startedAt draw.now
  · rw [if_pos hcheck, if_pos hcheck]
    rfl
  · rw [if_neg hcheck, if_neg hcheck]

/-- The `UPDATE` of the refresh sets the location that the session has already. -/
theorem apply_updateActiveSessionContext {ev : Evaluated}
    (h : s.view.activeUserSession request.tenantId userId request.deviceId = some session)
    (hlocation : session.locationId = some ev.location.locationId) :
    Write.apply s.view (.updateActiveSessionContext session.accessSessionId request.tenantId userId
      ev.location.locationId request.sourceIp ev.vpnStatus ev.context.authorizationVersion
      (ev.expiry session.startedAt draw.now) draw.now) = s.view.renewed draw request session ev := by
  obtain ⟨hmem, hentry⟩ := activeUserSession_eq_some_iff.mp h
  obtain ⟨htenant, huser, _, hactor, hstatus⟩ := activeEntry_mem_iff.mp hentry
  simp only [Database.renewed, Write.apply]
  congr 1
  apply Table.update_congr
  intro r hr
  by_cases hid : r.accessSessionId = session.accessSessionId
  · obtain rfl : r = session := Table.shared_entry hr hmem
      (k := (.primary, [session.accessSessionId])) (by simp [Row.entries, hid]) (by simp [Row.entries])
    simp only [htenant, huser, hactor, hstatus, and_self, decide_true, if_true]
    unfold AccessSession.renewed
    split
    · simp only [hlocation]
    · rw [← hlocation]
  · simp [hid]

theorem updateActiveSessionContext_exec {ev : Evaluated}
    (h : s.view.activeUserSession request.tenantId userId request.deviceId = some session)
    (hlocation : session.locationId = some ev.location.locationId) :
    (updateActiveSessionContext session.accessSessionId request.tenantId userId ev.location.locationId
      request.sourceIp ev.vpnStatus ev.context.authorizationVersion
      (ev.expiry session.startedAt draw.now) draw.now).exec s =
      if session.startedAt < ev.expiry session.startedAt draw.now then
        (.ok true, ⟨s.committed, s.view.renewed draw request session ev⟩)
      else (.error (.integrityError .check), s) := by
  obtain ⟨_, hentry⟩ := activeUserSession_eq_some_iff.mp h
  obtain ⟨_, _, _, _, hstatus⟩ := activeEntry_mem_iff.mp hentry
  have hfound : (s.view.userSession session.accessSessionId request.tenantId userId).filter
      (fun r => decide (r.status = .active)) = some session := by
    simp [userSession_of_active h, Option.filter, hstatus]
  rw [← apply_updateActiveSessionContext h hlocation]
  exact renewSession_exec _ _ _ _ hfound

theorem renewAccess_exec {ev : Evaluated}
    (h : s.view.activeUserSession request.tenantId userId request.deviceId = some session)
    (hlocation : session.locationId = some ev.location.locationId) :
    (renewAccess rt draw request userId session ev).exec s =
      if ev.expiry session.startedAt draw.now ≤ draw.now then
        (.error (securityError .authTokenExpired), s)
      else ((finishRenewal rt draw request userId session ev s).1.map (·.refreshed userId),
        (finishRenewal rt draw request userId session ev s).2) := by
  obtain ⟨_, hentry⟩ := activeUserSession_eq_some_iff.mp h
  obtain ⟨_, _, hdevice, _, _⟩ := activeEntry_mem_iff.mp hentry
  have hdevice' : session.deviceId.getD "None" = request.deviceId := by
    rw [hdevice, Option.getD_some]
  have hexpiry : sessionExpiry ev.policy session.startedAt ev.schedule.authorizedUntil draw.now =
      ev.expiry session.startedAt draw.now := rfl
  unfold renewAccess renewLocked finishRenewal
  simp only [hexpiry, hdevice']
  by_cases hpassed : ev.expiry session.startedAt draw.now ≤ draw.now
  · rw [if_pos hpassed, if_pos hpassed]
    rfl
  rw [if_neg hpassed, if_neg hpassed, Program.bind_assoc]
  have hupdate : (updateActiveSessionContext session.accessSessionId request.tenantId userId
      ev.location.locationId request.sourceIp ev.vpnStatus ev.context.authorizationVersion
      (ev.expiry session.startedAt draw.now) draw.now).exec s = _ :=
    updateActiveSessionContext_exec h hlocation
  by_cases hcheck : session.startedAt < ev.expiry session.startedAt draw.now
  · rw [if_pos hcheck] at hupdate
    rw [if_pos hcheck]
    exact (exec_bind_of_ok hupdate).trans (exec_bind_pure _ _ _)
  · rw [if_neg hcheck] at hupdate
    rw [if_neg hcheck]
    exact exec_bind_of_error hupdate

/-! ## The outcomes -/

/-- The rows of the renewed session carry the same in all that the renewal decides. -/
def SameSession (accessSessionId : Uuid) (db db' : Database) : Prop :=
  ∃ row ∈ db.accessSessions.rows, ∃ row' ∈ db'.accessSessions.rows,
    row.accessSessionId = accessSessionId ∧ row'.accessSessionId = accessSessionId ∧
      row.expiresAt = row'.expiresAt ∧ row.authorizationVersion = row'.authorizationVersion ∧
        row.vpnStatus = row'.vpnStatus

/-- Both fail with the same error, or both renew the same session to the same effect. -/
def SameOutcome (created : Except Failure AccessResponse × Database)
    (refreshed : Except Failure RefreshedUserSession × Database) : Prop :=
  match created.1, refreshed.1 with
  | .error e, .error f => e = f
  | .ok a, .ok b => a.accessSessionId = b.accessSessionId ∧ a.locationId = b.locationId ∧
      a.expiresAt = b.expiresAt ∧ a.roles = b.roles ∧ a.permissions = b.permissions ∧
        SameSession a.accessSessionId created.2 refreshed.2
  | _, _ => False

theorem validateActorClaimShape_error {claims : AccessTokenClaims} {e : Failure}
    (h : validateActorClaimShape claims = .error e) : ∃ message, e = .valueError message := by
  unfold validateActorClaimShape at h
  repeat' split at h
  all_goals cases h
  all_goals exact ⟨_, rfl⟩

theorem issue_error {tokens : TokenService} {draw : TokenDraw} {claims : AccessTokenClaims}
    {e : Failure} (h : tokens.issue draw claims = .error e) :
    e ≠ securityError .authTokenExpired := by
  unfold TokenService.issue at h
  simp only at h
  split at h
  · cases h
    decide
  cases hshape : validateActorClaimShape claims with
  | error f =>
    obtain ⟨message, rfl⟩ := validateActorClaimShape_error hshape
    rw [hshape] at h
    cases h
    exact Failure.noConfusion
  | ok _ =>
    rw [hshape] at h
    cases hvalid : validatePermissions claims.permissions with
    | error f =>
      rw [hvalid] at h
      cases h
      unfold validatePermissions at hvalid
      simp only at hvalid
      split at hvalid <;> cases hvalid
      exact Failure.noConfusion
    | ok permissions =>
      rw [hvalid] at h
      simp only [Bind.bind, Except.bind] at h
      split at h <;> cases h
      decide

/-- Nothing that follows the evaluation of a request fails for an expired token. -/
theorem finish_raises (g : Grant) (geo : GeoSample) (sourceIp correlationId : String) :
    (g.finish rt draw geo sourceIp correlationId).Raises
      fun e => e ≠ securityError .authTokenExpired := by
  refine raises_bind (raises_execute fun db e h => ?_) fun _ => raises_bind ?_ fun token => ?_
  · unfold insertRow at h
    repeat' split at h
    all_goals cases h
    all_goals exact Failure.noConfusion
  · exact fun e h => issue_error h
  · exact raises_bind raises_commitNow fun _ => raises_pure _

theorem finishRenewal_error {ev : Evaluated} {e : Failure} {t : Session Database}
    (h : finishRenewal rt draw request userId session ev s = (.error e, t)) :
    e ≠ securityError .authTokenExpired := by
  unfold finishRenewal at h
  split at h
  · exact (finish_raises ..).exec h
  · cases h
    exact Failure.noConfusion

/-- The row of the session has been renewed. -/
theorem finishRenewal_same {ev : Evaluated} {response : AccessResponse} {t : Session Database}
    (hmem : session ∈ s.view.accessSessions.rows) (hstatus : session.status = .active)
    (h : finishRenewal rt draw request userId session ev s = (.ok response, t)) :
    SameSession response.accessSessionId t.committed t.committed := by
  unfold finishRenewal at h
  split at h
  · obtain ⟨_, _, _, token, _, rfl, hview, hcommitted⟩ := Grant.finish_exec_ok_iff.mp h
    have hrow : session.renewed request.sourceIp ev.vpnStatus ev.context.authorizationVersion
        (ev.expiry session.startedAt draw.now) draw.now ∈ t.committed.accessSessions.rows := by
      rw [hcommitted, hview]
      simp only [Database.renewed, Write.apply]
      exact Table.mem_update_set hmem (decide_eq_true ⟨rfl, hstatus⟩)
    have hid : (session.renewed request.sourceIp ev.vpnStatus ev.context.authorizationVersion
        (ev.expiry session.startedAt draw.now) draw.now).accessSessionId = session.accessSessionId := by
      unfold AccessSession.renewed
      split <;> rfl
    exact ⟨_, hrow, _, hrow, hid, hid, rfl, rfl, rfl⟩
  · cases h

/-- The lifetime of a token and the interval of a position are always ahead. -/
theorem lt_expiry_iff {ev : Evaluated} {startedAt now : Instant} :
    now < ev.expiry startedAt now ↔
      now < startedAt + minutes ev.policy.sessionMaxDurationMinutes ∧
        now < ev.schedule.authorizedUntil := by
  have httl := minutes_pos ev.policy.accessTokenTtl_pos
  have hgeo := seconds_pos ev.policy.geoRevalidationInterval_pos
  unfold Evaluated.expiry sessionExpiry Instant at *
  omega

end Renewal

/-- The two renewals of a live session agree exactly where a gate is closed to both or the limits of
the session are ahead: only `refresh` looks at the limit that it computes. -/
theorem renewals_agree_iff {rt : Runtime} {repo : RepositoryClass} {newSessionId denialId : Uuid}
    {draw : AccessDraw} {request : AccessRequest} {db : Database} {userId : Uuid}
    {session : AccessSession}
    (huser : db.resolveIdentityUser request.identity = .ok userId)
    (hsession : db.activeUserSession request.tenantId userId request.deviceId = some session)
    (hlive : draw.now < session.expiresAt)
    (hlocation : ∀ location distance, matchLocation rt.haversineMeters request.geo
      (db.assignedLocations request.tenantId userId draw.now) = .ok (location, distance) →
        session.locationId = some location.locationId) :
    SameOutcome ((createOrReuse rt repo newSessionId draw request).alone db)
        ((refresh rt repo denialId draw
          (request.refreshing userId session.accessSessionId)).alone db) ↔
      ∀ ev, AccessGates db rt repo draw userId request.tenantId request.deviceId request.geo ev →
        draw.now < session.startedAt + minutes ev.policy.sessionMaxDurationMinutes ∧
          draw.now < ev.schedule.authorizedUntil := by
  obtain ⟨hmem, hentry⟩ := activeUserSession_eq_some_iff.mp hsession
  obtain ⟨_, _, _, _, hstatus⟩ := activeEntry_mem_iff.mp hentry
  have hcreate : (createOrReuse rt repo newSessionId draw request).EvaluatesTo ⟨db, db⟩ _ _ :=
    createOrReuse_evaluates huser
  have hrefresh : (refresh rt repo denialId draw
      (request.refreshing userId session.accessSessionId)).EvaluatesTo ⟨db, db⟩ _ _ :=
    refresh_evaluates hsession hlive
  unfold SameOutcome alone
  simp only [← evaluate_eq_ok_iff]
  cases hev : db.evaluate rt repo draw userId request.tenantId request.deviceId request.geo with
  | error e =>
    rw [hev] at hcreate hrefresh
    obtain ⟨t, ht⟩ := hcreate
    obtain ⟨u, hu⟩ := hrefresh
    simp [ht, hu]
  | ok ev =>
    rw [hev] at hcreate hrefresh
    have hown := hlocation _ _ (evaluate_eq_ok_iff.mp hev).location
    have hcreated : (createOrReuse rt repo newSessionId draw request).exec ⟨db, db⟩ = _ := hcreate
    have hrefreshed : (refresh rt repo denialId draw
      (request.refreshing userId session.accessSessionId)).exec ⟨db, db⟩ = _ := hrefresh
    have hgrant : (grantAccess rt repo newSessionId draw request userId ev).exec ⟨db, db⟩ = _ :=
      grantAccess_exec hsession hlive hown
    have hrenew : (renewAccess rt draw request userId session ev).exec ⟨db, db⟩ = _ :=
      renewAccess_exec hsession hown
    rw [hcreated, hrefreshed]
    simp only [Except.ok.injEq, forall_eq', ← lt_expiry_iff]
    cases hfinish : finishRenewal rt draw request userId session ev ⟨db, db⟩ with
    | mk r t =>
    rw [hfinish] at hgrant hrenew
    by_cases hpassed : ev.expiry session.startedAt draw.now ≤ draw.now
    · -- The reused session is renewed with a limit that lies in the past.
      rw [if_pos hpassed] at hrenew
      obtain ⟨u, hu⟩ := exec_attempt_of_error (exec_deny _ _ _ _) hrenew
      rw [hu]
      cases r with
      | ok a => simp [exec_attempt_of_ok hgrant, not_lt.mpr hpassed]
      | error e =>
        obtain ⟨v, hv⟩ := exec_attempt_of_error exec_rollbackAndRaise hgrant
        simp [hv, finishRenewal_error hfinish, not_lt.mpr hpassed]
    · rw [if_neg hpassed] at hrenew
      cases r with
      | ok a =>
        rw [exec_attempt_of_ok hgrant, exec_attempt_of_ok hrenew]
        simp only [not_le.mp hpassed, iff_true]
        exact ⟨rfl, rfl, rfl, rfl, rfl, finishRenewal_same hmem hstatus hfinish⟩
      | error e =>
        obtain ⟨u, hu⟩ := exec_attempt_of_error (exec_deny _ _ _ _) hrenew
        obtain ⟨v, hv⟩ := exec_attempt_of_error exec_rollbackAndRaise hgrant
        rw [hu, hv]
        simp [not_le.mp hpassed]

def opened : Database :=
  ((createOrReuse workplaceRuntime .groupAware "session" (drawAt 0 "first")
    (requestAt 0)).alone workplace).2

def Database.lasting (db : Database) (maxMinutes : Int) (h : 0 < maxMinutes) : Database :=
  { db with
    tenantSecurityPolicies := Table.empty.insert
      { workplacePolicy with sessionMaxDurationMinutes := maxMinutes, sessionMaxDuration_pos := h } }

theorem opened_session : ∃ session, opened.activeUserSession "tenant" "user" "phone" = some session ∧
    session.accessSessionId = "session" ∧ seconds 43320 < session.expiresAt ∧
      session.startedAt = seconds 43200 ∧ session.locationId = some "office" := by
  have hsession : (opened.activeUserSession "tenant" "user" "phone").map (fun r =>
      (r.accessSessionId, r.expiresAt, r.startedAt, r.locationId)) =
        some ("session", seconds 44100, seconds 43200, some "office") := by
    decide +kernel
  obtain ⟨session, hfound, hcolumns⟩ := Option.map_eq_some_iff.mp hsession
  simp only [Prod.mk.injEq] at hcolumns
  obtain ⟨hid, hexpires, hstarted, hlocation⟩ := hcolumns
  exact ⟨session, hfound, hid, by rw [hexpires]; decide, hstarted, hlocation⟩

theorem one_minute_pos : (0 : Int) < 1 := by decide

/-- The position of a request two minutes later is the office, before and after an edit. -/
theorem lasting_location (maxMinutes : Int) (h : 0 < maxMinutes) (location : LocationCandidate)
    (distance : Rat) (hmatch : matchLocation workplaceRuntime.haversineMeters (requestAt 120).geo
      ((opened.lasting maxMinutes h).assignedLocations "tenant" "user" (drawAt 120 "second").now) =
        .ok (location, distance)) : location.locationId = "office" := by
  have hoffice : (matchLocation workplaceRuntime.haversineMeters (requestAt 120).geo
      (opened.assignedLocations "tenant" "user" (drawAt 120 "second").now)).map (·.1.locationId) =
        .ok "office" := by
    decide +kernel
  rw [show opened.assignedLocations "tenant" "user" (drawAt 120 "second").now =
    (opened.lasting maxMinutes h).assignedLocations "tenant" "user" (drawAt 120 "second").now from
      rfl, hmatch] at hoffice
  exact Except.ok.inj hoffice

/-- With the duration of a session cut to one minute, a session of two minutes is reused with a limit
that has passed, while its refresh is refused. -/
theorem old_session_is_reused : ¬ ∀ (rt : Runtime) (repo : RepositoryClass)
    (newSessionId denialId : Uuid) (draw : AccessDraw) (request : AccessRequest) (db : Database)
    (userId : Uuid) (session : AccessSession),
    db.resolveIdentityUser request.identity = .ok userId →
    db.activeUserSession request.tenantId userId request.deviceId = some session →
    draw.now < session.expiresAt →
    (∀ location distance, matchLocation rt.haversineMeters request.geo
      (db.assignedLocations request.tenantId userId draw.now) = .ok (location, distance) →
        session.locationId = some location.locationId) →
    SameOutcome ((createOrReuse rt repo newSessionId draw request).alone db)
      ((refresh rt repo denialId draw
        (request.refreshing userId session.accessSessionId)).alone db) := by
  intro h
  obtain ⟨session, hfound, hid, hlive, _, hoffice⟩ := opened_session
  have hcreated : ((createOrReuse workplaceRuntime .groupAware "other" (drawAt 120 "second")
      (requestAt 120)).alone (opened.lasting 1 one_minute_pos)).1.isOk = true := by
    decide +kernel
  have hrefreshed : ((refresh workplaceRuntime .groupAware "denial" (drawAt 120 "second")
      ((requestAt 120).refreshing "user" "session")).alone (opened.lasting 1 one_minute_pos)).1 =
        .error (securityError .authTokenExpired) := by
    decide +kernel
  have hsame := h workplaceRuntime .groupAware "other" "denial" (drawAt 120 "second")
    (requestAt 120) (opened.lasting 1 one_minute_pos) "user" session (by decide +kernel) hfound hlive
    (by
      intro location distance hmatch
      rw [hoffice, lasting_location 1 one_minute_pos location distance hmatch])
  rw [hid] at hsame
  unfold SameOutcome at hsame
  rw [hrefreshed] at hsame
  cases hrun : ((createOrReuse workplaceRuntime .groupAware "other" (drawAt 120 "second")
      (requestAt 120)).alone (opened.lasting 1 one_minute_pos)).1 with
  | error e =>
    rw [hrun] at hcreated
    cases hcreated
  | ok response =>
    rw [hrun] at hsame
    exact hsame

/-- Under the policy that it was opened with, both renewals of the session agree. -/
theorem young_session_is_renewed : ∃ session : AccessSession,
    session.accessSessionId = "session" ∧ SameOutcome ((createOrReuse workplaceRuntime .groupAware "other" (drawAt 120 "second")
        (requestAt 120)).alone (opened.lasting 480 workplace_duration_pos))
      ((refresh workplaceRuntime .groupAware "denial" (drawAt 120 "second")
        ((requestAt 120).refreshing "user" session.accessSessionId)).alone
          (opened.lasting 480 workplace_duration_pos)) := by
  obtain ⟨session, hfound, hid, hlive, hstarted, hoffice⟩ := opened_session
  have huser : (opened.lasting 480 workplace_duration_pos).resolveIdentityUser
      (requestAt 120).identity = .ok "user" := by
    decide +kernel
  have hactive : (opened.lasting 480 workplace_duration_pos).activeUserSession
      (requestAt 120).tenantId "user" (requestAt 120).deviceId = some session := hfound
  have hahead : (drawAt 120 "second").now < session.expiresAt := hlive
  have hlimits : ((opened.lasting 480 workplace_duration_pos).evaluate workplaceRuntime .groupAware
      (drawAt 120 "second") "user" (requestAt 120).tenantId (requestAt 120).deviceId
        (requestAt 120).geo).map (fun ev =>
          (ev.policy.sessionMaxDurationMinutes, ev.schedule.authorizedUntil)) =
            .ok (480, seconds 61200) := by
    decide +kernel
  refine ⟨session, hid, (renewals_agree_iff huser hactive hahead ?_).mpr ?_⟩
  · intro location distance hmatch
    rw [hoffice, lasting_location 480 workplace_duration_pos location distance hmatch]
  · intro ev hgates
    rw [evaluate_eq_ok_iff.mpr hgates] at hlimits
    obtain ⟨hmax, huntil⟩ := Prod.mk.inj (Except.ok.inj hlimits)
    rw [hmax, huntil, hstarted]
    decide

end VerigenceSecurity
