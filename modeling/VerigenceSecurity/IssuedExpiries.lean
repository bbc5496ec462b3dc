import VerigenceSecurity.RenewalAgreement
import VerigenceSecurity.ScheduleOverrides

/-! # The expiry of issued tokens

Runs of `create_or_reuse`, `refresh` and edits of the tenant policies, at any clock readings. Every
token that is issued ends within its four bounds, with the session row; whether it ends in the
future is not checked where a session is reused.
-/

namespace VerigenceSecurity
set_option autoImplicit false

open Transaction Program Relational

/-! ## Runs -/

/-- A step of a run. An edit may leave any policies. -/
inductive SessionStep
  | accessed (newSessionId : Uuid) (draw : AccessDraw) (request : AccessRequest)
  | refreshed (denialId : Uuid) (draw : AccessDraw) (request : RefreshRequest)
  | policiesEdited (policies : Rows TenantSecurityPolicy)

structure IssuedToken where
  draw : AccessDraw
  tenantId : Uuid
  geo : GeoSample
  accessSessionId : Uuid
  expiresAt : Instant

def SessionStep.run (rt : Runtime) (repo : RepositoryClass) (db : Database) :
    SessionStep → Option IssuedToken × Database
  | accessed newSessionId draw request =>
    let (result, after) := (createOrReuse rt repo newSessionId draw request).alone db
    (result.toOption.map fun a =>
      ⟨draw, a.tenantId, request.geo, a.accessSessionId, a.expiresAt⟩, after)
  | refreshed denialId draw request =>
    let (result, after) := (refresh rt repo denialId draw request).alone db
    (result.toOption.bind fun a => request.geo.map fun geo =>
      ⟨draw, a.tenantId, geo, a.accessSessionId, a.expiresAt⟩, after)
  | policiesEdited policies => (none, { db with tenantSecurityPolicies := policies })

structure Issue where
  step : SessionStep
  token : IssuedToken
  before : Database
  after : Database

def issues (rt : Runtime) (repo : RepositoryClass) : Database → List SessionStep → List Issue
  | _, [] => []
  | db, step :: steps =>
    let (issued, after) := step.run rt repo db
    (issued.toList.map fun token => ⟨step, token, db, after⟩) ++ issues rt repo after steps

/-! ## Bounds -/

/-- The token ends within the limits of the policy in force and of the schedule, and the row of its
session ends with it. -/
def Issue.Bounded (rt : Runtime) (repo : RepositoryClass) (i : Issue) : Prop :=
  ∃ (userId deviceId : Uuid) (ev : Evaluated) (session : AccessSession),
    AccessGates i.before rt repo i.token.draw userId i.token.tenantId deviceId i.token.geo ev ∧
      session ∈ i.after.accessSessions.rows ∧ session.accessSessionId = i.token.accessSessionId ∧
      session.principalId = userId ∧ session.deviceId.getD "None" = deviceId ∧
      session.expiresAt = i.token.expiresAt ∧
      i.token.expiresAt ≤ i.token.draw.now + minutes ev.policy.accessTokenTtlMinutes ∧
      i.token.expiresAt ≤ i.token.draw.now + seconds ev.policy.geoRevalidationIntervalSeconds ∧
      i.token.expiresAt ≤ session.startedAt + minutes ev.policy.sessionMaxDurationMinutes ∧
      i.token.expiresAt ≤ ev.schedule.authorizedUntil

def Issue.Live (i : Issue) : Prop := i.token.draw.now < i.token.expiresAt

/-- Where the step reuses a live session, the limits of that session are ahead. -/
def SessionStep.LimitsAhead (rt : Runtime) (repo : RepositoryClass) (db : Database) :
    SessionStep → Prop
  | accessed _ draw request => ∀ userId session ev,
    db.resolveIdentityUser request.identity = .ok userId →
    db.activeUserSession request.tenantId userId request.deviceId = some session →
    draw.now < session.expiresAt →
    AccessGates db rt repo draw userId request.tenantId request.deviceId request.geo ev →
      draw.now < session.startedAt + minutes ev.policy.sessionMaxDurationMinutes ∧
        draw.now < ev.schedule.authorizedUntil
  | refreshed _ _ _ | policiesEdited _ => True

theorem expiry_bounds (ev : Evaluated) (startedAt now : Instant) :
    ev.expiry startedAt now ≤ now + minutes ev.policy.accessTokenTtlMinutes ∧
      ev.expiry startedAt now ≤ now + seconds ev.policy.geoRevalidationIntervalSeconds ∧
      ev.expiry startedAt now ≤ startedAt + minutes ev.policy.sessionMaxDurationMinutes ∧
      ev.expiry startedAt now ≤ ev.schedule.authorizedUntil := by
  unfold Evaluated.expiry sessionExpiry Instant at *
  omega

/-! ## The session that a request opens -/

section Access

variable {rt : Runtime} {repo : RepositoryClass} {newSessionId : Uuid} {draw : AccessDraw}
  {request : AccessRequest} {userId : Uuid} {ev : Evaluated} {s t : Session Database}

def SessionStored (session : AccessSession) (userId deviceId : Uuid) (opened : Uuid × Instant)
    (db : Database) : Prop :=
  session ∈ db.accessSessions.rows ∧ session.accessSessionId = opened.1 ∧
    session.principalId = userId ∧ session.deviceId.getD "None" = deviceId ∧
      session.expiresAt = opened.2

theorem mem_insertAccessSession {db : Database} {session : AccessSession}
    (hfree : (db.accessSessions.insert? session).isSome = true) :
    session ∈ (Write.apply db (.insertAccessSession session)).accessSessions.rows := by
  obtain ⟨u, hu⟩ := Option.isSome_iff_exists.mp hfree
  simp only [Write.apply, Table.rows_insert_of_some hu]
  exact List.mem_append_right _ List.mem_cons_self

theorem renewed_stored {db : Database} {session : AccessSession} {sourceIp : String}
    {vpnStatus : VpnStatus} {version : Nat} {expiresAt now : Instant}
    (hmem : session ∈ db.accessSessions.rows) (hstatus : session.status = .active)
    (hcheck : session.startedAt < expiresAt) :
    ∃ row, SessionStored row session.principalId (session.deviceId.getD "None")
      (session.accessSessionId, expiresAt) (Write.apply db (.updateReusedUserSession
        session.accessSessionId sourceIp vpnStatus version expiresAt now)) ∧
      row.startedAt = session.startedAt := by
  refine ⟨session.renewed sourceIp vpnStatus version expiresAt now, ⟨?_, ?_⟩, ?_⟩
  · simp only [Write.apply]
    exact Table.mem_update_set hmem (decide_eq_true ⟨rfl, hstatus⟩)
  · simp [AccessSession.renewed, hcheck]
  · simp [AccessSession.renewed, hcheck]

/-- A live session is renewed; a new one has its expiry checked by the table. -/
theorem openSession_stores {authorizedUntil : Instant} {vpnStatus : VpnStatus}
    {context : UserContext} {policy : TenantSecurityPolicy} {location : LocationCandidate}
    {opened : Uuid × Instant}
    (h : (openSession repo newSessionId draw request vpnStatus context userId policy location
      authorizedUntil).exec s = (.ok opened, t)) :
    ∃ session, SessionStored session userId request.deviceId opened t.view ∧
      opened.2 = sessionExpiry policy session.startedAt authorizedUntil draw.now ∧
      ((∃ old, s.view.activeUserSession request.tenantId userId request.deviceId = some old ∧
          draw.now < old.expiresAt ∧ session.startedAt = old.startedAt) ∨
        (draw.now < opened.2 ∧
          ∀ old, s.view.activeUserSession request.tenantId userId request.deviceId = some old →
            ¬ draw.now < old.expiresAt)) := by
  obtain ⟨_, m, hexpire, hrest⟩ := exec_bind_ok h
  rw [expireStaleUserSessions_exec] at hexpire
  cases hexpire
  obtain ⟨active, m, hactive, hopen⟩ := exec_bind_ok hrest
  obtain ⟨hread, rfl⟩ := exec_query_ok hactive
  cases active with
  | some session =>
    have hfound := Except.ok.inj hread
    obtain ⟨hmem, hentry⟩ := activeUserSession_eq_some_iff.mp hfound
    obtain ⟨_, huser, hdevice, _, hstatus⟩ := activeEntry_mem_iff.mp hentry
    simp only at hopen
    split at hopen
    · cases hopen
    · obtain ⟨_, _, hupdate, hpure⟩ := exec_bind_ok hopen
      cases hpure
      rw [updateReusedUserSession_exec _ _ _ _ _ hmem hstatus] at hupdate
      split at hupdate
      · rename_i hcheck
        cases hupdate
        obtain ⟨row, hrow, hstarted⟩ := renewed_stored hmem hstatus hcheck
        rw [huser, hdevice] at hrow
        obtain ⟨hold, hlive⟩ := activeUserSession_of_expiry hfound
        exact ⟨row, hrow, by rw [hstarted], Or.inl ⟨session, hold, hlive, hstarted⟩⟩
      · cases hupdate
  | none =>
    have hnone := Except.ok.inj hread
    obtain ⟨_, _, hinsert, hpure⟩ := exec_bind_ok hopen
    cases hpure
    obtain ⟨o, ho, _, rfl⟩ := exec_execute_ok hinsert
    split at ho
    · rename_i hlifetime
      obtain ⟨hfree, _, hedits⟩ := insertRow_ok ho
      refine ⟨NewSession.row repo _ hlifetime, ⟨?_, rfl, rfl, rfl, rfl⟩, rfl, Or.inr ⟨hlifetime, ?_⟩⟩
      · rw [hedits]
        exact mem_insertAccessSession hfree
      · intro old hold hlive
        rw [activeUserSession_expiry hold hlive] at hnone
        cases hnone
    · cases ho

/-- The evidence of a grant leaves the sessions alone. -/
theorem SessionStored.finish {session : AccessSession} {deviceId : Uuid} {opened : Uuid × Instant}
    {g : Grant} {geo : GeoSample} {sourceIp correlationId : String} {response : AccessResponse}
    (h : SessionStored session userId deviceId opened s.view)
    (hfinish : (g.finish rt draw geo sourceIp correlationId).exec s = (.ok response, t)) :
    SessionStored session userId deviceId opened t.committed := by
  obtain ⟨_, _, _, _, _, _, hview, hcommitted⟩ := Grant.finish_exec_ok_iff.mp hfinish
  rw [hcommitted, hview]
  exact h

theorem accessed_issue {db after : Database} {token : IssuedToken}
    (h : (SessionStep.accessed newSessionId draw request).run rt repo db = (some token, after)) :
    let i : Issue := ⟨.accessed newSessionId draw request, token, db, after⟩
    i.Bounded rt repo ∧ (i.Live ↔ i.step.LimitsAhead rt repo db) := by
  simp only [SessionStep.run, Prod.mk.injEq, Option.map_eq_some_iff] at h
  obtain ⟨⟨response, hresponse, rfl⟩, rfl⟩ := h
  unfold alone at hresponse ⊢
  cases hrun : (createOrReuse rt repo newSessionId draw request).exec ⟨db, db⟩ with
  | mk r t =>
  rw [hrun] at hresponse
  cases r with
  | error e => cases hresponse
  | ok answer =>
  cases hresponse
  obtain ⟨userId, _, _, _, hlocated, _, _⟩ := createOrReuse_ok (congrArg Prod.fst hrun)
  have hevaluates : (createOrReuse rt repo newSessionId draw request).EvaluatesTo ⟨db, db⟩ _ _ :=
    createOrReuse_evaluates hlocated.user
  cases hev : db.evaluate rt repo draw userId request.tenantId request.deviceId request.geo with
  | error e =>
    rw [hev] at hevaluates
    obtain ⟨u, hu⟩ := hevaluates
    cases hu.symm.trans hrun
  | ok ev =>
    rw [hev] at hevaluates
    have hgrant := exec_rollbackAndRaise_ok_iff.mp (hevaluates.symm.trans hrun)
    obtain ⟨opened, m, hopen, hfinish⟩ := exec_bind_ok hgrant
    obtain ⟨session, hstored, hexpiry, hreused⟩ := openSession_stores hopen
    obtain ⟨hmem, hid, huser, hdevice, hexpires⟩ := hstored.finish hfinish
    obtain ⟨_, _, _, _, _, rfl, _, _⟩ := Grant.finish_exec_ok_iff.mp hfinish
    obtain ⟨httl, hgeo, hmax, huntil⟩ := expiry_bounds ev session.startedAt draw.now
    have hend : opened.2 = ev.expiry session.startedAt draw.now := hexpiry
    rw [← hend] at httl hgeo hmax huntil
    refine ⟨⟨userId, request.deviceId, ev, session, evaluate_eq_ok_iff.mp hev, hmem, hid, huser,
      hdevice, hexpires, httl, hgeo, hmax, huntil⟩, ?_⟩
    have hlive : draw.now < opened.2 ↔
        draw.now < session.startedAt + minutes ev.policy.sessionMaxDurationMinutes ∧
          draw.now < ev.schedule.authorizedUntil := by
      rw [hend]
      exact lt_expiry_iff
    constructor
    · intro hahead userId' old ev' huser' hold hfresh hgates
      obtain rfl : userId' = userId := Except.ok.inj (huser'.symm.trans hlocated.user)
      obtain rfl : ev' = ev :=
        Except.ok.inj ((evaluate_eq_ok_iff.mpr hgates).symm.trans hev)
      rcases hreused with ⟨old', hold', _, hstarted⟩ | ⟨_, hnone⟩
      · obtain rfl : old = old' := Option.some.inj (hold.symm.trans hold')
        rw [← hstarted]
        exact hlive.mp hahead
      · exact absurd hfresh (hnone old hold)
    · intro hlimits
      rcases hreused with ⟨old, hold, hfresh, hstarted⟩ | ⟨hchecked, _⟩
      · refine hlive.mpr ?_
        rw [hstarted]
        exact hlimits userId old ev hlocated.user hold hfresh (evaluate_eq_ok_iff.mp hev)
      · exact hchecked

end Access

/-! ## The session that a refresh renews -/

section Refresh

variable {rt : Runtime} {repo : RepositoryClass} {denialId : Uuid} {draw : AccessDraw}
  {request : RefreshRequest} {s t : Session Database}

theorem observeSession_ok {context : UserContext} {policy : TenantSecurityPolicy}
    {device : Option Uuid}
    (h : (observeSession repo request draw.now).exec s = (.ok (context, policy, device), t)) :
    s.view.tenantStatus request.tenantId = .ok .active ∧
      s.view.userContext repo request.userId request.tenantId draw.now = .ok context ∧
      s.view.tenantPolicy request.tenantId = .ok policy ∧ t = s := by
  obtain ⟨_, m₁, htenant, h₁⟩ := exec_bind_ok h
  obtain ⟨hactive, rfl⟩ := exec_computes_ok (requireActiveTenant_computes _) htenant
  obtain ⟨context', m₂, huser, h₂⟩ := exec_bind_ok h₁
  obtain ⟨hcontext, rfl⟩ := exec_computes_ok (getUserContext_computes _ _ _) huser
  obtain ⟨policy', m₃, hread, h₃⟩ := exec_bind_ok h₂
  obtain ⟨hpolicy, rfl⟩ := exec_computes_ok (getTenantPolicy_computes _) hread
  obtain ⟨observed, m₄, hquery, hrest⟩ := exec_bind_ok h₃
  obtain ⟨_, rfl⟩ := exec_query_ok hquery
  cases observed with
  | none => cases hrest
  | some session =>
    simp only at hrest
    split at hrest
    · cases hrest
    · cases hrest
      exact ⟨activeTenant_eq_ok_iff.mp hactive, hcontext, hpolicy, rfl⟩

theorem lockSession_ok {device : Option Uuid} {session : AccessSession}
    (h : (lockSession request device draw.now).exec s = (.ok session, t)) :
    checkDevice (s.view.deviceRow? request.tenantId request.userId (device.getD "None")) = .ok () ∧
      s.view.userSession request.accessSessionId request.tenantId request.userId = some session ∧
      session.status = .active ∧ session.deviceId = device ∧ t = s := by
  obtain ⟨_, m₁, hlock, h₁⟩ := exec_bind_ok h
  obtain ⟨hdevice, rfl⟩ := exec_computes_ok (lockActiveDevice_computes _ _ _) hlock
  obtain ⟨locked, m₂, hquery, hrest⟩ := exec_bind_ok h₁
  obtain ⟨o, ho, hvalue, rfl⟩ := exec_execute_ok hquery
  cases ho
  cases locked with
  | none => cases hrest
  | some found =>
    simp only at hrest
    split at hrest
    · cases hrest
    · split at hrest
      · cases hrest
      · split at hrest
        · cases hrest
        · rename_i hstatus hown _
          cases hrest
          exact ⟨hdevice, hvalue, not_not.mp hstatus, not_not.mp hown, rfl⟩

theorem userSession_mem {db : Database} {accessSessionId tenantId userId : Uuid}
    {session : AccessSession} (h : db.userSession accessSessionId tenantId userId = some session) :
    session ∈ db.accessSessions.rows ∧ session.accessSessionId = accessSessionId ∧
      session.tenantId = tenantId ∧ session.principalId = userId ∧ session.actorType = .user := by
  have hcolumns := List.find?_some h
  exact ⟨List.mem_of_find?_eq_some h, of_decide_eq_true hcolumns⟩

theorem refreshed_stored {db : Database} {session : AccessSession}
    {accessSessionId tenantId userId locationId : Uuid} {sourceIp : String} {vpnStatus : VpnStatus}
    {version : Nat} {expiresAt now : Instant} (hmem : session ∈ db.accessSessions.rows)
    (hid : session.accessSessionId = accessSessionId) (htenant : session.tenantId = tenantId)
    (huser : session.principalId = userId) (hactor : session.actorType = .user)
    (hstatus : session.status = .active) (hcheck : session.startedAt < expiresAt) :
    ∃ row, SessionStored row userId (session.deviceId.getD "None") (accessSessionId, expiresAt)
      (Write.apply db (.updateActiveSessionContext accessSessionId tenantId userId locationId sourceIp
        vpnStatus version expiresAt now)) ∧ row.startedAt = session.startedAt := by
  refine ⟨{ session.renewed sourceIp vpnStatus version expiresAt now with
    locationId := some locationId }, ⟨?_, ?_⟩, ?_⟩
  · simp only [Write.apply]
    exact Table.mem_update_set hmem (decide_eq_true ⟨hid, htenant, huser, hactor, hstatus⟩)
  · simp [AccessSession.renewed, hcheck, hid, huser]
  · simp [AccessSession.renewed, hcheck]

theorem renewLocked_ok {vpnStatus : VpnStatus} {context : UserContext} {policy : TenantSecurityPolicy}
    {session : AccessSession} {location : LocationCandidate} {authorizedUntil expiresAt : Instant}
    (hfound : s.view.userSession request.accessSessionId request.tenantId request.userId = some session)
    (hstatus : session.status = .active)
    (h : (renewLocked request draw vpnStatus context policy session location authorizedUntil).exec s =
      (.ok expiresAt, t)) :
    expiresAt = sessionExpiry policy session.startedAt authorizedUntil draw.now ∧
      draw.now < expiresAt ∧ ∃ row, SessionStored row request.userId
        (session.deviceId.getD "None") (request.accessSessionId, expiresAt) t.view ∧
          row.startedAt = session.startedAt := by
  obtain ⟨hmem, hid, htenant, huser, hactor⟩ := userSession_mem hfound
  have hfilter : (s.view.userSession request.accessSessionId request.tenantId request.userId).filter
      (fun r => decide (r.status = .active)) = some session := by
    simp [hfound, Option.filter, hstatus]
  unfold renewLocked at h
  simp only at h
  split at h
  · cases h
  · rename_i hahead
    obtain ⟨updated, m, hupdate, hrest⟩ := exec_bind_ok h
    rw [updateActiveSessionContext, renewSession_exec _ _ _ _ hfilter] at hupdate
    split at hupdate
    · rename_i hcheck
      cases hupdate
      cases hrest
      exact ⟨rfl, not_le.mp hahead, refreshed_stored hmem hid htenant huser hactor hstatus hcheck⟩
    · cases hupdate

theorem requireRefreshGeo_ok {geo : Option GeoSample} {sample : GeoSample}
    (h : requireRefreshGeo geo = .ok sample) : geo = some sample := by
  cases geo with
  | none => cases h
  | some found =>
    cases h
    rfl

/-- A refresh that succeeds has found every gate open and has renewed its session until later. -/
theorem refresh_ok {db : Database} {answer : RefreshedUserSession}
    (h : (refresh rt repo denialId draw request).exec ⟨db, db⟩ = (.ok answer, t)) :
    ∃ geo ev session, request.geo = some geo ∧
      AccessGates db rt repo draw request.userId request.tenantId (session.deviceId.getD "None") geo ev ∧
      answer.tenantId = request.tenantId ∧ draw.now < answer.expiresAt ∧
      answer.expiresAt = ev.expiry session.startedAt draw.now ∧
      SessionStored session request.userId (session.deviceId.getD "None")
        (answer.accessSessionId, answer.expiresAt) t.committed := by
  obtain ⟨geo, m₁, hgeo, h₁⟩ := exec_bind_ok h
  obtain ⟨hsample, rfl⟩ := exec_done_ok (exec_ok_of_attempt (exec_deny _ _ _ _) hgeo)
  obtain ⟨vpnStatus, m₂, hnetwork, h₂⟩ := exec_bind_ok h₁
  obtain ⟨hrisk, rfl⟩ := exec_done_ok (exec_ok_of_attempt (exec_deny _ _ _ _) hnetwork)
  obtain ⟨⟨context, policy, device⟩, m₃, hobserve, h₃⟩ := exec_bind_ok h₂
  obtain ⟨htenant, hcontext, hpolicy, rfl⟩ :=
    observeSession_ok (exec_ok_of_attempt (exec_deny _ _ _ _) hobserve)
  obtain ⟨⟨session, location, distance⟩, m₄, hlocate, h₄⟩ := exec_bind_ok h₃
  obtain ⟨locked, m₅, hlock, h₅⟩ := exec_bind_ok (exec_ok_of_attempt (exec_deny _ _ _ _) hlocate)
  obtain ⟨hdevice, hfound, hstatus, hown, rfl⟩ := lockSession_ok hlock
  obtain ⟨⟨location', distance'⟩, m₆, hmatch, h₆⟩ := exec_bind_ok h₅
  obtain ⟨hposition, rfl⟩ := exec_computes_ok (matchPosition_computes _ _ _ _ _) hmatch
  cases h₆
  obtain ⟨schedule, m₇, hscheduled, h₇⟩ := exec_bind_ok h₄
  obtain ⟨hschedule, rfl⟩ := exec_computes_ok (scheduleAt_computes _ _ _ _)
    (exec_ok_of_attempt (exec_deny _ _ _ _) hscheduled)
  obtain ⟨⟨roles, permissions⟩, m₈, hauthorize, h₈⟩ :=
    exec_bind_ok (exec_ok_of_attempt (exec_deny _ _ _ _) h₇)
  obtain ⟨hrights, rfl⟩ := exec_computes_ok (authorize_computes _ _ _ _ _) hauthorize
  obtain ⟨expiresAt, m₉, hrenew, h₉⟩ := exec_bind_ok h₈
  obtain ⟨hexpiry, hlive, row, hstored, hstarted⟩ := renewLocked_ok hfound hstatus hrenew
  obtain ⟨response, m₁₀, hfinish, hpure⟩ := exec_bind_ok h₉
  cases hpure
  have hsome : request.geo = some geo := requireRefreshGeo_ok hsample
  have hev : db.evaluate rt repo draw request.userId request.tenantId (device.getD "None") geo =
      .ok ⟨vpnStatus, context, policy, location, distance, schedule, roles, permissions⟩ := by
    unfold Database.evaluate
    rw [hrisk, activeTenant_eq_ok_iff.mpr htenant, hcontext, hpolicy, hdevice]
    simp only [Bind.bind, Except.bind]
    rw [hposition]
    simp only
    rw [hschedule]
    simp only
    rw [hrights]
    rfl
  rw [← hown] at hev
  obtain ⟨hmem, hid, huser, hdevice', hexpires⟩ := hstored.finish hfinish
  obtain ⟨_, _, _, _, _, rfl, _, _⟩ := Grant.finish_exec_ok_iff.mp hfinish
  rw [← hdevice'] at hev
  refine ⟨geo, _, row, hsome, evaluate_eq_ok_iff.mp hev, rfl, hlive, ?_, hmem, hid, huser, rfl,
    hexpires⟩
  rw [hstarted]
  exact hexpiry

theorem refreshed_issue {db after : Database} {token : IssuedToken}
    (h : (SessionStep.refreshed denialId draw request).run rt repo db = (some token, after)) :
    let i : Issue := ⟨.refreshed denialId draw request, token, db, after⟩
    i.Bounded rt repo ∧ i.Live := by
  simp only [SessionStep.run, Prod.mk.injEq, Option.bind_eq_some_iff, Option.map_eq_some_iff] at h
  obtain ⟨⟨response, hresponse, geo, hgeo, rfl⟩, rfl⟩ := h
  unfold alone at hresponse ⊢
  cases hrun : (refresh rt repo denialId draw request).exec ⟨db, db⟩ with
  | mk r t =>
  rw [hrun] at hresponse
  cases r with
  | error e => cases hresponse
  | ok answer =>
  cases hresponse
  obtain ⟨sample, ev, session, hsample, hgates, htenant, hlive, hexpiry, hmem, hid, huser, hdevice,
    hexpires⟩ := refresh_ok hrun
  obtain rfl : sample = geo := Option.some.inj (hsample.symm.trans hgeo)
  obtain ⟨httl, hinterval, hmax, huntil⟩ := expiry_bounds ev session.startedAt draw.now
  rw [← hexpiry] at httl hinterval hmax huntil
  rw [← htenant] at hgates
  exact ⟨⟨request.userId, _, ev, session, hgates, hmem, hid, huser, hdevice, hexpires, httl, hinterval,
    hmax, huntil⟩, hlive⟩

end Refresh

/-! ## Every issue of a run -/

theorem mem_issues {rt : Runtime} {repo : RepositoryClass} {db : Database} {steps : List SessionStep}
    {i : Issue} (h : i ∈ issues rt repo db steps) :
    i.step.run rt repo i.before = (some i.token, i.after) := by
  induction steps generalizing db with
  | nil => cases h
  | cons step steps ih =>
    unfold issues at h
    rcases List.mem_append.mp h with hhere | hlater
    · obtain ⟨token, htoken, rfl⟩ := List.mem_map.mp hhere
      exact Prod.ext (Option.mem_toList.mp htoken) rfl
    · exact ih hlater

/-- Every token of a run ends within its bounds and with its session row. It ends in the future
exactly where the limits of a session that is reused are ahead: the other paths check it. -/
theorem issued_expiry_live_iff (rt : Runtime) (repo : RepositoryClass) (db : Database)
    (steps : List SessionStep) :
    ∀ i ∈ issues rt repo db steps,
      i.Bounded rt repo ∧ (i.Live ↔ i.step.LimitsAhead rt repo i.before) := by
  intro i hi
  have hrun := mem_issues hi
  obtain ⟨step, token, before, after⟩ := i
  cases step with
  | accessed newSessionId draw request => exact accessed_issue hrun
  | refreshed denialId draw request =>
    obtain ⟨hbounded, hlive⟩ := refreshed_issue hrun
    exact ⟨hbounded, fun _ => trivial, fun _ => hlive⟩
  | policiesEdited policies => cases hrun

instance (i : Issue) : Decidable i.Live := inferInstanceAs (Decidable (_ < _))

/-- A session is opened at noon, the duration of sessions is cut to one minute, and the device asks
again two minutes later. -/
def shortenedRun : List SessionStep := [
  .accessed "session" (drawAt 0 "first") (requestAt 0),
  .policiesEdited (opened.lasting 1 one_minute_pos).tenantSecurityPolicies,
  .accessed "other" (drawAt 120 "second") (requestAt 120)]

/-- The second token of the run has ended a minute before it is issued. -/
theorem token_issued_expired : ¬ ∀ (rt : Runtime) (repo : RepositoryClass) (db : Database)
    (steps : List SessionStep), ∀ i ∈ issues rt repo db steps, i.Live ∧ i.Bounded rt repo := by
  intro h
  have hall : (issues workplaceRuntime .groupAware workplace shortenedRun).all
      (fun i => decide i.Live) = true :=
    List.all_eq_true.mpr fun i hi => decide_eq_true (h _ _ _ _ i hi).1
  have hexpired : (issues workplaceRuntime .groupAware workplace shortenedRun).all
      (fun i => decide i.Live) = false := by
    decide +kernel
  rw [hall] at hexpired
  cases hexpired

/-- The first token of the run is live, so the limits were ahead. -/
theorem first_token_is_live : ∃ i ∈ issues workplaceRuntime .groupAware workplace shortenedRun,
    i.Live ∧ i.Bounded workplaceRuntime .groupAware ∧
      i.step.LimitsAhead workplaceRuntime .groupAware i.before := by
  have hlive : (issues workplaceRuntime .groupAware workplace shortenedRun).any
      (fun i => decide i.Live) = true := by
    decide +kernel
  obtain ⟨i, hi, hlive⟩ := List.any_eq_true.mp hlive
  obtain ⟨hbounded, hiff⟩ := issued_expiry_live_iff workplaceRuntime .groupAware workplace
    shortenedRun i hi
  exact ⟨i, hi, of_decide_eq_true hlive, hbounded, hiff.mp (of_decide_eq_true hlive)⟩

end VerigenceSecurity
