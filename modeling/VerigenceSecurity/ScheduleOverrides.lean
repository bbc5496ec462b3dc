import VerigenceSecurity.AccessService

/-! # Schedule overrides

An active override replaces the windows instead of extending them. What another override
row does to the expiry of a session follows from the end of the row and from whether an
override was active before.
-/

namespace VerigenceSecurity
set_option autoImplicit false

open Transaction Relational Program

/-! ## Evaluation with an override -/

/-- An override that is active is the whole decision, whatever the windows are. -/
theorem evaluateSchedule_override {zoneInfo : ZoneInfo} {zone : Zone} {timezoneIana : String}
    (hzone : zoneInfo timezoneIana = some zone) {now overrideUntil : Instant}
    (hactive : now < overrideUntil) (windows : List ScheduleWindow) :
    evaluateSchedule zoneInfo now timezoneIana windows (some overrideUntil) =
      .ok ⟨zone.toWall now, overrideUntil⟩ := by
  have hfilter : (some overrideUntil).filter (now < ·) = some overrideUntil := by
    simp [Option.filter, hactive]
  simp only [evaluateSchedule, hfilter, hzone]

/-- An evaluation that succeeds has found the zone. -/
theorem evaluateSchedule_ok {zoneInfo : ZoneInfo} {timezoneIana : String} {now : Instant}
    {windows : List ScheduleWindow} {overrideUntil : Option Instant} {decision : ScheduleDecision}
    (h : evaluateSchedule zoneInfo now timezoneIana windows overrideUntil = .ok decision) :
    ∃ zone, zoneInfo timezoneIana = some zone ∧ decision.localTime = zone.toWall now := by
  unfold evaluateSchedule at h
  split at h
  · rename_i zone _ hzone
    cases h
    exact ⟨zone, hzone, rfl⟩
  · cases h
  · split at h
    · cases h
    · split at h
      · cases h
      · rename_i zone hzone
        simp only at h
        split at h
        · cases h
        · cases h
          exact ⟨zone, hzone, rfl⟩

/-! ## Another override row -/

def AccessScheduleOverride.AppliesTo (row : AccessScheduleOverride) (tenantId userId locationId : Uuid)
    (now : Instant) : Prop :=
  row.tenantId = tenantId ∧ row.userId = userId ∧ row.locationId = locationId ∧
    row.status = .active ∧ row.validFrom ≤ now ∧ now < row.validTo

instance (row : AccessScheduleOverride) (tenantId userId locationId : Uuid) (now : Instant) :
    Decidable (row.AppliesTo tenantId userId locationId now) :=
  inferInstanceAs (Decidable (_ ∧ _))

def Database.addOverride (db : Database) (row : AccessScheduleOverride) : Database :=
  { db with accessScheduleOverrides := db.accessScheduleOverrides.insert row }

theorem max?_concat (xs : List Instant) (x : Instant) :
    (xs ++ [x]).max? = some (xs.max?.elim x (max · x)) := by
  cases xs with
  | nil => rfl
  | cons y ys => simp [List.max?, List.foldl_append]

section Rows

variable {db : Database} {tenantId userId locationId : Uuid} {now : Instant}
  {row : AccessScheduleOverride}

theorem activeOverrideUntil_eq : db.activeOverrideUntil tenantId userId locationId now =
    ((db.accessScheduleOverrides.rows.filter fun r =>
      decide (r.AppliesTo tenantId userId locationId now)).map (·.validTo)).max? := rfl

theorem activeOverrideUntil_later {overrideUntil : Instant}
    (h : db.activeOverrideUntil tenantId userId locationId now = some overrideUntil) :
    now < overrideUntil := by
  have hmem := List.max?_mem h
  simp only [List.mem_map, List.mem_filter, decide_eq_true_eq] at hmem
  obtain ⟨r, ⟨_, _, _, _, _, _, hlater⟩, rfl⟩ := hmem
  exact hlater

/-- The row takes part in the choice of the latest end if it applies. -/
theorem activeOverrideUntil_addOverride
    (hrow : (db.accessScheduleOverrides.insert? row).isSome = true) :
    (db.addOverride row).activeOverrideUntil tenantId userId locationId now =
      if row.AppliesTo tenantId userId locationId now then
        some ((db.activeOverrideUntil tenantId userId locationId now).elim row.validTo
          (max · row.validTo))
      else db.activeOverrideUntil tenantId userId locationId now := by
  obtain ⟨inserted, hinsert⟩ := Option.isSome_iff_exists.mp hrow
  have hrows : (db.addOverride row).accessScheduleOverrides.rows =
      db.accessScheduleOverrides.rows ++ [row] := Table.rows_insert_of_some hinsert
  rw [activeOverrideUntil_eq, activeOverrideUntil_eq, hrows, List.filter_append, List.map_append]
  split
  · rename_i happlies
    have hselect : [row].filter (fun r => decide (r.AppliesTo tenantId userId locationId now)) =
        [row] := by
      simp [happlies]
    rw [hselect, List.map_singleton, max?_concat]
  · rename_i hnone
    have hselect : [row].filter (fun r => decide (r.AppliesTo tenantId userId locationId now)) =
        [] := by
      simp [hnone]
    rw [hselect, List.map_nil, List.append_nil]

end Rows

/-! ## Two runs of `create_or_reuse` -/

section Runs

variable {rt : Runtime} {repo : RepositoryClass} {newSessionId : Uuid} {draw : AccessDraw}
  {request : AccessRequest}

def Database.withoutStaleSessions (db : Database) (tenantId userId deviceId : Uuid) (now : Instant) :
    Database :=
  ((expireStaleUserSessions tenantId userId deviceId now).exec ⟨db, db⟩).2.view

def sessionStart (db : Database) (tenantId userId deviceId : Uuid) (now : Instant) : Instant :=
  (((db.withoutStaleSessions tenantId userId deviceId now).activeUserSession
    tenantId userId deviceId).elim now (·.startedAt))

/-- The session is chosen without a look at the end that the schedule sets. -/
theorem openSession_ok {db : Database} {t : Session Database} {vpnStatus : VpnStatus}
    {context : UserContext} {userId : Uuid} {policy : TenantSecurityPolicy}
    {location : LocationCandidate} {authorizedUntil : Instant} {opened : Uuid × Instant}
    (h : (openSession repo newSessionId draw request vpnStatus context userId policy location
      authorizedUntil).exec ⟨db, db⟩ = (.ok opened, t)) :
    opened.2 = sessionExpiry policy
      (sessionStart db request.tenantId userId request.deviceId draw.now) authorizedUntil
        draw.now := by
  obtain ⟨_, r, hexpire, hrest⟩ := exec_bind_ok h
  obtain ⟨active, r', hactive, hopen⟩ := exec_bind_ok hrest
  obtain ⟨hread, rfl⟩ := exec_query_ok hactive
  have hstart : sessionStart db request.tenantId userId request.deviceId draw.now =
      active.elim draw.now (·.startedAt) := by
    unfold sessionStart Database.withoutStaleSessions
    rw [hexpire, ← Except.ok.inj hread]
  rw [hstart]
  cases active with
  | some session =>
    simp only at hopen
    split at hopen
    · cases hopen
    · obtain ⟨_, _, _, hpure⟩ := exec_bind_ok hopen
      cases hpure
      rfl
  | none =>
    obtain ⟨_, _, _, hpure⟩ := exec_bind_ok hopen
    cases hpure
    rfl

structure Located (rt : Runtime) (request : AccessRequest) (now : Instant) (db : Database)
    (userId : Uuid) (policy : TenantSecurityPolicy) (location : LocationCandidate)
    (schedule : ScheduleDecision) : Prop where
  user : db.resolveIdentityUser request.identity = .ok userId
  policy : db.tenantPolicy request.tenantId = .ok policy
  position : ∃ distance, matchLocation rt.haversineMeters request.geo
    (db.assignedLocations request.tenantId userId now) = .ok (location, distance)
  schedule : evaluateSchedule rt.zoneInfo now location.timezoneIana
    (db.scheduleWindows request.tenantId location.scheduleId)
    (db.activeOverrideUntil request.tenantId userId location.locationId now) = .ok schedule

theorem lockActiveDevice_ok {userId tenantId deviceId : Uuid} {s t : Session Database}
    (h : (lockActiveDevice userId tenantId deviceId).exec s = (.ok (), t)) : t = s := by
  obtain ⟨device, m, hlock, hcheck⟩ := exec_bind_ok h
  obtain ⟨o, ho, _, rfl⟩ := exec_execute_ok hlock
  cases ho
  exact (exec_done_ok hcheck).2

theorem scheduleAt_ok {userId tenantId : Uuid} {location : LocationCandidate} {now : Instant}
    {schedule : ScheduleDecision} {s t : Session Database}
    (h : (scheduleAt rt userId tenantId location now).exec s = (.ok schedule, t)) :
    evaluateSchedule rt.zoneInfo now location.timezoneIana
        (s.view.scheduleWindows tenantId location.scheduleId)
        (s.view.activeOverrideUntil tenantId userId location.locationId now) = .ok schedule ∧
      t = s := by
  obtain ⟨_, m, hactive, hrest⟩ := exec_bind_ok h
  obtain ⟨_, rfl⟩ := exec_query_ok hactive
  obtain ⟨windows, m', hread, hrest'⟩ := exec_bind_ok hrest
  obtain ⟨hwindows, rfl⟩ := exec_query_ok hread
  obtain ⟨overrideUntil, m'', hread', hdone⟩ := exec_bind_ok hrest'
  obtain ⟨hoverride, rfl⟩ := exec_query_ok hread'
  rw [Except.ok.inj hwindows, Except.ok.inj hoverride]
  exact exec_done_ok hdone

theorem authorize_ok {policy : TenantSecurityPolicy} {vpnStatus : VpnStatus}
    {userId tenantId : Uuid} {now : Instant} {rights : List String × List String}
    {s t : Session Database}
    (h : (authorize repo policy vpnStatus userId tenantId now).exec s = (.ok rights, t)) : t = s := by
  obtain ⟨_, m, hnetwork, hrest⟩ := exec_bind_ok h
  obtain ⟨_, rfl⟩ := exec_done_ok hnetwork
  obtain ⟨⟨roles, permissions⟩, m', hrights, hrest'⟩ := exec_bind_ok hrest
  obtain ⟨_, rfl⟩ := exec_query_ok hrights
  obtain ⟨_, m'', hvalid, hpure⟩ := exec_bind_ok hrest'
  obtain ⟨_, rfl⟩ := exec_done_ok hvalid
  cases hpure
  rfl

theorem createOrReuse_ok {db : Database} {response : AccessResponse}
    (h : ((createOrReuse rt repo newSessionId draw request).alone db).1 = .ok response) :
    ∃ userId policy location schedule,
      Located rt request draw.now db userId policy location schedule ∧
      response.locationId = location.locationId ∧
      response.expiresAt = sessionExpiry policy
        (sessionStart db request.tenantId userId request.deviceId draw.now)
        schedule.authorizedUntil draw.now := by
  have hrun : (createOrReuse rt repo newSessionId draw request).exec ⟨db, db⟩ = (.ok response,
      ((createOrReuse rt repo newSessionId draw request).exec ⟨db, db⟩).2) := Prod.ext h rfl
  generalize ((createOrReuse rt repo newSessionId draw request).exec ⟨db, db⟩).2 = t at hrun
  obtain ⟨vpnStatus, s, hrisk, hrest⟩ := exec_bind_ok hrun
  obtain ⟨_, rfl⟩ := exec_done_ok hrisk
  rw [exec_attempt] at hrest
  split at hrest
  rotate_left
  · cases hrest
  rename_i response' t' hbody
  cases hrest
  obtain ⟨_, s, htenant, hbody⟩ := exec_bind_ok hbody
  obtain ⟨_, rfl⟩ := exec_query_ok htenant
  obtain ⟨userId, s, hidentity, hbody⟩ := exec_bind_ok hbody
  obtain ⟨huser, rfl⟩ := exec_query_ok hidentity
  obtain ⟨context, s, hcontext, hbody⟩ := exec_bind_ok hbody
  obtain ⟨_, rfl⟩ := exec_query_ok hcontext
  obtain ⟨policy, s, hread, hbody⟩ := exec_bind_ok hbody
  obtain ⟨hpolicy, rfl⟩ := exec_query_ok hread
  obtain ⟨_, s, hdevice, hbody⟩ := exec_bind_ok hbody
  obtain rfl := lockActiveDevice_ok hdevice
  obtain ⟨⟨location, distance⟩, s, hlocated, hbody⟩ := exec_bind_ok hbody
  obtain ⟨_, s', hgeo, hmatched⟩ := exec_bind_ok hlocated
  obtain ⟨_, rfl⟩ := exec_done_ok hgeo
  obtain ⟨hposition, rfl⟩ := exec_query_ok hmatched
  obtain ⟨schedule, s, hscheduled, hbody⟩ := exec_bind_ok hbody
  obtain ⟨hschedule, rfl⟩ := scheduleAt_ok hscheduled
  obtain ⟨rights, s, hrights, hbody⟩ := exec_bind_ok hbody
  obtain rfl := authorize_ok hrights
  obtain ⟨opened, s, hopen, hbody⟩ := exec_bind_ok hbody
  refine ⟨userId, policy, location, schedule,
    ⟨huser, hpolicy, ⟨distance, hposition⟩, hschedule⟩, ?_⟩
  obtain ⟨_, m, _, hfinish⟩ := exec_bind_ok hbody
  obtain ⟨_, m', _, hfinish⟩ := exec_bind_ok hfinish
  obtain ⟨_, m'', _, hfinish⟩ := exec_bind_ok hfinish
  cases hfinish
  exact ⟨rfl, openSession_ok hopen⟩

end Runs

/-! ## What another row does -/

/-- The claim of another override row on the end of an evaluation. -/
theorem Located.addOverride {rt : Runtime} {request : AccessRequest} {now : Instant} {db : Database}
    {userId userId' : Uuid} {policy policy' : TenantSecurityPolicy}
    {location location' : LocationCandidate} {schedule schedule' : ScheduleDecision}
    {row : AccessScheduleOverride} (hrow : (db.accessScheduleOverrides.insert? row).isSome = true)
    (h : Located rt request now db userId policy location schedule)
    (h' : Located rt request now (db.addOverride row) userId' policy' location' schedule') :
    userId' = userId ∧ policy' = policy ∧ location' = location ∧
      schedule'.authorizedUntil =
        if row.AppliesTo request.tenantId userId location.locationId now then
          (db.activeOverrideUntil request.tenantId userId location.locationId now).elim row.validTo
            fun _ => max schedule.authorizedUntil row.validTo
        else schedule.authorizedUntil := by
  obtain rfl : userId' = userId := Except.ok.inj (h'.user.symm.trans h.user)
  obtain rfl : policy' = policy := Except.ok.inj (h'.policy.symm.trans h.policy)
  obtain ⟨distance, hposition⟩ := h.position
  obtain ⟨distance', hposition'⟩ := h'.position
  obtain rfl : location' = location :=
    congrArg Prod.fst (Except.ok.inj (hposition'.symm.trans hposition))
  refine ⟨rfl, rfl, rfl, ?_⟩
  obtain ⟨zone, hzone, _⟩ := evaluateSchedule_ok h.schedule
  have hschedule := h.schedule
  have hschedule' := h'.schedule
  rw [activeOverrideUntil_addOverride hrow] at hschedule'
  split at hschedule'
  · rename_i happlies
    have hactive : now < row.validTo := happlies.2.2.2.2.2
    cases hbefore : db.activeOverrideUntil request.tenantId userId' location'.locationId now with
    | none =>
      rw [hbefore, Option.elim_none, evaluateSchedule_override hzone hactive] at hschedule'
      cases hschedule'
      simp [happlies]
    | some before =>
      rw [hbefore, evaluateSchedule_override hzone (activeOverrideUntil_later hbefore)] at hschedule
      rw [hbefore, Option.elim_some, evaluateSchedule_override hzone (lt_max_of_lt_right hactive)]
        at hschedule'
      cases hschedule
      cases hschedule'
      simp [happlies]
  · rename_i hnone
    rw [show (db.addOverride row).scheduleWindows request.tenantId location'.scheduleId =
      db.scheduleWindows request.tenantId location'.scheduleId from rfl, hschedule] at hschedule'
    cases hschedule'
    simp [hnone]

theorem sessionExpiry_le_iff {policy : TenantSecurityPolicy} {startedAt until' until'' now : Instant} :
    sessionExpiry policy startedAt until' now ≤ sessionExpiry policy startedAt until'' now ↔
      sessionExpiry policy startedAt until' now ≤ until'' := by
  unfold sessionExpiry
  generalize min (now + minutes policy.accessTokenTtlMinutes)
    (now + seconds policy.geoRevalidationIntervalSeconds) = first
  generalize startedAt + minutes policy.sessionMaxDurationMinutes = second
  unfold Instant at *
  omega

/-- An active override is the whole decision, so another row makes a session end earlier exactly
when it is the first that applies and ends before the session would have ended. -/
theorem override_extends_iff :
    (∀ (zoneInfo : ZoneInfo) (now : Instant) (timezoneIana : String) (windows : List ScheduleWindow)
      (overrideUntil : Instant) (decision : ScheduleDecision), now < overrideUntil →
      evaluateSchedule zoneInfo now timezoneIana windows none = .ok decision →
      evaluateSchedule zoneInfo now timezoneIana windows (some overrideUntil) =
        .ok ⟨decision.localTime, overrideUntil⟩) ∧
    ∀ (rt : Runtime) (repo : RepositoryClass) (newSessionId : Uuid) (draw : AccessDraw)
      (request : AccessRequest) (db : Database) (row : AccessScheduleOverride)
      (response response' : AccessResponse),
      (db.accessScheduleOverrides.insert? row).isSome = true →
      ((createOrReuse rt repo newSessionId draw request).alone db).1 = .ok response →
      ((createOrReuse rt repo newSessionId draw request).alone (db.addOverride row)).1 =
        .ok response' →
      ∃ userId, db.resolveIdentityUser request.identity = .ok userId ∧
        (response.expiresAt ≤ response'.expiresAt ↔
          (db.activeOverrideUntil request.tenantId userId response.locationId draw.now).isSome = true ∨
          ¬ row.AppliesTo request.tenantId userId response.locationId draw.now ∨
          response.expiresAt ≤ row.validTo) := by
  constructor
  · intro zoneInfo now timezoneIana windows overrideUntil decision hactive h
    obtain ⟨zone, hzone, hlocal⟩ := evaluateSchedule_ok h
    rw [evaluateSchedule_override hzone hactive, hlocal]
  · intro rt repo newSessionId draw request db row response response' hrow h h'
    obtain ⟨userId, policy, location, schedule, hlocated, hlocation, hexpiry⟩ := createOrReuse_ok h
    obtain ⟨userId', policy', location', schedule', hlocated', _, hexpiry'⟩ := createOrReuse_ok h'
    obtain ⟨rfl, rfl, rfl, huntil⟩ := hlocated.addOverride hrow hlocated'
    refine ⟨userId', hlocated.user, ?_⟩
    have hstart : sessionStart (db.addOverride row) request.tenantId userId' request.deviceId
        draw.now = sessionStart db request.tenantId userId' request.deviceId draw.now := rfl
    rw [hstart] at hexpiry'
    rw [hlocation, hexpiry, hexpiry', sessionExpiry_le_iff, huntil]
    have hbound : sessionExpiry policy' (sessionStart db request.tenantId userId' request.deviceId
        draw.now) schedule.authorizedUntil draw.now ≤ schedule.authorizedUntil :=
      (min_le_right _ _).trans (min_le_right _ _)
    by_cases happlies : row.AppliesTo request.tenantId userId' location'.locationId draw.now
    · rw [if_pos happlies]
      cases db.activeOverrideUntil request.tenantId userId' location'.locationId draw.now with
      | none => simp [happlies]
      | some before => simp [hbound.trans (le_max_left _ row.validTo)]
    · rw [if_neg happlies]
      simp [happlies, hbound]

def shortOverride : AccessScheduleOverride :=
  ⟨"override", "tenant", "user", "office", 0, seconds 43260, .active⟩

/-- An override that ends a minute after noon cuts the session of a quarter of an hour. -/
theorem override_shortens_session :
    ¬ (∀ (zoneInfo : ZoneInfo) (now : Instant) (timezoneIana : String)
      (windows : List ScheduleWindow) (overrideUntil : Instant) (decision : ScheduleDecision),
      now < overrideUntil → evaluateSchedule zoneInfo now timezoneIana windows none = .ok decision →
      ∃ decision', evaluateSchedule zoneInfo now timezoneIana windows (some overrideUntil) =
        .ok decision' ∧ decision.authorizedUntil ≤ decision'.authorizedUntil) ∧
    ¬ ∀ (rt : Runtime) (repo : RepositoryClass) (newSessionId : Uuid) (draw : AccessDraw)
      (request : AccessRequest) (db : Database) (row : AccessScheduleOverride)
      (response response' : AccessResponse),
      ((createOrReuse rt repo newSessionId draw request).alone db).1 = .ok response →
      ((createOrReuse rt repo newSessionId draw request).alone (db.addOverride row)).1 =
        .ok response' → response.expiresAt ≤ response'.expiresAt := by
  constructor
  · intro h
    have hopen : evaluateSchedule workplaceRuntime.zoneInfo (seconds 43200) "UTC"
        [⟨4, seconds 28800, seconds 61200, false⟩] none = .ok ⟨seconds 43200, seconds 61200⟩ := by
      decide +kernel
    have hoverride : evaluateSchedule workplaceRuntime.zoneInfo (seconds 43200) "UTC"
        [⟨4, seconds 28800, seconds 61200, false⟩] (some (seconds 43260)) =
          .ok ⟨seconds 43200, seconds 43260⟩ := by
      decide +kernel
    obtain ⟨decision', hdecision', hle⟩ := h _ _ _ _ (seconds 43260) _ (by decide) hopen
    rw [hoverride] at hdecision'
    cases hdecision'
    exact absurd hle (by decide)
  · intro h
    have hplain : ((createOrReuse workplaceRuntime .groupAware "session" (drawAt 0 "evaluation")
        (requestAt 0)).alone workplace).1 = .ok ⟨"session", "token", seconds 44100, .user, "tenant",
          "phone", "office", ["platform.viewer"], ["security.site.read"]⟩ := by
      decide +kernel
    have hshort : ((createOrReuse workplaceRuntime .groupAware "session" (drawAt 0 "evaluation")
        (requestAt 0)).alone (workplace.addOverride shortOverride)).1 = .ok ⟨"session", "token",
          seconds 43260, .user, "tenant", "phone", "office", ["platform.viewer"],
            ["security.site.read"]⟩ := by
      decide +kernel
    exact absurd (h _ _ _ _ _ _ _ _ _ hplain hshort) (by decide)

theorem long_override_keeps_session : ∃ response' : AccessResponse,
    ((createOrReuse workplaceRuntime .groupAware "session" (drawAt 0 "evaluation")
      (requestAt 0)).alone (workplace.addOverride { shortOverride with validTo := seconds 61200 })).1 =
        .ok response' ∧ seconds 44100 ≤ response'.expiresAt := by
  have hplain : ((createOrReuse workplaceRuntime .groupAware "session" (drawAt 0 "evaluation")
      (requestAt 0)).alone workplace).1 = .ok ⟨"session", "token", seconds 44100, .user, "tenant",
        "phone", "office", ["platform.viewer"], ["security.site.read"]⟩ := by
    decide +kernel
  have hlong : ((createOrReuse workplaceRuntime .groupAware "session" (drawAt 0 "evaluation")
      (requestAt 0)).alone
        (workplace.addOverride { shortOverride with validTo := seconds 61200 })).1.isOk = true := by
    decide +kernel
  cases hrun : ((createOrReuse workplaceRuntime .groupAware "session" (drawAt 0 "evaluation")
      (requestAt 0)).alone
        (workplace.addOverride { shortOverride with validTo := seconds 61200 })).1 with
  | error e =>
    rw [hrun] at hlong
    cases hlong
  | ok response' =>
    obtain ⟨_, _, hle⟩ := override_extends_iff.2 _ _ _ _ _ _ _ _ _ (by decide +kernel) hplain hrun
    exact ⟨response', rfl, hle.mpr (Or.inr (Or.inr (by decide)))⟩

end VerigenceSecurity
