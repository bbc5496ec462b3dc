import VerigenceSecurity.IssuedExpiries
import VerigenceSecurity.SessionDeadlocks
import VerigenceSecurity.Library.Answers
import VerigenceSecurity.Library.Lease

/-! # Refreshes that other calls overlap

A refresh locks its session before it looks at it, and the lock is kept until the commit. Whatever
access calls, revocations and status changes overlap it, the session that it renews is still the
active one that it has looked at.
-/

namespace VerigenceSecurity
set_option autoImplicit false

open Transaction Program Relational

/-! ## Locks of sessions -/

def Write.changedSessions : Write → List Uuid
  | .expireStaleUserSessions ids .. => ids
  | .updateReusedUserSession accessSessionId .. => [accessSessionId]
  | .updateActiveSessionContext accessSessionId .. => [accessSessionId]
  | .revokeActiveUserSession accessSessionId .. => [accessSessionId]
  | .revokeUserSessions ids .. => ids
  | _ => []

def Write.addedEntries : Write → List (Relation × IndexEntry)
  | .insertAccessSession row => (Row.entries row).map (Relation.accessSessions, ·)
  | .insertEvaluation row => (Row.entries row).map (Relation.accessContextEvaluations, ·)
  | _ => []

/-- A session is changed under its row lock, and what is added is locked. -/
def sessionProtocol : Protocol Database Write RowLock where
  needs w := (w.changedSessions.map fun id => rowLock .accessSessions [id] .noKeyUpdate) ++
    w.addedEntries.map fun e => ⟨e.1, e.2, .update⟩
  claim _ _ := True

theorem sessionProtocol_stable : sessionProtocol.Stable RowLock.conflicts :=
  fun _ _ _ _ _ => trivial

def sessionLease (row : AccessSession) : Lease Database RowLock where
  lock := rowLock .accessSessions [row.accessSessionId] .update
  holds db := row ∈ db.accessSessions.rows

theorem mem_accessSessions_apply {w : Write} {db : Database} {row : AccessSession}
    (hid : row.accessSessionId ∉ w.changedSessions) (h : row ∈ db.accessSessions.rows) :
    row ∈ (w.apply db).accessSessions.rows := by
  have hne : ∀ {id : Uuid}, row.accessSessionId ∉ [id] → ¬ row.accessSessionId = id :=
    fun hnot heq => hnot (List.mem_singleton.mpr heq)
  cases w with
  | insertAccessSession r => exact Table.mem_insert_of_mem h
  | expireStaleUserSessions ids tenantId userId deviceId now =>
    simp only [Write.apply]
    exact Table.mem_update_of_not h (decide_eq_false fun hw => hid hw.1)
  | revokeUserSessions ids userId now =>
    simp only [Write.apply]
    exact Table.mem_update_of_not h (decide_eq_false fun hw => hid hw.1)
  | updateReusedUserSession accessSessionId sourceIp vpnStatus authorizationVersion expiresAt now =>
    simp only [Write.apply]
    exact Table.mem_update_of_not h (decide_eq_false fun hw => hne hid hw.1)
  | updateActiveSessionContext accessSessionId tenantId userId locationId sourceIp vpnStatus
      authorizationVersion expiresAt now =>
    simp only [Write.apply]
    exact Table.mem_update_of_not h (decide_eq_false fun hw => hne hid hw.1)
  | revokeActiveUserSession accessSessionId tenantId userId =>
    simp only [Write.apply]
    exact Table.mem_update_of_not h (decide_eq_false fun hw => hne hid hw.1)
  | _ => exact h

theorem sessionLease_respects (row : AccessSession) (w : Write) :
    (sessionLease row).Respects RowLock.conflicts sessionProtocol.needs w := by
  by_cases hid : row.accessSessionId ∈ w.changedSessions
  · right
    refine ⟨_, List.mem_append_left _ (List.mem_map_of_mem hid), ?_⟩
    simp [sessionLease, rowLock, RowLock.conflicts, LockMode.conflicts]
  · exact Or.inl fun db h => mem_accessSessions_apply hid h

section Follows

variable {α : Type}

theorem follows_unchanged {p : Tx α} (h : p.Writes fun w => sessionProtocol.needs w = []) :
    p.Follows sessionProtocol :=
  h.follows fun _ hw => ⟨hw, fun _ => trivial⟩

theorem follows_reads {p : Tx α} (h : p.Within fun _ => False) : p.Follows sessionProtocol :=
  follows_unchanged (h.weaken fun _ hf => hf.elim).writes

theorem follows_sessionUpdates {name : StatementName} {find : Database → List Uuid}
    {write : List Uuid → Write} (h : ∀ ids, (write ids).changedSessions = ids)
    (hadded : ∀ ids, (write ids).addedEntries = []) :
    (updateWhere name .accessSessions .noKeyUpdate find write).Follows sessionProtocol := by
  refine follows_bind follows_query fun found => follows_execute ?_
  intro pending db o ho w hw
  cases ho
  rw [List.mem_singleton.mp hw]
  refine ⟨fun l hl => ?_, trivial⟩
  simpa [sessionProtocol, h, hadded] using hl

theorem follows_renewSession {name : StatementName} {find : Database → Option AccessSession}
    {expiresAt : Instant} {write : Write}
    (h : ∀ db row, find db = some row → write.changedSessions = [row.accessSessionId])
    (hadded : write.addedEntries = []) : (renewSession name find expiresAt write).Follows sessionProtocol := by
  apply follows_execute
  intro pending db o ho w hw
  cases hfind : find (replayAll pending db) with
  | none =>
    simp only [hfind] at ho
    cases ho
    cases hw
  | some row =>
    simp only [hfind] at ho
    split at ho
    · cases ho
      rw [List.mem_singleton.mp hw]
      refine ⟨fun l hl => ?_, trivial⟩
      simpa [sessionProtocol, h _ row hfind, hadded] using hl
    · cases ho

/-- The locks of an insertion cover the entries that it adds. -/
theorem needs_of_insertRow {ρ : Type} [Row ρ] {T : Rows ρ} {row : ρ} {references : List Reference}
    {write : Write} {o : Outcome Write RowLock Unit} (ho : insertRow T row references write = .ok o)
    (h : write.changedSessions = [])
    (hadded : ∀ e ∈ write.addedEntries, e.1 = Row.relation ρ ∧ e.2 ∈ Row.entries row) :
    ∀ l ∈ sessionProtocol.needs write, l ∈ o.locks := by
  intro l hl
  simp only [sessionProtocol, h, List.map_nil, List.nil_append, List.mem_map] at hl
  obtain ⟨e, he, rfl⟩ := hl
  obtain ⟨hrelation, hentry⟩ := hadded e he
  rw [hrelation]
  exact insertRow_locks ho hentry

theorem follows_insertion {ρ : Type} [Row ρ] {name : StatementName} {T : Database → Rows ρ} {row : ρ}
    {references : Database → List Reference} {write : Write} (h : write.changedSessions = [])
    (hadded : ∀ e ∈ write.addedEntries, e.1 = Row.relation ρ ∧ e.2 ∈ Row.entries row) :
    (execute name (fun db => insertRow (T db) row (references db) write) : Tx Unit).Follows
      sessionProtocol := by
  apply follows_execute
  intro pending db o ho w hw
  rw [(insertRow_ok ho).2.2, List.mem_singleton] at hw
  subst hw
  exact ⟨needs_of_insertRow ho h hadded, trivial⟩

theorem added_of_map {relation : Relation} {entries : List IndexEntry} :
    ∀ e ∈ entries.map (relation, ·), e.1 = relation ∧ e.2 ∈ entries := by
  intro e he
  obtain ⟨k, hk, rfl⟩ := List.mem_map.mp he
  exact ⟨rfl, hk⟩

theorem follows_recordEvaluation (row : AccessContextEvaluation) :
    (recordEvaluation row).Follows sessionProtocol := by
  apply follows_execute
  intro pending db o ho w hw
  have hinsert := (fits_ok ho).2
  rw [(insertRow_ok hinsert).2.2, List.mem_singleton] at hw
  subst hw
  exact ⟨needs_of_insertRow hinsert rfl added_of_map, trivial⟩

theorem follows_lockActiveDevice (userId tenantId deviceId : Uuid) :
    (lockActiveDevice userId tenantId deviceId).Follows sessionProtocol := by
  refine follows_bind (follows_execute ?_) fun _ => follows_unchanged (within_done _).writes
  intro pending db o ho w hw
  cases ho
  cases hw

theorem follows_openSession (repo : RepositoryClass) (newSessionId : Uuid) (draw : AccessDraw)
    (request : AccessRequest) (vpnStatus : VpnStatus) (context : UserContext) (userId : Uuid)
    (policy : TenantSecurityPolicy) (location : LocationCandidate) (authorizedUntil : Instant) :
    (openSession repo newSessionId draw request vpnStatus context userId policy location
      authorizedUntil).Follows sessionProtocol := by
  unfold openSession
  refine follows_bind (follows_bind (follows_sessionUpdates (fun _ => rfl) fun _ => rfl) fun _ => follows_pure _)
    fun _ => ?_
  refine follows_bind follows_query ?_
  rintro (_ | session)
  · refine follows_bind (follows_execute ?_) fun _ => follows_pure _
    intro pending db o ho w hw
    split at ho
    · rw [(insertRow_ok ho).2.2, List.mem_singleton] at hw
      subst hw
      exact ⟨needs_of_insertRow ho rfl added_of_map, trivial⟩
    · cases ho
  · dsimp only
    split
    · exact follows_raise _
    · refine follows_bind (follows_bind (follows_renewSession ?_ rfl) fun _ => follows_pure _)
        fun _ => follows_pure _
      intro db row hrow
      have hmatch := List.find?_some hrow
      rw [(of_decide_eq_true hmatch).1]
      rfl

theorem follows_finish (g : Grant) (rt : Runtime) (draw : AccessDraw) (geo : GeoSample)
    (sourceIp correlationId : String) :
    (g.finish rt draw geo sourceIp correlationId).Follows sessionProtocol := by
  refine follows_bind (follows_recordEvaluation _) fun _ => ?_
  refine follows_bind (follows_unchanged (within_done _).writes) fun _ => ?_
  exact follows_bind follows_commitNow fun _ => follows_pure _

theorem follows_createOrReuse (rt : Runtime) (repo : RepositoryClass) (newSessionId : Uuid)
    (draw : AccessDraw) (request : AccessRequest) :
    (createOrReuse rt repo newSessionId draw request).Follows sessionProtocol := by
  unfold createOrReuse
  refine follows_bind (follows_unchanged (within_done _).writes) fun vpnStatus => ?_
  refine follows_attempt ?_ fun _ => trivial
  refine follows_bind follows_query fun _ => ?_
  refine follows_bind follows_query fun userId => ?_
  refine follows_bind follows_query fun context => ?_
  refine follows_bind follows_query fun policy => ?_
  refine follows_bind (follows_lockActiveDevice _ _ _) fun _ => ?_
  refine follows_bind (follows_reads (matchPosition_reads ..).1) ?_
  rintro ⟨location, distance⟩
  refine follows_bind (follows_reads (scheduleAt_reads ..).1) fun schedule => ?_
  refine follows_bind (follows_reads (authorize_reads ..).1) ?_
  rintro ⟨roles, permissions⟩
  refine follows_bind (follows_openSession ..) ?_
  rintro ⟨accessSessionId, expiry⟩
  exact follows_finish ..

theorem follows_deny (denialId : Uuid) (now : Instant) (request : RefreshRequest)
    (evidence : RefreshEvidence) (error : Failure) :
    (deny denialId now request evidence error : Tx α).Follows sessionProtocol := by
  refine follows_bind follows_rollbackNow fun _ => ?_
  cases error with
  | security e =>
    dsimp only
    split
    · refine follows_bind (follows_attempt ?_ fun _ => follows_rollbackNow) fun _ => follows_raise _
      exact follows_bind (follows_recordEvaluation _) fun _ => follows_commitNow
    · exact follows_raise _
  | _ => exact follows_raise _

theorem follows_userSessionForUpdate (accessSessionId tenantId userId : Uuid) :
    (userSessionForUpdate accessSessionId tenantId userId).Follows sessionProtocol := by
  apply follows_execute
  intro pending db o ho w hw
  cases ho
  cases hw

theorem follows_lockSession (request : RefreshRequest) (device : Option Uuid) (now : Instant) :
    (lockSession request device now).Follows sessionProtocol := by
  unfold lockSession
  refine follows_bind (follows_lockActiveDevice _ _ _) fun _ => ?_
  refine follows_bind (follows_userSessionForUpdate _ _ _) ?_
  rintro (_ | session)
  · exact follows_raise _
  · dsimp only
    split
    · exact follows_raise _
    · split
      · exact follows_raise _
      · split
        · exact follows_raise _
        · exact follows_pure _

theorem follows_refresh (rt : Runtime) (repo : RepositoryClass) (denialId : Uuid) (draw : AccessDraw)
    (request : RefreshRequest) : (refresh rt repo denialId draw request).Follows sessionProtocol := by
  have hdone : ∀ {β : Type} (r : Except Failure β), (done r : Tx β).Follows sessionProtocol :=
    fun r => follows_unchanged (within_done r).writes
  unfold refresh
  refine follows_bind (follows_attempt (hdone _) (follows_deny _ _ _ _)) fun geo => ?_
  refine follows_bind (follows_attempt (hdone _) (follows_deny _ _ _ _)) fun vpnStatus => ?_
  refine follows_bind (follows_attempt (follows_reads (observeSession_reads ..).1)
    (follows_deny _ _ _ _)) ?_
  rintro ⟨context, policy, device⟩
  refine follows_bind (follows_attempt ?_ (follows_deny _ _ _ _)) ?_
  · refine follows_bind (follows_lockSession _ _ _) fun session => ?_
    exact follows_bind (follows_reads (matchPosition_reads ..).1) fun _ => follows_pure _
  rintro ⟨session, location, distance⟩
  refine follows_bind (follows_attempt (follows_reads (scheduleAt_reads ..).1) (follows_deny _ _ _ _))
    fun schedule => ?_
  refine follows_attempt ?_ (follows_deny _ _ _ _)
  refine follows_bind (follows_reads (authorize_reads ..).1) ?_
  rintro ⟨roles, permissions⟩
  refine follows_bind ?_ fun expiry => follows_bind (follows_finish ..) fun _ => follows_pure _
  unfold renewLocked
  dsimp only
  split
  · exact follows_raise _
  · refine follows_bind (follows_renewSession ?_ rfl) fun updated => ?_
    · intro db row hrow
      obtain ⟨hfound, _⟩ := Option.filter_eq_some_iff.mp hrow
      have hmatch := List.find?_some hfound
      rw [(of_decide_eq_true hmatch).1]
      rfl
    · split
      · exact follows_raise _
      · exact follows_pure _

theorem follows_revoke (accessSessionId tenantId userId : Uuid) :
    (revoke accessSessionId tenantId userId).Follows sessionProtocol := by
  refine follows_attempt ?_ fun _ => trivial
  refine follows_bind (follows_userSessionForUpdate _ _ _) fun session => ?_
  split
  · exact follows_bind follows_rollbackNow fun _ => follows_pure _
  · refine follows_bind (follows_execute ?_) fun revoked => ?_
    · intro pending db o ho w hw
      cases hfound : ((replayAll pending db).userSession accessSessionId tenantId userId).filter fun r =>
          decide (r.status = .active) with
      | none =>
        rw [hfound] at ho
        cases ho
        cases hw
      | some row =>
        rw [hfound] at ho
        cases ho
        rw [List.mem_singleton.mp hw]
        refine ⟨fun l hl => ?_, trivial⟩
        obtain ⟨hrow, _⟩ := Option.filter_eq_some_iff.mp hfound
        have hmatch := List.find?_some hrow
        have hid := (of_decide_eq_true hmatch).1
        simpa [sessionProtocol, Write.changedSessions, Write.addedEntries, hid] using hl
    · split
      · exact follows_bind follows_rollbackNow fun _ => follows_pure _
      · exact follows_bind follows_commitNow fun _ => follows_pure _

theorem follows_followStatus (c : AdminCall) (row : UserLifecycleRow) (target : UserStatus)
    (reason : Option String) : (followStatus c row target reason).Follows sessionProtocol := by
  unfold followStatus
  split
  · exact follows_bind (follows_sessionUpdates (fun _ => rfl) fun _ => rfl) fun _ => follows_pure _
  · split
    · refine follows_bind (follows_bind follows_query fun _ => follows_execute ?_) fun _ => follows_pure _
      intro pending db o ho w hw
      cases ho
      rw [List.mem_singleton.mp hw]
      exact ⟨fun l hl => absurd hl List.not_mem_nil, trivial⟩
    · exact follows_pure _

theorem follows_changeUserStatus (clerk : ClerkAnswers) (c : AdminCall) (row : UserLifecycleRow)
    (target : UserStatus) (reason : Option String) :
    (changeUserStatus clerk c row target reason).Follows sessionProtocol := by
  refine follows_bind (follows_attempt ?_ fun _ => trivial) fun _ => ?_
  · refine follows_bind (follows_execute ?_) fun _ => ?_
    · intro pending db o ho w hw
      cases ho
      rw [List.mem_singleton.mp hw]
      exact ⟨fun l hl => absurd hl List.not_mem_nil, trivial⟩
    refine follows_bind (follows_followStatus ..) fun _ => ?_
    exact follows_bind (follows_insertion rfl fun _ he => absurd he List.not_mem_nil) fun _ => follows_commitNow
  · refine follows_bind ?_ fun _ => follows_query
    unfold banDeactivated
    split
    · split
      · exact follows_query
      · exact follows_pure _
    · exact follows_pure _

theorem follows_setUserStatus (upper : String → String) (clerk : ClerkAnswers) (c : AdminCall)
    (userId : Uuid) (newStatus : String) (reason : Option String) :
    (setUserStatus upper clerk c userId newStatus reason).Follows sessionProtocol := by
  unfold setUserStatus
  split
  · exact follows_raise _
  · refine follows_bind follows_query ?_
    rintro (_ | row)
    · exact follows_raise _
    · dsimp only
      split
      · split
        · exact follows_raise _
        · split
          · exact follows_raise _
          · exact follows_bind follows_query fun _ => follows_changeUserStatus ..
      · split
        · exact follows_raise _
        · split
          · exact follows_query
          · exact follows_changeUserStatus ..

end Follows

/-! ## What a refresh finds at its commit -/

def LocksCurrent (g : TxProgress) (db : Database) : Prop := ∀ row, (sessionLease row).Current g db

structure Renewable (request : RefreshRequest) (now : Instant) (session : AccessSession) : Prop where
  id : session.accessSessionId = request.accessSessionId
  tenant : session.tenantId = request.tenantId
  user : session.principalId = request.userId
  actor : session.actorType = .user
  active : session.status = .active
  live : now < session.expiresAt

def renewal (request : RefreshRequest) (draw : AccessDraw) (vpnStatus : VpnStatus)
    (authorizationVersion : Nat) (locationId : Uuid) (expiry : Instant) : Write :=
  .updateActiveSessionContext request.accessSessionId request.tenantId request.userId locationId
    request.sourceIp vpnStatus authorizationVersion expiry draw.now

/-- The answer tells of a renewal, followed by an evaluation record, of a session that is still there
as it was found. -/
def CommitsRenewal (request : RefreshRequest) (draw : AccessDraw) (response : RefreshedUserSession)
    (g : TxProgress) (db : Database) : Prop :=
  ∃ session vpnStatus version evaluation, Renewable request draw.now session ∧
    session ∈ db.accessSessions.rows ∧ session.startedAt < response.expiresAt ∧
      response.accessSessionId = request.accessSessionId ∧
        g.pending = [renewal request draw vpnStatus version response.locationId response.expiresAt,
          .insertEvaluation evaluation]

structure HoldsSession (request : RefreshRequest) (now : Instant) (session : AccessSession)
    (g : TxProgress) : Prop where
  renewable : Renewable request now session
  found : (sessionLease session).Found g

section Answers

variable {α β : Type} {request : RefreshRequest} {draw : AccessDraw} {session : AccessSession}
  {g : TxProgress}

theorem HoldsSession.ran {db : Database} {now : Instant} (h : HoldsSession request now session g)
    (hdb : LocksCurrent g db) (label : StatementName) (o : Outcome Write RowLock β) :
    HoldsSession request now session (g.ran label db o) :=
  ⟨h.renewable, h.found.ran (hdb session) label o⟩

theorem pending_reads {db : Database} {label : StatementName} {o : Outcome Write RowLock Unit}
    (hpending : g.pending = []) (ho : ∀ w ∈ o.edits, False) : (g.ran label db o).pending = [] := by
  simp only [Progress.ran, hpending, List.eq_nil_iff_forall_not_mem.mpr ho, List.append_nil]

/-- A part that only reads, before anything is locked. -/
theorem yields_prelude {rely : TxProgress → Database → Prop} {p : Tx α}
    {post : α → TxProgress → Prop} (hp : p.Within fun _ => False) (hg : g.pending = [])
    (hpost : ∀ a g', g'.pending = [] → post a g') : p.Yields rely post g :=
  yields_within (fun g => g.pending = []) hp (fun _ _ _ _ h _ ho => pending_reads h ho) hg hpost

/-- A part that only reads, while the session is locked. -/
theorem yields_locked {p : Tx α} {post : α → TxProgress → Prop} {now : Instant}
    (hp : p.Within fun _ => False) (h : HoldsSession request now session g) (hg : g.pending = [])
    (hpost : ∀ a g', HoldsSession request now session g' → g'.pending = [] → post a g') :
    p.Yields LocksCurrent post g := by
  refine yields_within (fun g => HoldsSession request now session g ∧ g.pending = []) hp ?_ ⟨h, hg⟩ ?_
  · exact fun g db label o hg hdb ho => ⟨hg.1.ran hdb label o, pending_reads hg.2 ho⟩
  · exact fun a g' hg' => hpost a g' hg'.1 hg'.2

theorem lockActiveDevice_reads (userId tenantId deviceId : Uuid) :
    (lockActiveDevice userId tenantId deviceId).Within fun _ => False := by
  refine within_bind (within_execute ?_) fun _ => within_done _
  intro db o ho w hw
  cases ho
  cases hw

theorem lockSession_yields {device : Option Uuid} {post : AccessSession → TxProgress → Prop}
    (hpending : g.pending = []) (hpost : ∀ session g', HoldsSession request draw.now session g' →
      g'.pending = [] → post session g') :
    (lockSession request device draw.now).Yields LocksCurrent post g := by
  unfold lockSession
  apply yields_bind
  refine yields_prelude (lockActiveDevice_reads _ _ _) hpending fun _ g₁ hpending₁ => ?_
  apply yields_bind
  apply yields_execute
  intro db o _ ho
  rw [hpending₁, replayAll_nil] at ho
  cases ho
  dsimp only
  cases hfound : db.userSession request.accessSessionId request.tenantId request.userId with
  | none => exact yields_raise _
  | some session =>
    obtain ⟨hmem, hid, htenant, huser, hactor⟩ := userSession_mem hfound
    dsimp only
    split
    · exact yields_raise _
    rename_i hactive
    split
    · exact yields_raise _
    split
    · exact yields_raise _
    rename_i hlive
    apply yields_pure
    refine hpost session _ ⟨⟨hid, htenant, huser, hactor, not_not.mp hactive, not_le.mp hlive⟩, ?_⟩ ?_
    · refine Lease.found_ran ?_ hmem
      simp [sessionLease]
    · simp [Progress.ran, hpending₁]

theorem renewLocked_yields {vpnStatus : VpnStatus} {context : UserContext}
    {policy : TenantSecurityPolicy} {location : LocationCandidate} {authorizedUntil : Instant}
    {post : Instant → TxProgress → Prop} (h : HoldsSession request draw.now session g)
    (hpending : g.pending = [])
    (hpost : ∀ expiry g', HoldsSession request draw.now session g' → session.startedAt < expiry →
      g'.pending = [renewal request draw vpnStatus context.authorizationVersion location.locationId
        expiry] → post expiry g') :
    (renewLocked request draw vpnStatus context policy session location authorizedUntil).Yields
      LocksCurrent post g := by
  unfold renewLocked
  dsimp only
  split
  · exact yields_raise _
  apply yields_bind
  apply yields_execute
  intro db o hdb ho
  rw [hpending, replayAll_nil] at ho
  have hmem : session ∈ db.accessSessions.rows := h.found.holds (hdb session)
  have hsession : db.userSession request.accessSessionId request.tenantId request.userId =
      some session := by
    refine Table.find?_of_mem hmem (decide_eq_true ⟨h.renewable.id, h.renewable.tenant,
      h.renewable.user, h.renewable.actor⟩) (.primary, [request.accessSessionId]) ?_
    intro other hother
    simp [Row.entries, (of_decide_eq_true hother).1]
  simp only [hsession, Option.filter, h.renewable.active, decide_true, if_true] at ho
  split at ho
  · rename_i hstarted
    have hnext := h.ran hdb .updateActiveSessionContext o
    cases ho
    refine yields_pure (hpost _ _ hnext hstarted ?_)
    simp [Progress.ran, hpending, renewal]
  · cases ho

theorem finish_answers {grant : Grant} {rt : Runtime} {geo : GeoSample} {sourceIp correlationId : String}
    {vpnStatus : VpnStatus} {version : Nat} (h : HoldsSession request draw.now session g)
    (hsession : grant.accessSessionId = request.accessSessionId)
    (hstarted : session.startedAt < grant.expiry) (hpending : g.pending =
      [renewal request draw vpnStatus version grant.location.locationId grant.expiry]) :
    (grant.finish rt draw geo sourceIp correlationId).Answers LocksCurrent
      (fun response => CommitsRenewal request draw (response.refreshed request.userId)) g := by
  apply answers_bind
  apply yields_execute
  intro db o hdb ho
  have hnext := h.ran hdb .recordEvaluation o
  have hedits := (insertRow_ok (fits_ok ho).2).2.2
  refine answers_bind (yields_done fun token _ => answers_commit fun db' hdb' => ?_)
  refine ⟨session, vpnStatus, version, grant.evaluation draw geo sourceIp correlationId, h.renewable,
    hnext.found.holds (hdb' session), hstarted, hsession, ?_⟩
  simp only [Progress.ran, hpending, hedits, List.singleton_append]
  rfl

theorem deny_neverAnswers (denialId : Uuid) (now : Instant) (request : RefreshRequest)
    (evidence : RefreshEvidence) (error : Failure) :
    (deny denialId now request evidence error : Tx α).NeverAnswers := by
  refine neverAnswers_bind fun _ => ?_
  cases error with
  | security e =>
    dsimp only
    split
    · exact neverAnswers_bind fun _ => neverAnswers_raise _
    · exact neverAnswers_raise _
  | _ => exact neverAnswers_raise _

theorem refresh_answers (rt : Runtime) (repo : RepositoryClass) (denialId : Uuid) (draw : AccessDraw)
    (request : RefreshRequest) : (refresh rt repo denialId draw request).Answers LocksCurrent
      (CommitsRenewal request draw) Progress.start := by
  unfold refresh
  refine answers_attempt_bind (yields_done fun geo _ => ?_) (deny_neverAnswers _ _ _ _)
  refine answers_attempt_bind (yields_done fun vpnStatus _ => ?_) (deny_neverAnswers _ _ _ _)
  refine answers_attempt_bind (yields_prelude (observeSession_reads ..).1 rfl ?_)
    (deny_neverAnswers _ _ _ _)
  rintro ⟨context, policy, device⟩ g₁ hpending₁
  refine answers_attempt_bind (yields_bind (lockSession_yields hpending₁ ?_)) (deny_neverAnswers _ _ _ _)
  intro session g₂ h₂ hpending₂
  refine yields_bind (yields_locked (matchPosition_reads ..).1 h₂ hpending₂ ?_)
  rintro ⟨location, distance⟩ g₃ h₃ hpending₃
  apply yields_pure
  refine answers_attempt_bind (yields_locked (scheduleAt_reads ..).1 h₃ hpending₃ ?_)
    (deny_neverAnswers _ _ _ _)
  intro schedule g₄ h₄ hpending₄
  refine answers_attempt ?_ (deny_neverAnswers _ _ _ _)
  refine answers_bind (yields_locked (authorize_reads ..).1 h₄ hpending₄ ?_)
  rintro ⟨roles, permissions⟩ g₅ h₅ hpending₅
  refine answers_bind (renewLocked_yields h₅ hpending₅ ?_)
  intro expiry g₆ h₆ hstarted hpending₆
  exact Answers.map _ (finish_answers h₆ rfl hstarted hpending₆) fun _ _ _ h => h

end Answers

/-! ## Overlapping calls -/

inductive SessionAction
  | createOrReuse (rt : Runtime) (repo : RepositoryClass) (newSessionId : Uuid) (draw : AccessDraw)
      (request : AccessRequest)
  | refresh (rt : Runtime) (repo : RepositoryClass) (denialId : Uuid) (draw : AccessDraw)
      (request : RefreshRequest)
  | revoke (accessSessionId tenantId userId : Uuid)
  | setUserStatus (upper : String → String) (clerk : ClerkAnswers) (c : AdminCall) (userId : Uuid)
      (newStatus : String) (reason : Option String)

inductive SessionAnswer
  | opened (response : AccessResponse)
  | refreshed (response : RefreshedUserSession)
  | other

def SessionAnswer.isRefreshed : SessionAnswer → Bool
  | .refreshed _ => true
  | _ => false

def SessionAction.program : SessionAction → Tx SessionAnswer
  | createOrReuse rt repo newSessionId draw request =>
    VerigenceSecurity.createOrReuse rt repo newSessionId draw request >>= fun r => pure (.opened r)
  | refresh rt repo denialId draw request =>
    VerigenceSecurity.refresh rt repo denialId draw request >>= fun r => pure (.refreshed r)
  | revoke accessSessionId tenantId userId =>
    VerigenceSecurity.revoke accessSessionId tenantId userId >>= fun _ => pure .other
  | setUserStatus upper clerk c userId newStatus reason =>
    VerigenceSecurity.setUserStatus upper clerk c userId newStatus reason >>= fun _ => pure .other

def sessionActions (actions : List SessionAction) (db : Database) : TxState SessionAnswer :=
  State.initial db (actions.map SessionAction.program)

theorem SessionAction.follows (action : SessionAction) : action.program.Follows sessionProtocol := by
  cases action with
  | createOrReuse => exact follows_bind (follows_createOrReuse ..) fun _ => follows_pure _
  | refresh => exact follows_bind (follows_refresh ..) fun _ => follows_pure _
  | revoke => exact follows_bind (follows_revoke ..) fun _ => follows_pure _
  | setUserStatus => exact follows_bind (follows_setUserStatus ..) fun _ => follows_pure _

structure SessionsGuarded (s : TxState SessionAnswer) : Prop where
  locking : s.Protected sessionProtocol RowLock.conflicts
  sessions : ∀ row (j : Nat)
    (c : Call Database Write RowLock StatementName Failure SessionAnswer),
      s.calls[j]? = some c → c.finished = false → (sessionLease row).Current c.progress s.committed

theorem SessionsGuarded.step {s t : TxState SessionAnswer} {i : Nat}
    (h : SessionsGuarded s) (hstep : s.step RowLock.conflicts i = some t) : SessionsGuarded t where
  locking := h.locking.step RowLock.conflicts_comm sessionProtocol_stable hstep
  sessions row := Lease.current_step (sessionLease_respects row) h.locking (h.sessions row) hstep

theorem sessionsGuarded_initial (actions : List SessionAction) (db : Database) :
    SessionsGuarded (sessionActions actions db) := by
  refine ⟨State.protected_initial ?_, fun row => Lease.current_initial (sessionLease row) db _⟩
  intro p hp
  obtain ⟨action, _, rfl⟩ := List.mem_map.mp hp
  exact action.follows

/-- The commit of a refresh that answers: it renews a session that is active at that moment, as the
answer says, and leaves the other sessions alone. -/
structure RefreshedAtCommit (request : RefreshRequest) (now : Instant) (response : RefreshedUserSession)
    (before after : Database) : Prop where
  session : response.accessSessionId = request.accessSessionId
  found : ∃ row ∈ before.accessSessions.rows, Renewable request now row
  renewed : ∃ row ∈ after.accessSessions.rows, row.accessSessionId = request.accessSessionId ∧
    row.tenantId = request.tenantId ∧ row.principalId = request.userId ∧ row.status = .active ∧
      row.expiresAt = response.expiresAt ∧ row.locationId = some response.locationId
  others : ∀ row, row.accessSessionId ≠ request.accessSessionId →
    (row ∈ after.accessSessions.rows ↔ row ∈ before.accessSessions.rows)

theorem CommitsRenewal.refreshed {request : RefreshRequest} {draw : AccessDraw}
    {response : RefreshedUserSession} {g : TxProgress} {db : Database}
    (h : CommitsRenewal request draw response g db) :
    RefreshedAtCommit request draw.now response db (replayAll g.pending db) := by
  obtain ⟨session, vpnStatus, version, evaluation, hrenewable, hmem, hstarted, hsession, hpending⟩ := h
  rw [hpending, replayAll_cons, replayAll_cons, replayAll_nil]
  refine ⟨hsession, ⟨session, hmem, hrenewable⟩, ⟨{ session.renewed request.sourceIp vpnStatus version
    response.expiresAt draw.now with locationId := some response.locationId }, ?_, ?_⟩, ?_⟩
  · simp only [replay_eq, Write.apply, renewal]
    exact Table.mem_update_set hmem (decide_eq_true ⟨hrenewable.id, hrenewable.tenant, hrenewable.user,
      hrenewable.actor, hrenewable.active⟩)
  · simp [AccessSession.renewed, hstarted, hrenewable.id, hrenewable.tenant, hrenewable.user,
      hrenewable.active]
  · intro row hid
    constructor
    · intro hrow
      simp only [replay_eq, Write.apply, renewal] at hrow
      obtain ⟨o, ho, ⟨hw, rfl⟩ | ⟨_, rfl⟩⟩ := Table.mem_update.mp hrow
      · refine absurd ?_ hid
        have hsame := (of_decide_eq_true hw).1
        simp only [AccessSession.renewed]
        split <;> exact hsame
      · exact ho
    · intro hrow
      simp only [replay_eq, Write.apply, renewal]
      exact Table.mem_update_of_not hrow (decide_eq_false fun hw => hid hw.1)

/-- Every session that a refresh answers with was active when the refresh committed, whatever
revocations, status changes and access calls overlapped it. -/
theorem refresh_not_overtaken (actions : List SessionAction) (db : Database)
    {s : TxState SessionAnswer} {i : Nat} {rt : Runtime} {repo : RepositoryClass}
    {denialId : Uuid} {draw : AccessDraw} {request : RefreshRequest} {response : RefreshedUserSession}
    (hreach : State.Reaches RowLock.conflicts (fun _ _ => True) (sessionActions actions db) s)
    (haction : actions[i]? = some (.refresh rt repo denialId draw request))
    (hanswer : s.answer i = some (.refreshed response)) :
    ∃ before after : TxState SessionAnswer,
      State.Reaches RowLock.conflicts (fun _ _ => True) (sessionActions actions db) before ∧
      before.step RowLock.conflicts i = some after ∧
      State.Reaches RowLock.conflicts (fun _ _ => True) after s ∧
      RefreshedAtCommit request draw.now response before.committed after.committed := by
  have hprogram : ∀ p, (actions.map SessionAction.program)[i]? = some p → p.Answers LocksCurrent
      (fun answer g db => ∀ response, answer = .refreshed response →
        CommitsRenewal request draw response g db) Progress.start := by
    intro p hp
    rw [List.getElem?_map, haction] at hp
    cases hp
    refine (refresh_answers rt repo denialId draw request).map SessionAnswer.refreshed ?_
    intro answer g db h response hresponse
    cases hresponse
    exact h
  obtain ⟨hanswering, hnone⟩ := State.answering_initial db hprogram
  obtain ⟨_, _, hdated⟩ := State.answer_by_commit
    (fun _ (h : SessionsGuarded _) c hc hunfinished row => h.sessions row i c hc hunfinished)
    (fun _ _ _ h hstep => h.step hstep) (sessionsGuarded_initial actions db) hanswering hnone hreach
  obtain ⟨before, after, hbefore, hstep, hafter, g, _, hcommits, hdb⟩ := hdated hanswer
  refine ⟨before, after, hbefore, hstep, hafter, ?_⟩
  rw [hdb]
  exact (hcommits response rfl).refreshed

def refreshLater : RefreshRequest where
  userId := "user"
  tenantId := "tenant"
  accessSessionId := "session"
  geo := some (requestAt 60).geo
  sourceIp := "192.0.2.1"
  correlationId := "correlation"

/-- The user gets a session and refreshes it, and somebody revokes it. -/
def refreshAndRevocation : List SessionAction :=
  [.createOrReuse workplaceRuntime .groupAware "session" (drawAt 0 "evaluation") (requestAt 0),
    .refresh workplaceRuntime .groupAware "denial" (drawAt 60 "second evaluation") refreshLater,
    .revoke "session" "tenant" "user"]

/-- The refresh has answered and the session is revoked: the revocation came after the refresh. -/
theorem refresh_before_revocation : ∃ (response : RefreshedUserSession) (before after : Database),
    RefreshedAtCommit refreshLater (seconds 43260) response before after := by
  have hrun : (((sessionActions refreshAndRevocation workplace).run RowLock.conflicts
      (List.replicate 16 0 ++ List.replicate 14 1 ++ List.replicate 3 2)).map fun s =>
        (s.answer 1).any SessionAnswer.isRefreshed) = some true := by
    decide +kernel
  obtain ⟨s, hs, hcheck⟩ := Option.map_eq_some_iff.mp hrun
  have hmeets : (sessionActions refreshAndRevocation workplace).Meets RowLock.conflicts (fun _ _ => True)
      ((List.replicate 16 0 ++ List.replicate 14 1 ++ List.replicate 3 2) ++ []) := State.meets_true _ _
  obtain ⟨hreach, _⟩ := State.reaches_of_run hmeets hs
  obtain ⟨response, hanswer⟩ : ∃ response, s.answer 1 = some (.refreshed response) := by
    obtain ⟨answer, hanswer, hrefreshed⟩ := (Option.any_eq_true _ _).mp hcheck
    cases answer with
    | refreshed response => exact ⟨response, hanswer⟩
    | opened response => cases hrefreshed
    | other => cases hrefreshed
  have haction : refreshAndRevocation[1]? = some (.refresh workplaceRuntime .groupAware "denial"
      (drawAt 60 "second evaluation") refreshLater) := rfl
  obtain ⟨before, after, _, _, _, hrefreshed⟩ :=
    refresh_not_overtaken refreshAndRevocation workplace hreach haction hanswer
  exact ⟨response, before.committed, after.committed, hrefreshed⟩

end VerigenceSecurity
