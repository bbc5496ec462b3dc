import VerigenceSecurity.RefreshedSessions
import VerigenceSecurity.RowHistories

/-! # The evidence behind a token

Whatever overlaps it, a call that answers with a token has committed the session of the token and
the evaluation that allowed it, and both are there from then on.
-/

namespace VerigenceSecurity
set_option autoImplicit false

open Transaction Program Relational

/-! ## Entries that a call has added -/

def sessionsLease (e : IndexEntry) (ids : List Uuid) : Lease Database RowLock where
  lock := ⟨.accessSessions, e, .update⟩
  holds db := ∀ row ∈ db.accessSessions.rows, e ∈ Row.entries row → row.accessSessionId ∈ ids

def updateLease (row : AccessSession) : Lease Database RowLock where
  lock := rowLock .accessSessions [row.accessSessionId] .noKeyUpdate
  holds db := row ∈ db.accessSessions.rows

def evaluationLease (e : IndexEntry) : Lease Database RowLock where
  lock := ⟨.accessContextEvaluations, e, .update⟩
  holds db := e ∉ db.accessContextEvaluations.taken

/-- The owner of an entry that the write does not add owned it before. -/
theorem owner_before {w : Write} {db : Database} {row : AccessSession} {e : IndexEntry}
    (hrow : row ∈ (w.apply db).accessSessions.rows) (he : e ∈ Row.entries row)
    (hadded : (Relation.accessSessions, e) ∉ w.addedEntries) :
    ∃ r ∈ db.accessSessions.rows, r.accessSessionId = row.accessSessionId ∧ e ∈ Row.entries r := by
  have updated : ∀ {where? : AccessSession → Bool} {set : AccessSession → AccessSession}
      {kept : ∀ r, Row.entries (set r) ⊆ Row.entries r},
      row ∈ (db.accessSessions.update where? set kept).rows →
      (∀ r, (set r).accessSessionId = r.accessSessionId) →
      ∃ r ∈ db.accessSessions.rows, r.accessSessionId = row.accessSessionId ∧ e ∈ Row.entries r := by
    intro where? set kept hrow hid
    obtain ⟨r, hr, ⟨_, rfl⟩ | ⟨_, rfl⟩⟩ := Table.mem_update.mp hrow
    · exact ⟨r, hr, (hid r).symm, kept r he⟩
    · exact ⟨row, hr, rfl, he⟩
  have ended_id : ∀ (status : SessionStatus) (r : AccessSession),
      (r.ended status).accessSessionId = r.accessSessionId := by
    intro status r
    cases status <;> rfl
  have renewed_id : ∀ (sourceIp : String) (vpnStatus : VpnStatus) (version : Nat)
      (expiresAt now : Instant) (r : AccessSession),
      (r.renewed sourceIp vpnStatus version expiresAt now).accessSessionId = r.accessSessionId := by
    intro sourceIp vpnStatus version expiresAt now r
    unfold AccessSession.renewed
    split <;> rfl
  cases w with
  | insertAccessSession r =>
    rcases Table.mem_insert hrow with hrow | rfl
    · exact ⟨row, hrow, rfl, he⟩
    · exact absurd (List.mem_map_of_mem he) hadded
  | expireStaleUserSessions ids tenantId userId deviceId now =>
    simp only [Write.apply] at hrow
    exact updated hrow (ended_id .expired)
  | revokeUserSessions ids userId now =>
    simp only [Write.apply] at hrow
    exact updated hrow fun r => ended_id .revoked r
  | revokeActiveUserSession accessSessionId tenantId userId =>
    simp only [Write.apply] at hrow
    exact updated hrow (ended_id .revoked)
  | updateReusedUserSession accessSessionId sourceIp vpnStatus authorizationVersion expiresAt now =>
    simp only [Write.apply] at hrow
    exact updated hrow (renewed_id _ _ _ _ _)
  | updateActiveSessionContext accessSessionId tenantId userId locationId sourceIp vpnStatus
      authorizationVersion expiresAt now =>
    simp only [Write.apply] at hrow
    exact updated hrow fun r => renewed_id _ _ _ _ _ r
  | _ => exact ⟨row, hrow, rfl, he⟩

theorem added_conflicts {w : Write} {e : Relation × IndexEntry} (he : e ∈ w.addedEntries) :
    ∃ l ∈ sessionProtocol.needs w, RowLock.conflicts l ⟨e.1, e.2, .update⟩ = true := by
  refine ⟨⟨e.1, e.2, .update⟩, List.mem_append_right _ (List.mem_map_of_mem he), ?_⟩
  simp [RowLock.conflicts, LockMode.conflicts]

theorem sessionsLease_respects (e : IndexEntry) (ids : List Uuid) (w : Write) :
    (sessionsLease e ids).Respects RowLock.conflicts sessionProtocol.needs w := by
  by_cases hadded : (Relation.accessSessions, e) ∈ w.addedEntries
  · exact Or.inr (added_conflicts hadded)
  · left
    intro db hdb row hrow he
    obtain ⟨r, hr, hid, hentry⟩ := owner_before hrow he hadded
    rw [← hid]
    exact hdb r hr hentry

theorem updateLease_respects (row : AccessSession) (w : Write) :
    (updateLease row).Respects RowLock.conflicts sessionProtocol.needs w := by
  by_cases hid : row.accessSessionId ∈ w.changedSessions
  · right
    refine ⟨_, List.mem_append_left _ (List.mem_map_of_mem hid), ?_⟩
    simp [updateLease, rowLock, RowLock.conflicts, LockMode.conflicts]
  · exact Or.inl fun db h => mem_accessSessions_apply hid h

theorem evaluationLease_respects (e : IndexEntry) (w : Write) :
    (evaluationLease e).Respects RowLock.conflicts sessionProtocol.needs w := by
  by_cases hadded : (Relation.accessContextEvaluations, e) ∈ w.addedEntries
  · exact Or.inr (added_conflicts hadded)
  · left
    intro db hdb htaken
    cases w with
    | insertEvaluation row =>
      rcases Table.mem_taken_insert htaken with htaken | hentry
      · exact hdb htaken
      · exact hadded (List.mem_map_of_mem hentry)
    | _ => exact hdb htaken

/-! ## What a call relies on -/

structure HeldSessions (g : TxProgress) (db : Database) : Prop where
  updates : ∀ row, (updateLease row).Current g db
  entries : ∀ e ids, (sessionsLease e ids).Current g db
  evaluations : ∀ e, (evaluationLease e).Current g db
  remembers : g.Remembers Database.Later db

structure SessionsUndisturbed (s : TxState SessionAnswer) : Prop where
  locking : s.Protected sessionProtocol RowLock.conflicts
  confined : s.Confined fun _ => True
  updates : ∀ row (j : Nat) (c : Call Database Write RowLock StatementName Failure SessionAnswer),
    s.calls[j]? = some c → c.finished = false → (updateLease row).Current c.progress s.committed
  entries : ∀ e ids (j : Nat) (c : Call Database Write RowLock StatementName Failure SessionAnswer),
    s.calls[j]? = some c → c.finished = false → (sessionsLease e ids).Current c.progress s.committed
  evaluations : ∀ e (j : Nat) (c : Call Database Write RowLock StatementName Failure SessionAnswer),
    s.calls[j]? = some c → c.finished = false → (evaluationLease e).Current c.progress s.committed
  remembers : ∀ (j : Nat) (c : Call Database Write RowLock StatementName Failure SessionAnswer),
    s.calls[j]? = some c → c.progress.Remembers Database.Later s.committed

namespace SessionsUndisturbed

variable {s t : TxState SessionAnswer} {i : Nat}
  {c : Call Database Write RowLock StatementName Failure SessionAnswer}

theorem held (h : SessionsUndisturbed s) (hc : s.calls[i]? = some c)
    (hunfinished : c.finished = false) : HeldSessions c.progress s.committed where
  updates row := h.updates row i c hc hunfinished
  entries e ids := h.entries e ids i c hc hunfinished
  evaluations e := h.evaluations e i c hc hunfinished
  remembers := h.remembers i c hc

theorem step (h : SessionsUndisturbed s) (hstep : s.step RowLock.conflicts i = some t) :
    SessionsUndisturbed t where
  locking := h.locking.step RowLock.conflicts_comm sessionProtocol_stable hstep
  confined := h.confined.step hstep
  updates row := Lease.current_step (updateLease_respects row) h.locking (h.updates row) hstep
  entries e ids :=
    Lease.current_step (sessionsLease_respects e ids) h.locking (h.entries e ids) hstep
  evaluations e :=
    Lease.current_step (evaluationLease_respects e) h.locking (h.evaluations e) hstep
  remembers := database_evolution.remembers_step h.confined h.remembers hstep

theorem initial (actions : List SessionAction) (db : Database) :
    SessionsUndisturbed (sessionActions actions db) where
  locking := (sessionsGuarded_initial actions db).locking
  confined := State.confined_anything db _
  updates row := Lease.current_initial (updateLease row) db _
  entries e ids := Lease.current_initial (sessionsLease e ids) db _
  evaluations e := Lease.current_initial (evaluationLease e) db _
  remembers := Evolution.remembers_initial db _

end SessionsUndisturbed

/-! ## The session that a call opens -/

structure SessionKey where
  accessSessionId : Uuid
  tenantId : Uuid
  userId : Uuid
  deviceId : Option Uuid

def AccessSession.Of (row : AccessSession) (key : SessionKey) : Prop :=
  row.accessSessionId = key.accessSessionId ∧ row.tenantId = key.tenantId ∧
    row.principalId = key.userId ∧ row.deviceId = key.deviceId ∧ row.actorType = .user

theorem AccessSession.Later.of {row row' : AccessSession} {key : SessionKey} (h : row.Later row')
    (hrow : row.Of key) : row'.Of key := by
  have hidentity := h.identity
  simp only [Prod.mk.injEq] at hidentity
  obtain ⟨hid, htenant, hprincipal, hactor, _, hdevice, _⟩ := hidentity
  obtain ⟨hid', htenant', hprincipal', hdevice', hactor'⟩ := hrow
  exact ⟨hid.trans hid', htenant.trans htenant', hprincipal.trans hprincipal', hdevice.trans hdevice',
    hactor.trans hactor'⟩

def SeesSession (key : SessionKey) (g : TxProgress) : Prop :=
  ∃ e ∈ g.history, ∃ row ∈ e.committed.accessSessions.rows, row.Of key

def ExpiresStale (ids : List Uuid) (tenantId userId deviceId : Uuid) (now : Instant) (g : TxProgress) :
    Prop :=
  ∀ id ∈ ids, ∃ row : AccessSession, row.accessSessionId = id ∧ row.tenantId = tenantId ∧
    row.principalId = userId ∧ row.deviceId = some deviceId ∧ row.actorType = .user ∧
      row.status = .active ∧ row.expiresAt ≤ now ∧ (updateLease row).Found g

structure AddsSession (key : SessionKey) (ids : List Uuid) (now : Instant) (row : AccessSession)
    (deviceId : Uuid) (g : TxProgress) : Prop where
  owner : row.Of key
  entries : Row.entries row = [(.primary, [row.accessSessionId]),
    (.active, [row.tenantId, row.principalId, deviceId])]
  stale : ExpiresStale ids key.tenantId key.userId deviceId now g
  primary : (sessionsLease (.primary, [row.accessSessionId]) []).Found g
  active : (sessionsLease (.active, [row.tenantId, row.principalId, deviceId]) ids).Found g

inductive OpensSession (key : SessionKey) : List Write → TxProgress → Prop
  | seen {ws : List Write} {g : TxProgress} (h : SeesSession key g) : OpensSession key ws g
  | added {ids : List Uuid} {now : Instant} {row : AccessSession} {deviceId : Uuid} {g : TxProgress}
      (h : AddsSession key ids now row deviceId g) : OpensSession key
        [.expireStaleUserSessions ids key.tenantId key.userId deviceId now, .insertAccessSession row] g

section Opening

variable {key : SessionKey} {ids : List Uuid} {now : Instant} {row : AccessSession} {deviceId : Uuid}
  {ws : List Write} {g : TxProgress} {db : Database} {β : Type}

theorem SeesSession.ran (h : SeesSession key g) (label : StatementName) (db : Database)
    (o : Outcome Write RowLock β) : SeesSession key (g.ran label db o) := by
  obtain ⟨e, he, hrow⟩ := h
  exact ⟨e, List.mem_cons_of_mem _ he, hrow⟩

theorem ExpiresStale.ran {tenantId userId : Uuid} (h : ExpiresStale ids tenantId userId deviceId now g)
    (hdb : HeldSessions g db) (label : StatementName) (o : Outcome Write RowLock β) :
    ExpiresStale ids tenantId userId deviceId now (g.ran label db o) := by
  intro id hid
  obtain ⟨row, hrowId, htenant, huser, hdevice, hactor, hactive, hexpired, hfound⟩ := h id hid
  exact ⟨row, hrowId, htenant, huser, hdevice, hactor, hactive, hexpired,
    hfound.ran (hdb.updates row) label o⟩

theorem OpensSession.ran (h : OpensSession key ws g) (hdb : HeldSessions g db) (label : StatementName)
    (o : Outcome Write RowLock β) : OpensSession key ws (g.ran label db o) := by
  cases h with
  | seen h => exact .seen (h.ran label db o)
  | added h => exact .added {
      owner := h.owner
      entries := h.entries
      stale := h.stale.ran hdb label o
      primary := h.primary.ran (hdb.entries _ _) label o
      active := h.active.ran (hdb.entries _ _) label o }

/-- The entries of a new session are free once the stale sessions are ended. -/
theorem AddsSession.insertable (h : AddsSession key ids now row deviceId g) (hdb : HeldSessions g db) :
    (((Write.expireStaleUserSessions ids key.tenantId key.userId deviceId now).apply
      db).accessSessions.insert? row).isSome = true := by
  have hprimary := h.primary.holds (hdb.entries _ _)
  have hactive := h.active.holds (hdb.entries _ _)
  rw [Table.isSome_insert?]
  intro r hr k hk hkrow
  simp only [Write.apply] at hr
  obtain ⟨before, hbefore, hcase⟩ := Table.mem_update.mp hr
  have hentry : k ∈ Row.entries before := by
    rcases hcase with ⟨_, rfl⟩ | ⟨_, rfl⟩
    · exact AccessSession.entries_ended .expired before hk
    · exact hk
  rw [h.entries] at hkrow
  rcases List.mem_cons.mp hkrow with rfl | hkrow
  · exact absurd (hprimary before hbefore hentry) List.not_mem_nil
  · -- The owner of the active entry is one of the stale sessions, which the update has ended.
    rw [List.mem_singleton.mp hkrow] at hk hentry
    have hid := hactive before hbefore hentry
    obtain ⟨stale, hstaleId, htenant, huser, hdevice, hactor, hstatus, hexpired, hfound⟩ :=
      h.stale _ hid
    have hsame : stale = before := by
      refine Table.shared_entry (hfound.holds (hdb.updates stale)) hbefore
        (k := (.primary, [before.accessSessionId])) ?_ List.mem_cons_self
      rw [← hstaleId]
      exact List.mem_cons_self
    subst hsame
    have hwhere : decide (stale.accessSessionId ∈ ids ∧ stale.tenantId = key.tenantId ∧
        stale.principalId = key.userId ∧ stale.deviceId = some deviceId ∧ stale.actorType = .user ∧
        stale.status = .active ∧ stale.expiresAt ≤ now) = true :=
      decide_eq_true ⟨hid, htenant, huser, hdevice, hactor, hstatus, hexpired⟩
    rcases hcase with ⟨_, rfl⟩ | ⟨hnot, _⟩
    · simp [AccessSession.ended, Row.entries] at hk
    · rw [hwhere] at hnot
      cases hnot

theorem OpensSession.opened (h : OpensSession key ws g) (hdb : HeldSessions g db) (rest : List Write) :
    ∃ row ∈ (replayAll (ws ++ rest) db).accessSessions.rows, row.Of key := by
  have hlater : ∀ (ws : List Write) (db : Database), Database.Later db (replayAll ws db) :=
    fun ws db => database_evolution.replayAll (fun _ _ => trivial) db
  cases h with
  | seen h =>
    obtain ⟨e, he, row, hrow, howner⟩ := h
    obtain ⟨now, hnow, hnext⟩ := (hdb.remembers e he).sessions row hrow
    obtain ⟨after, hafter, hlast⟩ := (hlater (ws ++ rest) db).sessions now hnow
    exact ⟨after, hafter, hlast.of (hnext.of howner)⟩
  | @added ids now row deviceId _ h =>
    rw [replayAll_append]
    have hrow : row ∈ (replayAll [.expireStaleUserSessions ids key.tenantId key.userId deviceId now,
        .insertAccessSession row] db).accessSessions.rows :=
      Table.mem_insert_of_free (Table.isSome_insert?_iff_taken.mp (h.insertable hdb))
    obtain ⟨after, hafter, hlast⟩ := (hlater rest _).sessions row hrow
    exact ⟨after, hafter, hlast.of h.owner⟩

end Opening

/-! ## The evaluation that a call records -/

def Write.addsNoEvaluation : Write → Bool
  | .insertEvaluation _ => false
  | _ => true

theorem evaluations_apply {w : Write} (h : w.addsNoEvaluation = true) (db : Database) :
    (w.apply db).accessContextEvaluations = db.accessContextEvaluations := by
  cases w with
  | insertEvaluation row => cases h
  | _ => rfl

theorem evaluations_replayAll {ws : List Write} (h : ∀ w ∈ ws, w.addsNoEvaluation = true)
    (db : Database) : (replayAll ws db).accessContextEvaluations = db.accessContextEvaluations := by
  induction ws generalizing db with
  | nil => rfl
  | cons w ws ih =>
    rw [replayAll_cons, ih fun w' hw' => h w' (List.mem_cons_of_mem w hw')]
    exact evaluations_apply (h w List.mem_cons_self) db

/-- The evaluation and the session that a grant was given for. -/
structure Evidenced (grant : Grant) (draw : AccessDraw) (geo : GeoSample)
    (sourceIp correlationId : String) (db : Database) : Prop where
  evaluation : grant.evaluation draw geo sourceIp correlationId ∈ db.accessContextEvaluations.rows
  session : ∃ row ∈ db.accessSessions.rows, row.accessSessionId = grant.accessSessionId ∧
    row.tenantId = grant.tenantId ∧ row.principalId = grant.userId ∧
      row.deviceId.getD "None" = grant.deviceId ∧ row.actorType = .user

/-- The answer carries the token of the grant, which has left its evidence. -/
structure GrantedBy (grant : Grant) (rt : Runtime) (draw : AccessDraw) (geo : GeoSample)
    (sourceIp correlationId : String) (response : AccessResponse) (db : Database) : Prop where
  token : rt.tokens.issue draw.token grant.claims = .ok response.accessToken
  response : response = grant.response response.accessToken
  evidence : Evidenced grant draw geo sourceIp correlationId db

theorem Evidenced.later {grant : Grant} {draw : AccessDraw} {geo : GeoSample}
    {sourceIp correlationId : String} {db db' : Database}
    (h : Evidenced grant draw geo sourceIp correlationId db) (hlater : Database.Later db db') :
    Evidenced grant draw geo sourceIp correlationId db' where
  evaluation := hlater.evaluations.subset h.evaluation
  session := by
    obtain ⟨row, hrow, hid, htenant, huser, hdevice, hactor⟩ := h.session
    obtain ⟨row', hrow', hnext⟩ := hlater.sessions row hrow
    have howner : row.Of ⟨grant.accessSessionId, grant.tenantId, grant.userId, row.deviceId⟩ :=
      ⟨hid, htenant, huser, rfl, hactor⟩
    obtain ⟨hid', htenant', huser', hdevice', hactor'⟩ := hnext.of howner
    exact ⟨row', hrow', hid', htenant', huser', by rw [hdevice', hdevice], hactor'⟩

theorem finish_granted {grant : Grant} {rt : Runtime} {draw : AccessDraw} {geo : GeoSample}
    {sourceIp correlationId : String} {key : SessionKey} {ws : List Write} {g : TxProgress}
    (h : OpensSession key ws g) (hpending : g.pending = ws)
    (hws : ∀ w ∈ ws, w.addsNoEvaluation = true) (hsession : key.accessSessionId = grant.accessSessionId)
    (htenant : key.tenantId = grant.tenantId) (huser : key.userId = grant.userId)
    (hdevice : key.deviceId.getD "None" = grant.deviceId) :
    (grant.finish rt draw geo sourceIp correlationId).Answers HeldSessions (fun response g db =>
      GrantedBy grant rt draw geo sourceIp correlationId response (replayAll g.pending db)) g := by
  apply answers_bind
  apply yields_execute
  intro db o hdb ho
  have hopens := h.ran hdb .recordEvaluation o
  have hinsert := (fits_ok ho).2
  obtain ⟨hfree, _, hedits⟩ := insertRow_ok hinsert
  have hfound : (evaluationLease (.primary, [draw.evaluationId])).Found
      (g.ran .recordEvaluation db o) := by
    refine Lease.found_ran (insertRow_locks hinsert List.mem_cons_self) ?_
    rw [hpending, evaluations_replayAll hws] at hfree
    exact Table.isSome_insert?_iff_taken.mp hfree _ List.mem_cons_self
  refine answers_bind (yields_done fun token htoken => answers_commit fun db' hdb' => ?_)
  have hreplayed : (g.ran .recordEvaluation db o).pending =
      ws ++ [.insertEvaluation (grant.evaluation draw geo sourceIp correlationId)] := by
    rw [Progress.ran, hpending, hedits]
  rw [hreplayed]
  refine ⟨htoken, rfl, ?_, ?_⟩
  · rw [replayAll_append]
    refine Table.mem_insert_of_free fun k hk => ?_
    rw [evaluations_replayAll hws, List.mem_singleton.mp hk]
    exact hfound.holds (hdb'.evaluations _)
  · obtain ⟨row, hrow, hid, htenant', huser', hdevice', hactor⟩ := hopens.opened hdb' _
    exact ⟨row, hrow, hid.trans hsession, htenant'.trans htenant, huser'.trans huser,
      by rw [hdevice', hdevice], hactor⟩

/-! ## Opening a session -/

section Walk

variable {request : AccessRequest} {draw : AccessDraw} {userId : Uuid} {ids : List Uuid} {g : TxProgress}

def AccessRequest.key (request : AccessRequest) (accessSessionId userId : Uuid) : SessionKey :=
  ⟨accessSessionId, request.tenantId, userId, some request.deviceId⟩

theorem expireStale_yields {tenantId deviceId : Uuid} {now : Instant} {post : Unit → TxProgress → Prop}
    (hpending : g.pending = []) (hpost : ∀ ids g', ExpiresStale ids tenantId userId deviceId now g' →
      g'.pending = [.expireStaleUserSessions ids tenantId userId deviceId now] → post () g') :
    (expireStaleUserSessions tenantId userId deviceId now).Yields HeldSessions post g := by
  apply yields_bind
  apply yields_bind
  refine yields_prelude within_query hpending fun found g₁ hpending₁ => ?_
  apply yields_execute
  intro db o hdb ho
  rw [hpending₁, replayAll_nil] at ho
  cases ho
  refine yields_pure (hpost _ _ ?_ (by rw [Progress.ran, hpending₁]; rfl))
  intro id hid
  obtain ⟨hfind, _⟩ := List.mem_filter.mp hid
  obtain ⟨row, hrow, rfl⟩ := List.mem_map.mp hfind
  obtain ⟨hmem, hmatches⟩ := List.mem_filter.mp hrow
  obtain ⟨htenant, huser, hdevice, hactor, hstatus, hexpired⟩ := of_decide_eq_true hmatches
  refine ⟨row, rfl, htenant, huser, hdevice, hactor, hstatus, hexpired, Lease.found_ran ?_ hmem⟩
  exact List.mem_map_of_mem hid

/-- The active session that is read among the stale ones that the call has ended is a stored one. -/
theorem mem_of_activeUserSession {db : Database} {tenantId deviceId : Uuid} {now : Instant}
    {session : AccessSession} (h : (replayAll [Write.expireStaleUserSessions ids tenantId userId
      deviceId now] db).activeUserSession tenantId userId deviceId = some session) :
    session ∈ db.accessSessions.rows ∧
      session.Of ⟨session.accessSessionId, tenantId, userId, some deviceId⟩ := by
  have hmatches := List.find?_some h
  obtain ⟨htenant, huser, hdevice, hactor, hstatus⟩ := of_decide_eq_true hmatches
  refine ⟨?_, rfl, htenant, huser, hdevice, hactor⟩
  have hmem := List.mem_of_find?_eq_some h
  simp only [replayAll_cons, replayAll_nil, replay_eq, Write.apply] at hmem
  obtain ⟨before, hbefore, ⟨_, rfl⟩ | ⟨_, rfl⟩⟩ := Table.mem_update.mp hmem
  · cases hstatus
  · exact hbefore

theorem reuse_yields (key : SessionKey) {accessSessionId : Uuid} {sourceIp : String}
    {vpnStatus : VpnStatus} {authorizationVersion : Nat} {expiresAt now : Instant} {ws : List Write}
    {post : Unit → TxProgress → Prop} (h : SeesSession key g) (hpending : g.pending = ws)
    (hws : ∀ w ∈ ws, w.addsNoEvaluation = true) (hpost : ∀ ws g', SeesSession key g' →
      g'.pending = ws → (∀ w ∈ ws, w.addsNoEvaluation = true) → post () g') :
    (updateReusedUserSession accessSessionId sourceIp vpnStatus authorizationVersion expiresAt
      now).Yields HeldSessions post g := by
  apply yields_bind
  apply yields_execute
  intro db o _ ho
  refine yields_pure (hpost _ _ (h.ran _ db o) rfl fun w hw => ?_)
  rcases List.mem_append.mp hw with hw | hw
  · rw [hpending] at hw
    exact hws w hw
  · cases hfind : (replayAll g.pending db).accessSessions.rows.find? fun r =>
        decide (r.accessSessionId = accessSessionId ∧ r.status = .active) with
    | none =>
      simp only [hfind] at ho
      cases ho
      cases hw
    | some row =>
      simp only [hfind] at ho
      split at ho
      · cases ho
        rw [List.mem_singleton.mp hw]
        rfl
      · cases ho

theorem AccessSession.id_of_primary {r : AccessSession} {id : Uuid}
    (h : (Index.primary, [id]) ∈ Row.entries r) : r.accessSessionId = id := by
  rcases List.mem_cons.mp h with h | h
  · cases h
    rfl
  · split at h
    · cases List.mem_singleton.mp h
    · cases h

theorem create_yields {repo : RepositoryClass} {s : NewSession} {post : Unit → TxProgress → Prop}
    (hstale : ExpiresStale ids s.tenantId s.userId s.deviceId s.now g)
    (hpending : g.pending = [.expireStaleUserSessions ids s.tenantId s.userId s.deviceId s.now])
    (hpost : ∀ row g', AddsSession ⟨s.accessSessionId, s.tenantId, s.userId, some s.deviceId⟩ ids s.now
      row s.deviceId g' → g'.pending = [.expireStaleUserSessions ids s.tenantId s.userId s.deviceId
        s.now, .insertAccessSession row] → post () g') :
    (createUserSession repo s).Yields HeldSessions post g := by
  apply yields_execute
  intro db o hdb ho
  split at ho
  · rename_i lifetime
    obtain ⟨hfree, _, hedits⟩ := insertRow_ok ho
    rw [hpending] at hfree
    rw [Table.isSome_insert?] at hfree
    simp only [replayAll_cons, replayAll_nil, replay_eq, Write.apply] at hfree
    refine hpost (s.row repo lifetime) _ ⟨⟨rfl, rfl, rfl, rfl, rfl⟩, rfl, hstale.ran hdb _ o, ?_, ?_⟩ ?_
    · refine Lease.found_ran (insertRow_locks ho List.mem_cons_self) fun r hr he => ?_
      cases hw : decide (r.accessSessionId ∈ ids ∧ r.tenantId = s.tenantId ∧ r.principalId = s.userId ∧
          r.deviceId = some s.deviceId ∧ r.actorType = .user ∧ r.status = .active ∧
          r.expiresAt ≤ s.now) with
      | true =>
        refine absurd List.mem_cons_self (hfree _ (Table.mem_update_set hr hw) (.primary,
          [s.accessSessionId]) ?_)
        have hid : r.accessSessionId = s.accessSessionId := AccessSession.id_of_primary he
        rw [← hid]
        exact List.mem_cons_self
      | false => exact absurd List.mem_cons_self (hfree r (Table.mem_update_of_not hr hw) _ he)
    · refine Lease.found_ran (insertRow_locks ho (List.mem_cons_of_mem _ List.mem_cons_self))
        fun r hr he => ?_
      by_contra hid
      have hw : decide (r.accessSessionId ∈ ids ∧ r.tenantId = s.tenantId ∧ r.principalId = s.userId ∧
          r.deviceId = some s.deviceId ∧ r.actorType = .user ∧ r.status = .active ∧
          r.expiresAt ≤ s.now) = false := decide_eq_false fun h => hid h.1
      exact hfree r (Table.mem_update_of_not hr hw) _ he (List.mem_cons_of_mem _ List.mem_cons_self)
    · rw [Progress.ran, hpending, hedits]
      rfl
  · cases ho

theorem openSession_yields {repo : RepositoryClass} {newSessionId : Uuid} {vpnStatus : VpnStatus}
    {context : UserContext} {policy : TenantSecurityPolicy} {location : LocationCandidate}
    {authorizedUntil : Instant} {post : Uuid × Instant → TxProgress → Prop} (hpending : g.pending = [])
    (hpost : ∀ id expiry ws g', OpensSession (request.key id userId) ws g' → g'.pending = ws →
      (∀ w ∈ ws, w.addsNoEvaluation = true) → post (id, expiry) g') :
    (openSession repo newSessionId draw request vpnStatus context userId policy location
      authorizedUntil).Yields HeldSessions post g := by
  unfold openSession
  refine yields_bind (expireStale_yields hpending fun ids g₁ hstale hpending₁ => ?_)
  have hexpire : ∀ w ∈ [Write.expireStaleUserSessions ids request.tenantId userId request.deviceId
      draw.now], w.addsNoEvaluation = true := by
    intro w hw
    rw [List.mem_singleton.mp hw]
    rfl
  apply yields_bind
  apply yields_execute
  intro db o hdb ho
  cases ho
  rw [hpending₁]
  cases hactive : (replayAll [Write.expireStaleUserSessions ids request.tenantId userId request.deviceId
      draw.now] db).activeUserSession request.tenantId userId request.deviceId with
  | some session =>
    obtain ⟨hmem, howner⟩ := mem_of_activeUserSession hactive
    dsimp only
    split
    · exact yields_raise _
    · refine yields_bind (reuse_yields (request.key session.accessSessionId userId)
        ⟨_, List.mem_cons_self, session, hmem, howner⟩ ?_ hexpire ?_)
      · simp [Progress.ran, hpending₁]
      · exact fun ws g' hsees hpending' hws => yields_pure (hpost _ _ ws g' (.seen hsees) hpending' hws)
  | none =>
    dsimp only
    refine yields_bind (create_yields (hstale.ran hdb _ _) ?_ ?_)
    · simp [Progress.ran, hpending₁]
    · intro row g' hadds hpending'
      refine yields_pure (hpost _ _ _ g' (.added hadds) hpending' fun w hw => ?_)
      rcases List.mem_cons.mp hw with rfl | hw
      · rfl
      · rw [List.mem_singleton.mp hw]
        rfl

theorem rollbackAndRaise_neverAnswers {α : Type} (e : Failure) :
    (rollbackAndRaise e : Tx α).NeverAnswers := neverAnswers_bind fun _ => neverAnswers_raise e

theorem createOrReuse_granted (rt : Runtime) (repo : RepositoryClass) (newSessionId : Uuid)
    (draw : AccessDraw) (request : AccessRequest) :
    (createOrReuse rt repo newSessionId draw request).Answers HeldSessions (fun response g db =>
      ∃ grant : Grant, grant.tenantId = request.tenantId ∧ grant.deviceId = request.deviceId ∧
        GrantedBy grant rt draw request.geo request.sourceIp request.correlationId response
          (replayAll g.pending db)) Progress.start := by
  unfold createOrReuse
  refine answers_bind (yields_done fun vpnStatus _ => ?_)
  refine answers_attempt ?_ rollbackAndRaise_neverAnswers
  refine answers_bind (yields_prelude within_query rfl fun _ g₁ hpending₁ => ?_)
  refine answers_bind (yields_prelude within_query hpending₁ fun userId g₂ hpending₂ => ?_)
  refine answers_bind (yields_prelude within_query hpending₂ fun context g₃ hpending₃ => ?_)
  refine answers_bind (yields_prelude within_query hpending₃ fun policy g₄ hpending₄ => ?_)
  refine answers_bind (yields_prelude (lockActiveDevice_reads _ _ _) hpending₄ fun _ g₅ hpending₅ => ?_)
  refine answers_bind (yields_prelude (matchPosition_reads ..).1 hpending₅ ?_)
  rintro ⟨location, distance⟩ g₆ hpending₆
  refine answers_bind (yields_prelude (scheduleAt_reads ..).1 hpending₆ fun schedule g₇ hpending₇ => ?_)
  refine answers_bind (yields_prelude (authorize_reads ..).1 hpending₇ ?_)
  rintro ⟨roles, permissions⟩ g₈ hpending₈
  refine answers_bind (openSession_yields hpending₈ ?_)
  intro id expiry ws g₉ hopens hpending₉ hws
  refine (finish_granted hopens hpending₉ hws rfl rfl rfl rfl).weaken ?_
  exact fun response g db hgranted => ⟨_, rfl, rfl, hgranted⟩

/-- A part that only reads, once the session has been seen. -/
theorem yields_seen {α : Type} {key : SessionKey} {p : Tx α} {post : α → TxProgress → Prop}
    (hp : p.Within fun _ => False) (h : SeesSession key g) (hpending : g.pending = [])
    (hpost : ∀ a g', SeesSession key g' → g'.pending = [] → post a g') :
    p.Yields HeldSessions post g := by
  refine yields_within (fun g => SeesSession key g ∧ g.pending = []) hp ?_ ⟨h, hpending⟩ ?_
  · exact fun g db label o hg _ ho => ⟨hg.1.ran label db o, pending_reads hg.2 ho⟩
  · exact fun a g' hg' => hpost a g' hg'.1 hg'.2

theorem lockSession_sees {request : RefreshRequest} {device : Option Uuid}
    {post : AccessSession → TxProgress → Prop} (hpending : g.pending = [])
    (hpost : ∀ session g', SeesSession ⟨request.accessSessionId, request.tenantId, request.userId,
      device⟩ g' → g'.pending = [] → post session g') :
    (lockSession request device draw.now).Yields HeldSessions post g := by
  unfold lockSession
  apply yields_bind
  refine yields_prelude (lockActiveDevice_reads _ _ _) hpending fun _ g₁ hpending₁ => ?_
  apply yields_bind
  apply yields_execute
  intro db o _ ho
  rw [hpending₁, replayAll_nil] at ho
  cases ho
  dsimp only
  cases hfound : db.userSession request.accessSessionId request.tenantId request.userId with
  | none => exact yields_raise _
  | some session =>
    obtain ⟨hmem, hid, htenant, huser, hactor⟩ := userSession_mem hfound
    dsimp only
    split
    · exact yields_raise _
    split
    · exact yields_raise _
    rename_i hdevice
    split
    · exact yields_raise _
    apply yields_pure
    refine hpost session _ ⟨_, List.mem_cons_self, session, hmem, hid, htenant, huser, ?_, hactor⟩ ?_
    · exact not_not.mp hdevice
    · simp [Progress.ran, hpending₁]

theorem renewLocked_sees {request : RefreshRequest} {key : SessionKey} {vpnStatus : VpnStatus}
    {context : UserContext} {policy : TenantSecurityPolicy} {session : AccessSession}
    {location : LocationCandidate} {authorizedUntil : Instant} {post : Instant → TxProgress → Prop}
    (h : SeesSession key g) (hpending : g.pending = []) (hpost : ∀ expiry ws g', SeesSession key g' →
      g'.pending = ws → (∀ w ∈ ws, w.addsNoEvaluation = true) → post expiry g') :
    (renewLocked request draw vpnStatus context policy session location authorizedUntil).Yields
      HeldSessions post g := by
  unfold renewLocked
  dsimp only
  split
  · exact yields_raise _
  apply yields_bind
  apply yields_execute
  intro db o _ ho
  have hnone : ∀ w ∈ o.edits, w.addsNoEvaluation = true := by
    intro w hw
    cases hfind : ((replayAll g.pending db).userSession request.accessSessionId request.tenantId
        request.userId).filter fun r => decide (r.status = .active) with
    | none =>
      simp only [hfind] at ho
      cases ho
      cases hw
    | some row =>
      simp only [hfind] at ho
      split at ho
      · cases ho
        rw [List.mem_singleton.mp hw]
        rfl
      · cases ho
  split
  · exact yields_raise _
  · refine yields_pure (hpost _ o.edits _ (h.ran _ db o) ?_ hnone)
    rw [Progress.ran, hpending, List.nil_append]

theorem refresh_granted (rt : Runtime) (repo : RepositoryClass) (denialId : Uuid) (draw : AccessDraw)
    (request : RefreshRequest) : (refresh rt repo denialId draw request).Answers HeldSessions
      (fun response g db => ∃ geo grant access, request.geo = some geo ∧
        grant.accessSessionId = request.accessSessionId ∧ grant.tenantId = request.tenantId ∧
        grant.userId = request.userId ∧ response = access.refreshed request.userId ∧
        GrantedBy grant rt draw geo request.sourceIp request.correlationId access
          (replayAll g.pending db)) Progress.start := by
  unfold refresh
  refine answers_attempt_bind (yields_done fun geo hgeo => ?_) (deny_neverAnswers _ _ _ _)
  have hsample : request.geo = some geo := by
    unfold requireRefreshGeo at hgeo
    cases hcases : request.geo with
    | none =>
      rw [hcases] at hgeo
      cases hgeo
    | some sample =>
      rw [hcases] at hgeo
      cases hgeo
      rfl
  refine answers_attempt_bind (yields_done fun vpnStatus _ => ?_) (deny_neverAnswers _ _ _ _)
  refine answers_attempt_bind (yields_prelude (observeSession_reads ..).1 rfl ?_)
    (deny_neverAnswers _ _ _ _)
  rintro ⟨context, policy, device⟩ g₁ hpending₁
  refine answers_attempt_bind (yields_bind (lockSession_sees hpending₁ ?_)) (deny_neverAnswers _ _ _ _)
  intro session g₂ h₂ hpending₂
  refine yields_bind (yields_seen (matchPosition_reads ..).1 h₂ hpending₂ ?_)
  rintro ⟨location, distance⟩ g₃ h₃ hpending₃
  apply yields_pure
  refine answers_attempt_bind (yields_seen (scheduleAt_reads ..).1 h₃ hpending₃ ?_)
    (deny_neverAnswers _ _ _ _)
  intro schedule g₄ h₄ hpending₄
  refine answers_attempt ?_ (deny_neverAnswers _ _ _ _)
  refine answers_bind (yields_seen (authorize_reads ..).1 h₄ hpending₄ ?_)
  rintro ⟨roles, permissions⟩ g₅ h₅ hpending₅
  refine answers_bind (renewLocked_sees h₅ hpending₅ ?_)
  intro expiry ws g₆ h₆ hpending₆ hws
  refine Answers.map _ (finish_granted (.seen h₆) hpending₆ hws rfl rfl rfl rfl) ?_
  exact fun access g db hgranted => ⟨geo, _, access, hsample, rfl, rfl, rfl, rfl, hgranted⟩

end Walk

/-! ## Overlapping calls -/

/-- What stands behind the answer of a call: for a token, the grant that it was issued for, with the
evaluation and the session of the grant. -/
def SessionAction.Evidenced : SessionAction → SessionAnswer → Database → Prop
  | .createOrReuse rt _ _ draw request, answer, db => ∃ response grant, answer = .opened response ∧
      grant.tenantId = request.tenantId ∧ grant.deviceId = request.deviceId ∧
      GrantedBy grant rt draw request.geo request.sourceIp request.correlationId response db
  | .refresh rt _ _ draw request, answer, db => ∃ geo grant access,
      answer = .refreshed (access.refreshed request.userId) ∧ request.geo = some geo ∧
      grant.accessSessionId = request.accessSessionId ∧ grant.tenantId = request.tenantId ∧
      grant.userId = request.userId ∧
      GrantedBy grant rt draw geo request.sourceIp request.correlationId access db
  | .revoke .., _, _ => True
  | .setUserStatus .., _, _ => True

theorem GrantedBy.later {grant : Grant} {rt : Runtime} {draw : AccessDraw} {geo : GeoSample}
    {sourceIp correlationId : String} {response : AccessResponse} {db db' : Database}
    (h : GrantedBy grant rt draw geo sourceIp correlationId response db)
    (hlater : Database.Later db db') : GrantedBy grant rt draw geo sourceIp correlationId response db' :=
  ⟨h.token, h.response, h.evidence.later hlater⟩

theorem SessionAction.Evidenced.later {action : SessionAction} {answer : SessionAnswer}
    {db db' : Database} (h : action.Evidenced answer db) (hlater : Database.Later db db') :
    action.Evidenced answer db' := by
  cases action with
  | createOrReuse rt repo newSessionId draw request =>
    obtain ⟨response, grant, hanswer, htenant, hdevice, hgranted⟩ := h
    exact ⟨response, grant, hanswer, htenant, hdevice, hgranted.later hlater⟩
  | refresh rt repo denialId draw request =>
    obtain ⟨geo, grant, access, hanswer, hgeo, hid, htenant, huser, hgranted⟩ := h
    exact ⟨geo, grant, access, hanswer, hgeo, hid, htenant, huser, hgranted.later hlater⟩
  | revoke | setUserStatus => trivial

/-- Whatever overlapped it, every call that has answered with a token has left the session and the
evaluation that the token was issued for, and they are still there. -/
theorem answered_sessions_evidenced (actions : List SessionAction) (db : Database)
    {s : TxState SessionAnswer} {i : Nat} {action : SessionAction} {answer : SessionAnswer}
    (hreach : State.Reaches RowLock.conflicts (fun _ _ => True) (sessionActions actions db) s)
    (haction : actions[i]? = some action) (hanswer : s.answer i = some answer) :
    action.Evidenced answer s.committed := by
  have hdated : action.program.Answers HeldSessions
      (fun answer g db => action.Evidenced answer (replayAll g.pending db)) Progress.start →
      action.Evidenced answer s.committed := by
    intro hanswers
    have hprogram : ∀ p, (actions.map SessionAction.program)[i]? = some p → p.Answers HeldSessions
        (fun answer g db => action.Evidenced answer (replayAll g.pending db)) Progress.start := by
      intro p hp
      rw [List.getElem?_map, haction] at hp
      cases hp
      exact hanswers
    obtain ⟨hanswering, hnone⟩ := State.answering_initial db hprogram
    obtain ⟨_, _, hanswered⟩ := State.answer_by_commit
      (fun _ (h : SessionsUndisturbed _) c hc hunfinished => h.held hc hunfinished)
      (fun _ _ _ h hstep => h.step hstep) (SessionsUndisturbed.initial actions db) hanswering hnone
      hreach
    obtain ⟨before, after, hbefore, hstep, hafter, g, _, hevidenced, hdb⟩ := hanswered hanswer
    rw [← hdb] at hevidenced
    have hconfined := (hbefore.step trivial hstep).confined (State.confined_anything db _)
    exact hevidenced.later (database_evolution.reaches hconfined hafter)
  cases action with
  | createOrReuse rt repo newSessionId draw request =>
    refine hdated ((createOrReuse_granted rt repo newSessionId draw request).map _ ?_)
    rintro response g db ⟨grant, htenant, hdevice, hgranted⟩
    exact ⟨response, grant, rfl, htenant, hdevice, hgranted⟩
  | refresh rt repo denialId draw request =>
    refine hdated ((refresh_granted rt repo denialId draw request).map _ ?_)
    rintro response g db ⟨geo, grant, access, hgeo, hid, htenant, huser, rfl, hgranted⟩
    exact ⟨geo, grant, access, rfl, hgeo, hid, htenant, huser, hgranted⟩
  | revoke accessSessionId tenantId userId => trivial
  | setUserStatus upper clerk c userId newStatus reason => trivial

/-- The session that the first call of the run opened, and the evaluation that it recorded. -/
theorem first_session_evidenced : ∃ (answer : SessionAnswer) (after : Database),
    (SessionAction.createOrReuse workplaceRuntime .groupAware "session" (drawAt 0 "evaluation")
      (requestAt 0)).Evidenced answer after := by
  have hrun : (((sessionActions refreshAndRevocation workplace).run RowLock.conflicts
      (List.replicate 16 0 ++ List.replicate 14 1 ++ List.replicate 3 2)).map fun s =>
        (s.answer 0).isSome) = some true := by
    decide +kernel
  obtain ⟨s, hs, hcheck⟩ := Option.map_eq_some_iff.mp hrun
  have hmeets : (sessionActions refreshAndRevocation workplace).Meets RowLock.conflicts (fun _ _ => True)
      ((List.replicate 16 0 ++ List.replicate 14 1 ++ List.replicate 3 2) ++ []) := State.meets_true _ _
  obtain ⟨hreach, _⟩ := State.reaches_of_run hmeets hs
  obtain ⟨answer, hanswer⟩ := Option.isSome_iff_exists.mp hcheck
  exact ⟨answer, s.committed,
    answered_sessions_evidenced refreshAndRevocation workplace hreach (i := 0) rfl hanswer⟩

end VerigenceSecurity
