import VerigenceSecurity.AccessService
import VerigenceSecurity.GuardedStatements
import Mathlib.Data.List.Chain

/-! # One active session for each device

Calls of `create_or_reuse` for one device take the lock of its row before they look for
its session. What they find is therefore what the call before them has committed, and a
session that has not expired is renewed, never doubled.
-/

namespace VerigenceSecurity
set_option autoImplicit false

open Transaction Program Relational

/-- The lock of the device guards the sessions when all calls are for this device. -/
def sessionGuard (deviceId : Uuid) : Guard Database RowLock (Rows AccessSession) where
  lock := rowLock .registeredDevices [deviceId] .update
  observe db := db.accessSessions

/-- The entry of `uq_active_user_device_session`. -/
def activeEntry (tenantId userId deviceId : Uuid) : IndexEntry := (.active, [tenantId, userId, deviceId])

theorem activeEntry_mem_iff {tenantId userId deviceId : Uuid} {r : AccessSession} :
    activeEntry tenantId userId deviceId ∈ Row.entries r ↔ r.tenantId = tenantId ∧
      r.principalId = userId ∧ r.deviceId = some deviceId ∧ r.actorType = .user ∧ r.status = .active := by
  simp only [Row.entries, activeEntry, List.mem_cons, Prod.mk.injEq, reduceCtorEq, false_and, false_or]
  split
  · rename_i hactor hstatus hdevice
    simp [hactor, hstatus, hdevice, eq_comm]
  · rename_i hnone
    constructor
    · exact nofun
    · rintro ⟨_, _, hdevice, hactor, hstatus⟩
      exact (hnone deviceId hactor hstatus hdevice).elim

theorem activeUserSession_eq_some_iff {db : Database} {tenantId userId deviceId : Uuid}
    {r : AccessSession} : db.activeUserSession tenantId userId deviceId = some r ↔
      r ∈ db.accessSessions.rows ∧ activeEntry tenantId userId deviceId ∈ Row.entries r := by
  unfold Database.activeUserSession
  constructor
  · intro h
    refine ⟨List.mem_of_find?_eq_some h, activeEntry_mem_iff.mpr ?_⟩
    simpa using List.find?_some h
  · rintro ⟨hr, hentry⟩
    refine Table.find?_of_mem hr ?_ (activeEntry tenantId userId deviceId) ?_
    · exact decide_eq_true (activeEntry_mem_iff.mp hentry)
    · exact fun x hx => activeEntry_mem_iff.mpr (of_decide_eq_true hx)

theorem activeUserSession_eq_none_iff {db : Database} {tenantId userId deviceId : Uuid} :
    db.activeUserSession tenantId userId deviceId = none ↔ ∀ r ∈ db.accessSessions.rows,
      activeEntry tenantId userId deviceId ∉ Row.entries r := by
  constructor
  · intro h r hr hentry
    rw [activeUserSession_eq_some_iff.mpr ⟨hr, hentry⟩] at h
    cases h
  · intro h
    cases hfind : db.activeUserSession tenantId userId deviceId with
    | none => rfl
    | some r =>
      obtain ⟨hr, hentry⟩ := activeUserSession_eq_some_iff.mp hfind
      exact absurd hentry (h r hr)

/-! ## What a call leaves behind -/

def Write.session? : Write → Option (Uuid × Instant)
  | insertAccessSession row => some (row.accessSessionId, row.expiresAt)
  | updateReusedUserSession accessSessionId _ _ _ expiresAt _ => some (accessSessionId, expiresAt)
  | _ => none

/-- What the call had pending when it recorded its evaluation. -/
def openedSession (g : TxProgress) : Option (Uuid × Instant) :=
  g.history.head?.bind fun e => e.pending.findSome? Write.session?

/-- A session still valid at the call's clock is kept; the device then has this session. -/
structure Opens (tenantId userId deviceId : Uuid) (now : Instant) (opened : Uuid × Instant)
    (before after : Database) : Prop where
  reused : ∀ r, before.activeUserSession tenantId userId deviceId = some r →
    opened.1 = r.accessSessionId ∨ r.expiresAt ≤ now
  stored : ∃ r, after.activeUserSession tenantId userId deviceId = some r ∧
    r.accessSessionId = opened.1 ∧ r.expiresAt = opened.2

section Effects

variable {db : Database} {tenantId userId deviceId : Uuid} {now : Instant} {r : AccessSession}

def Database.staleSessions (db : Database) (tenantId userId deviceId : Uuid) (now : Instant) : List Uuid :=
  (db.accessSessions.rows.filter fun r => decide (r.tenantId = tenantId ∧ r.principalId = userId ∧
    r.deviceId = some deviceId ∧ r.actorType = .user ∧ r.status = .active ∧ r.expiresAt ≤ now)).map
    (·.accessSessionId)

def expiry (db : Database) (tenantId userId deviceId : Uuid) (now : Instant) : Write :=
  .expireStaleUserSessions (db.staleSessions tenantId userId deviceId now) tenantId userId deviceId now

theorem activeUserSession_of_expiry
    (h : (Write.apply db (expiry db tenantId userId deviceId now)).activeUserSession tenantId userId
      deviceId = some r) : db.activeUserSession tenantId userId deviceId = some r ∧ now < r.expiresAt := by
  obtain ⟨hr, hentry⟩ := activeUserSession_eq_some_iff.mp h
  simp only [expiry, Write.apply] at hr
  obtain ⟨o, ho, ⟨_, rfl⟩ | ⟨hw, rfl⟩⟩ := Table.mem_update.mp hr
  · have hstatus := (activeEntry_mem_iff.mp hentry).2.2.2.2
    cases hstatus
  · refine ⟨activeUserSession_eq_some_iff.mpr ⟨ho, hentry⟩, ?_⟩
    obtain ⟨ht, hu, hd, hactor, hstatus⟩ := activeEntry_mem_iff.mp hentry
    by_contra hle
    have hstale : r.accessSessionId ∈ db.staleSessions tenantId userId deviceId now := by
      refine List.mem_map_of_mem (List.mem_filter.mpr ⟨ho, decide_eq_true ?_⟩)
      exact ⟨ht, hu, hd, hactor, hstatus, not_lt.mp hle⟩
    refine of_decide_eq_false hw ⟨hstale, ht, hu, hd, hactor, hstatus, not_lt.mp hle⟩

theorem activeUserSession_expiry (h : db.activeUserSession tenantId userId deviceId = some r)
    (hlive : now < r.expiresAt) :
    (Write.apply db (expiry db tenantId userId deviceId now)).activeUserSession tenantId userId
      deviceId = some r := by
  obtain ⟨hr, hentry⟩ := activeUserSession_eq_some_iff.mp h
  rw [activeUserSession_eq_some_iff]
  simp only [expiry, Write.apply]
  refine ⟨Table.mem_update_of_not hr (decide_eq_false ?_), hentry⟩
  rintro ⟨_, _, _, _, _, _, hle⟩
  exact absurd hlive (not_lt.mpr hle)

theorem activeUserSession_renewed {sourceIp : String} {vpnStatus : VpnStatus} {version : Nat}
    {expiresAt : Instant} (h : db.activeUserSession tenantId userId deviceId = some r)
    (hlt : r.startedAt < expiresAt) :
    ∃ r', (Write.apply db (.updateReusedUserSession r.accessSessionId sourceIp vpnStatus version
      expiresAt now)).activeUserSession tenantId userId deviceId = some r' ∧
      r'.accessSessionId = r.accessSessionId ∧ r'.expiresAt = expiresAt := by
  obtain ⟨hr, hentry⟩ := activeUserSession_eq_some_iff.mp h
  have hstatus := (activeEntry_mem_iff.mp hentry).2.2.2.2
  refine ⟨r.renewed sourceIp vpnStatus version expiresAt now, ?_, ?_, ?_⟩
  · rw [activeUserSession_eq_some_iff]
    simp only [Write.apply]
    refine ⟨Table.mem_update_set hr (decide_eq_true ⟨rfl, hstatus⟩), ?_⟩
    rw [activeEntry_mem_iff] at hentry ⊢
    simpa [AccessSession.renewed, hlt] using hentry
  · simp [AccessSession.renewed, hlt]
  · simp [AccessSession.renewed, hlt]

theorem activeUserSession_insert (hinsert : (db.accessSessions.insert? r).isSome = true)
    (hentry : activeEntry tenantId userId deviceId ∈ Row.entries r) :
    (Write.apply db (.insertAccessSession r)).activeUserSession tenantId userId deviceId = some r := by
  obtain ⟨u, hu⟩ := Option.isSome_iff_exists.mp hinsert
  refine activeUserSession_eq_some_iff.mpr ⟨?_, hentry⟩
  simp only [Write.apply, Table.rows_insert_of_some hu]
  exact List.mem_append_right _ (List.mem_singleton_self r)

theorem activeUserSession_congr {db' : Database} (h : db.accessSessions = db'.accessSessions) :
    db.activeUserSession tenantId userId deviceId = db'.activeUserSession tenantId userId deviceId := by
  unfold Database.activeUserSession
  rw [h]

theorem expiry_congr {db' : Database} (h : db.accessSessions = db'.accessSessions) :
    expiry db tenantId userId deviceId now = expiry db' tenantId userId deviceId now := by
  unfold expiry Database.staleSessions
  rw [h]

theorem accessSessions_expiry {db' : Database} (h : db.accessSessions = db'.accessSessions) :
    (Write.apply db (expiry db tenantId userId deviceId now)).accessSessions =
      (Write.apply db' (expiry db' tenantId userId deviceId now)).accessSessions := by
  rw [expiry_congr h]
  simp only [expiry, Write.apply, h]

/-- A session still valid survives the expiry of the stale ones, so it is the one that is found. -/
theorem reused_of_expiry {opened : Uuid × Instant} (h : ∀ found,
    (Write.apply db (expiry db tenantId userId deviceId now)).activeUserSession tenantId userId
      deviceId = some found → opened.1 = found.accessSessionId) :
    ∀ r, db.activeUserSession tenantId userId deviceId = some r →
      opened.1 = r.accessSessionId ∨ r.expiresAt ≤ now := by
  intro r hr
  rcases lt_or_ge now r.expiresAt with hlive | hle
  · exact Or.inl (h r (activeUserSession_expiry hr hlive))
  · exact Or.inr hle

end Effects

/-! ## One call -/

/-- No insertion of a session met a row with the entry it was to own. -/
def InsertsFresh (tenantId userId deviceId : Uuid) (g : TxProgress) : Prop :=
  ∀ e ∈ g.history, e.label = .createUserSession →
    ∀ r ∈ e.view.accessSessions.rows, activeEntry tenantId userId deviceId ∉ Row.entries r

structure SameIdentities (db db' : Database) : Prop where
  identities : db.externalIdentities = db'.externalIdentities
  users : db.users = db'.users
  principals : db.securityPrincipals = db'.securityPrincipals

theorem SameIdentities.resolveIdentityUser_eq {db db' : Database} (h : SameIdentities db db')
    (identity : AuthenticatedIdentity) :
    db.resolveIdentityUser identity = db'.resolveIdentityUser identity := by
  unfold Database.resolveIdentityUser Database.identityRows
  rw [h.identities, h.users, h.principals]

def accessTerms (db₀ : Database) (tenantId userId deviceId : Uuid) (now : Instant) :
    Terms Database Write RowLock StatementName Failure AccessResponse where
  rely _ g db := SameIdentities db db₀ ∧ (sessionGuard deviceId).Current g db
  always _ g := (sessionGuard deviceId).Covers g ∧ InsertsFresh tenantId userId deviceId g
  commits n g db := n = 0 ∧ SameIdentities (replayAll g.pending db) db ∧ ∃ opened,
    openedSession g = some opened ∧
      Opens tenantId userId deviceId now opened db (replayAll g.pending db)
  returns r n g := ∀ a, r = .ok a → n = 1 ∧ openedSession g = some (a.accessSessionId, a.expiresAt)

def accessBody (db₀ : Database) (tenantId userId deviceId : Uuid) (now : Instant) :
    Terms Database Write RowLock StatementName Failure AccessResponse :=
  (accessTerms db₀ tenantId userId deviceId now).guarded fun e n g =>
    (rollbackAndRaise e).Keeps (accessTerms db₀ tenantId userId deviceId now) n g

section Call

variable {db₀ : Database} {tenantId userId deviceId : Uuid} {now : Instant} {g g' : TxProgress}
  {obs : Rows AccessSession} {ws : List Write}

theorem InsertsFresh.adds {L : StatementName → Prop} (h : InsertsFresh tenantId userId deviceId g)
    (hadds : g.Adds L ws g') (hL : ¬ L .createUserSession) :
    InsertsFresh tenantId userId deviceId g' := by
  intro e he hlabel
  rcases hadds.labels e he with he | hl
  · exact h e he hlabel
  · rw [hlabel] at hl
    exact absurd hl hL

theorem InsertsFresh.failed (h : InsertsFresh tenantId userId deviceId g) {label : StatementName}
    (hl : label ≠ .createUserSession) (db : Database) :
    InsertsFresh tenantId userId deviceId (g.failed label db) :=
  h.adds (Progress.Adds.failed (L := (· = label)) rfl db g) hl.symm

theorem InsertsFresh.ran {β : Type} (h : InsertsFresh tenantId userId deviceId g)
    {label : StatementName} (hl : label ≠ .createUserSession) (db : Database)
    (o : Outcome Write RowLock β) : InsertsFresh tenantId userId deviceId (g.ran label db o) :=
  h.adds (Progress.Adds.ran (L := (· = label)) rfl db o g) hl.symm

theorem accessBody_raises {e : Failure} (h : (sessionGuard deviceId).Covers g ∧
    InsertsFresh tenantId userId deviceId g) :
    (accessBody db₀ tenantId userId deviceId now).returns (.error e) 0 g :=
  ⟨h, ⟨Guard.covers_ended _ g, h.2⟩, nofun⟩

structure Renewing (tenantId userId deviceId : Uuid) (obs : Rows AccessSession) (g : TxProgress)
    (ws : List Write) : Prop where
  found : (sessionGuard deviceId).Found g obs
  pending : g.pending = ws
  fresh : InsertsFresh tenantId userId deviceId g

theorem Renewing.always (h : Renewing tenantId userId deviceId obs g ws) :
    (sessionGuard deviceId).Covers g ∧ InsertsFresh tenantId userId deviceId g :=
  ⟨h.found.covers, h.fresh⟩

theorem Renewing.adds {L : StatementName → Prop} {ws' : List Write}
    (h : Renewing tenantId userId deviceId obs g ws) (hfound : (sessionGuard deviceId).Found g' obs)
    (hadds : g.Adds L ws' g') (hL : ¬ L .createUserSession) :
    Renewing tenantId userId deviceId obs g' (ws ++ ws') :=
  ⟨hfound, by rw [hadds.pending, h.pending], h.fresh.adds hadds hL⟩

theorem Renewing.failed {db : Database} (h : Renewing tenantId userId deviceId obs g ws)
    (hdb : (sessionGuard deviceId).Current g db) (label : StatementName)
    (hl : label ≠ .createUserSession) : Renewing tenantId userId deviceId obs (g.failed label db) ws :=
  ⟨h.found.failed hdb label, h.pending, h.fresh.failed hl db⟩

theorem Renewing.ran {β : Type} {db : Database} (h : Renewing tenantId userId deviceId obs g ws)
    (hdb : (sessionGuard deviceId).Current g db) (label : StatementName)
    (hl : label ≠ .createUserSession) (o : Outcome Write RowLock β) :
    Renewing tenantId userId deviceId obs (g.ran label db o) (ws ++ o.edits) :=
  ⟨h.found.ran hdb label o, by rw [← h.pending]; rfl, h.fresh.ran hl db o⟩

structure Opening (tenantId userId deviceId : Uuid) (now : Instant) (obs : Rows AccessSession)
    (ws : List Write) (opened : Uuid × Instant) : Prop where
  session : ws.findSome? Write.session? = some opened
  opens : ∀ db row, db.accessSessions = obs →
    SameIdentities (replayAll (ws ++ [.insertEvaluation row]) db) db ∧
      Opens tenantId userId deviceId now opened db (replayAll (ws ++ [.insertEvaluation row]) db)

/-- The evidence, the token and the commit of a session that has been opened. -/
theorem finish_keeps {grant : Grant} {rt : Runtime} {draw : AccessDraw} {geo : GeoSample}
    {sourceIp correlationId : String} (h : Renewing tenantId userId deviceId obs g ws)
    (hopening : Opening tenantId userId deviceId now obs ws (grant.accessSessionId, grant.expiry)) :
    (grant.finish rt draw geo sourceIp correlationId).Keeps
      (accessBody db₀ tenantId userId deviceId now) 0 g := by
  unfold Grant.finish recordEvaluation
  refine keeps_execute_bind h.always ?_ ?_
  · intro db o hdb ho
    have hran := h.ran hdb.2 .recordEvaluation nofun o
    rw [(insertRow_ok (fits_ok ho).2).2.2] at hran
    have hopenedSession : openedSession (g.ran .recordEvaluation db o) =
        some (grant.accessSessionId, grant.expiry) := by
      simp only [openedSession, Progress.ran, List.head?_cons, Option.bind_some, h.pending, hopening.session]
    refine keeps_done_bind ?_ fun e _ => ⟨hran.always, accessBody_raises hran.always⟩
    intro token _
    refine keeps_commitNow_bind hran.always ?_ (keeps_pure ⟨Guard.covers_ended _ _, hran.fresh⟩ ?_)
    · intro db' hdb'
      have hafter := hopening.opens db' (grant.evaluation draw geo sourceIp correlationId)
        (hran.found.observe_eq hdb'.2)
      rw [← hran.pending] at hafter
      exact ⟨rfl, hafter.1, _, hopenedSession, hafter.2⟩
    · intro a ha
      cases ha
      exact ⟨rfl, hopenedSession⟩
  · intro db e hdb _
    have hfailed := h.failed hdb.2 .recordEvaluation nofun
    exact ⟨hfailed.always, accessBody_raises hfailed.always⟩

theorem opening_renewed {d : Database} {session : AccessSession} {sourceIp : String}
    {vpnStatus : VpnStatus} {version : Nat} {expiresAt : Instant}
    (hactive : (Write.apply d (expiry d tenantId userId deviceId now)).activeUserSession tenantId userId
      deviceId = some session) (hlt : session.startedAt < expiresAt) :
    Opening tenantId userId deviceId now d.accessSessions
      [expiry d tenantId userId deviceId now,
        .updateReusedUserSession session.accessSessionId sourceIp vpnStatus version expiresAt now]
      (session.accessSessionId, expiresAt) := by
  refine ⟨rfl, fun db row hdb => ⟨⟨rfl, rfl, rfl⟩, ?_, ?_⟩⟩
  · apply reused_of_expiry
    intro found hfound
    rw [activeUserSession_congr (accessSessions_expiry hdb), hactive] at hfound
    cases hfound
    rfl
  · rw [expiry_congr hdb.symm]
    rw [← activeUserSession_congr (accessSessions_expiry hdb)] at hactive
    exact activeUserSession_renewed hactive hlt

theorem opening_created {d : Database} {row : AccessSession}
    (hactive : (Write.apply d (expiry d tenantId userId deviceId now)).activeUserSession tenantId userId
      deviceId = none)
    (hinsert : ((Write.apply d (expiry d tenantId userId deviceId now)).accessSessions.insert?
      row).isSome = true)
    (hentry : activeEntry tenantId userId deviceId ∈ Row.entries row) :
    Opening tenantId userId deviceId now d.accessSessions
      [expiry d tenantId userId deviceId now, .insertAccessSession row]
      (row.accessSessionId, row.expiresAt) := by
  refine ⟨rfl, fun db _ hdb => ⟨⟨rfl, rfl, rfl⟩, ?_, row, ?_, rfl, rfl⟩⟩
  · apply reused_of_expiry
    intro found hfound
    rw [activeUserSession_congr (accessSessions_expiry hdb), hactive] at hfound
    cases hfound
  · rw [expiry_congr hdb.symm]
    rw [← accessSessions_expiry hdb] at hinsert
    exact activeUserSession_insert hinsert hentry

theorem Renewing.expired {d db : Database} (h : Renewing tenantId userId deviceId d.accessSessions g
    [expiry d tenantId userId deviceId now]) (hdb : (sessionGuard deviceId).Current g db) :
    (replayAll g.pending db).accessSessions =
      (Write.apply d (expiry d tenantId userId deviceId now)).accessSessions := by
  have hobs : db.accessSessions = d.accessSessions := h.found.observe_eq hdb
  simp only [h.pending, replayAll_cons, replayAll_nil, replay_eq, expiry, Write.apply, hobs]

/-- The session that was found is still there when it is renewed. -/
theorem renew_keeps {d : Database} {session : AccessSession} {sourceIp : String}
    {vpnStatus : VpnStatus} {version : Nat} {expiresAt : Instant} {k : Unit → Tx AccessResponse}
    (h : Renewing tenantId userId deviceId d.accessSessions g [expiry d tenantId userId deviceId now])
    (hactive : (Write.apply d (expiry d tenantId userId deviceId now)).activeUserSession tenantId userId
      deviceId = some session)
    (hk : ∀ g', session.startedAt < expiresAt → Renewing tenantId userId deviceId d.accessSessions g'
      [expiry d tenantId userId deviceId now,
        .updateReusedUserSession session.accessSessionId sourceIp vpnStatus version expiresAt now] →
      (k ()).Keeps (accessBody db₀ tenantId userId deviceId now) 0 g') :
    (updateReusedUserSession session.accessSessionId sourceIp vpnStatus version expiresAt now >>=
      k).Keeps (accessBody db₀ tenantId userId deviceId now) 0 g := by
  have hsession : ∀ db, (sessionGuard deviceId).Current g db →
      (replayAll g.pending db).accessSessions.rows.find? (fun r =>
        decide (r.accessSessionId = session.accessSessionId ∧ r.status = .active)) = some session := by
    intro db hcurrent
    obtain ⟨hr, hentry⟩ := activeUserSession_eq_some_iff.mp hactive
    rw [h.expired hcurrent]
    refine Table.find?_of_mem hr ?_ (.primary, [session.accessSessionId]) ?_
    · exact decide_eq_true ⟨rfl, (activeEntry_mem_iff.mp hentry).2.2.2.2⟩
    · intro x hx
      have hid := (of_decide_eq_true hx).1
      simp [Row.entries, hid]
  unfold updateReusedUserSession renewSession
  rw [Program.bind_assoc]
  refine keeps_execute_bind h.always ?_ ?_
  · intro db o hdb ho
    dsimp only at ho
    rw [hsession db hdb.2] at ho
    dsimp only at ho
    split at ho
    · rename_i hlt
      cases ho
      exact hk _ hlt (h.ran hdb.2 .updateReusedUserSession nofun _)
    · cases ho
  · intro db e hdb _
    have hfailed := h.failed hdb.2 .updateReusedUserSession nofun
    exact ⟨hfailed.always, accessBody_raises hfailed.always⟩

/-- Nothing that was not found is there when the session is created. -/
theorem create_keeps {repo : RepositoryClass} {s : NewSession} {d : Database}
    {k : Unit → Tx AccessResponse} (hs : s.tenantId = tenantId ∧ s.userId = userId ∧ s.deviceId = deviceId)
    (h : Renewing tenantId userId deviceId d.accessSessions g [expiry d tenantId userId deviceId now])
    (hactive : (Write.apply d (expiry d tenantId userId deviceId now)).activeUserSession tenantId userId
      deviceId = none)
    (hk : ∀ ws g', Renewing tenantId userId deviceId d.accessSessions g' ws →
      Opening tenantId userId deviceId now d.accessSessions ws (s.accessSessionId, s.expiresAt) →
      (k ()).Keeps (accessBody db₀ tenantId userId deviceId now) 0 g') :
    (createUserSession repo s >>= k).Keeps (accessBody db₀ tenantId userId deviceId now) 0 g := by
  obtain ⟨rfl, rfl, rfl⟩ := hs
  -- The history of the statement, whether it fails or not.
  have hfresh : ∀ g' db, (sessionGuard s.deviceId).Current g db →
      g'.history = ⟨.createUserSession, db, g.pending⟩ :: g.history →
      InsertsFresh s.tenantId s.userId s.deviceId g' := by
    intro g' db hcurrent hhistory e he hlabel
    rw [hhistory] at he
    rcases List.mem_cons.mp he with rfl | he
    · rw [← activeUserSession_eq_none_iff, ← hactive]
      exact activeUserSession_congr (h.expired hcurrent)
    · exact h.fresh e he hlabel
  unfold createUserSession
  refine keeps_execute_bind h.always ?_ ?_
  · intro db o hdb ho
    split at ho
    · rename_i hlifetime
      obtain ⟨hinsert, _, hedits⟩ := insertRow_ok ho
      rw [h.expired hdb.2] at hinsert
      refine hk _ _ ⟨h.found.ran hdb.2 .createUserSession o, ?_, hfresh _ db hdb.2 rfl⟩
        (opening_created hactive hinsert (activeEntry_mem_iff.mpr ⟨rfl, rfl, rfl, rfl, rfl⟩))
      simp only [Progress.ran, h.pending, hedits, List.singleton_append]
    · cases ho
  · intro db e hdb _
    have hfailed := h.found.failed hdb.2 .createUserSession
    have hnext := hfresh (g.failed .createUserSession db) db hdb.2 rfl
    exact ⟨⟨hfailed.covers, hnext⟩, accessBody_raises ⟨hfailed.covers, hnext⟩⟩

theorem open_keeps {repo : RepositoryClass} {newSessionId : Uuid} {draw : AccessDraw}
    {request : AccessRequest} {vpnStatus : VpnStatus} {context : UserContext}
    {policy : TenantSecurityPolicy} {location : LocationCandidate} {authorizedUntil : Instant}
    {k : Uuid × Instant → Tx AccessResponse}
    (h : Renewing request.tenantId userId request.deviceId obs g [])
    (hk : ∀ ws opened g', Renewing request.tenantId userId request.deviceId obs g' ws →
      Opening request.tenantId userId request.deviceId draw.now obs ws opened →
      (k opened).Keeps (accessBody db₀ request.tenantId userId request.deviceId draw.now) 0 g') :
    (openSession repo newSessionId draw request vpnStatus context userId policy location
      authorizedUntil >>= k).Keeps
        (accessBody db₀ request.tenantId userId request.deviceId draw.now) 0 g := by
  have hrely : ∀ g db, (accessBody db₀ request.tenantId userId request.deviceId draw.now).rely 0 g db →
      (sessionGuard request.deviceId).Current g db := fun _ _ hdb => hdb.2
  have hlabel : ¬ StatementName.expireStaleUserSessions.Conditional .createUserSession := by
    rintro (hl | hl) <;> cases hl
  obtain ⟨_, e, _, hd⟩ := h.found
  generalize e.committed = d at hd
  subst hd
  unfold openSession expireStaleUserSessions
  rw [Program.bind_assoc, Program.bind_assoc]
  refine keeps_updateWhere_bind
    (d.staleSessions request.tenantId userId request.deviceId draw.now) h.found hrely ?_ ?_ ?_
  · intro db hdb
    have hsame : db.accessSessions = d.accessSessions := hdb
    simp only [h.pending, replayAll_nil, Database.staleSessions, hsame]
  · exact fun g' hfound hadds => (h.adds hfound hadds hlabel).always
  intro g₁ hfound₁ hadds₁
  have h₁ := h.adds hfound₁ hadds₁ hlabel
  rw [List.nil_append] at h₁
  rw [Program.pure_bind, Program.bind_assoc]
  refine keeps_query_bind h₁.always ?_ fun _ _ _ he => nomatch he
  intro db active hdb hactive
  have h₂ := h₁.failed hdb.2 .activeUserSession nofun
  have hfound : (Write.apply d (expiry d request.tenantId userId request.deviceId
      draw.now)).activeUserSession request.tenantId userId request.deviceId = active := by
    rw [← Except.ok.inj hactive]
    exact activeUserSession_congr (Renewing.expired h₁ hdb.2).symm
  cases active with
  | none =>
    dsimp only
    rw [Program.bind_assoc]
    refine create_keeps ?_ h₂ hfound ?_
    · exact ⟨rfl, rfl, rfl⟩
    · exact fun ws g' hg' hopens => hk ws _ g' hg' hopens
  | some session =>
    dsimp only
    split
    · exact ⟨h₂.always, accessBody_raises h₂.always⟩
    · rw [Program.bind_assoc]
      refine renew_keeps h₂ hfound ?_
      exact fun g' hlt hg' => hk _ _ g' hg' (opening_renewed hfound hlt)

/-- A part under the lock that only reads. -/
theorem read_keeps {α : Type} {p : Tx α} {k : α → Tx AccessResponse}
    (h : Renewing tenantId userId deviceId obs g []) (hp : p.Within fun _ => False)
    (hl : p.Only (· ≠ .createUserSession))
    (hk : ∀ a g', Renewing tenantId userId deviceId obs g' [] →
      (k a).Keeps (accessBody db₀ tenantId userId deviceId now) 0 g') :
    (p >>= k).Keeps (accessBody db₀ tenantId userId deviceId now) 0 g := by
  have hread : ∀ es g', (sessionGuard deviceId).Found g' obs → g.Adds (· ≠ .createUserSession) es g' →
      (∀ e ∈ es, False) → Renewing tenantId userId deviceId obs g' [] := by
    intro es g' hfound hadds hnone
    cases es with
    | nil => exact h.adds hfound hadds (fun hl => hl rfl)
    | cons e es => exact (hnone e List.mem_cons_self).elim
  refine h.found.keeps_within_bind hp hl (fun _ _ hdb => hdb.2) ?_ ?_ ?_
  · exact fun es g' hfound hadds hnone => (hread es g' hfound hadds hnone).always
  · exact fun a es g' hfound hadds hnone => hk a g' (hread es g' hfound hadds hnone)
  · exact fun e es g' hfound hadds hnone => accessBody_raises (hread es g' hfound hadds hnone).always

structure Reading (tenantId userId deviceId : Uuid) (g : TxProgress) : Prop where
  pending : g.pending = []
  fresh : InsertsFresh tenantId userId deviceId g

theorem Reading.always (h : Reading tenantId userId deviceId g) :
    (sessionGuard deviceId).Covers g ∧ InsertsFresh tenantId userId deviceId g :=
  ⟨Or.inl fun db => by rw [h.pending]; rfl, h.fresh⟩

theorem keeps_read_bind {α : Type} {read : Database → Except Failure α} {k : α → Tx AccessResponse}
    (label : StatementName) (hl : label ≠ .createUserSession) (h : Reading tenantId userId deviceId g)
    (hk : ∀ db a g', SameIdentities db db₀ → read db = .ok a → Reading tenantId userId deviceId g' →
      (k a).Keeps (accessBody db₀ tenantId userId deviceId now) 0 g') :
    (query label read >>= k).Keeps (accessBody db₀ tenantId userId deviceId now) 0 g := by
  have hnext : ∀ db, Reading tenantId userId deviceId (g.failed label db) :=
    fun db => ⟨h.pending, h.fresh.failed hl db⟩
  refine keeps_query_bind h.always ?_ ?_
  · intro db a hdb ha
    rw [h.pending] at ha
    exact hk db a _ hdb.1 ha (hnext db)
  · exact fun db e _ _ => ⟨(hnext db).always, accessBody_raises (hnext db).always⟩

theorem matchPosition_reads (rt : Runtime) (policy : TenantSecurityPolicy) (userId tenantId : Uuid)
    (geo : GeoSample) (now : Instant) :
    (matchPosition rt policy userId tenantId geo now).Within (fun _ => False) ∧
      (matchPosition rt policy userId tenantId geo now).Only (· ≠ .createUserSession) :=
  ⟨within_bind (within_done _) fun _ => within_query, only_bind (only_done _) fun _ => only_query nofun⟩

theorem scheduleAt_reads (rt : Runtime) (userId tenantId : Uuid) (location : LocationCandidate)
    (now : Instant) : (scheduleAt rt userId tenantId location now).Within (fun _ => False) ∧
      (scheduleAt rt userId tenantId location now).Only (· ≠ .createUserSession) :=
  ⟨within_bind within_query fun _ => within_bind within_query fun _ => within_bind within_query
      fun _ => within_done _,
    only_bind (only_query nofun) fun _ => only_bind (only_query nofun) fun _ =>
      only_bind (only_query nofun) fun _ => only_done _⟩

theorem authorize_reads (repo : RepositoryClass) (policy : TenantSecurityPolicy)
    (vpnStatus : VpnStatus) (userId tenantId : Uuid) (now : Instant) :
    (authorize repo policy vpnStatus userId tenantId now).Within (fun _ => False) ∧
      (authorize repo policy vpnStatus userId tenantId now).Only (· ≠ .createUserSession) :=
  ⟨within_bind (within_done _) fun _ => within_bind within_query fun _ => within_bind (within_done _)
      fun _ => within_pure _,
    only_bind (only_done _) fun _ => only_bind (only_query nofun) fun _ => only_bind (only_done _)
      fun _ => only_pure _⟩

/-- The lock of the device, and whether it is active. -/
theorem lockDevice_keeps {k : Unit → Tx AccessResponse} (h : Reading tenantId userId deviceId g)
    (hk : ∀ obs g', Renewing tenantId userId deviceId obs g' [] →
      (k ()).Keeps (accessBody db₀ tenantId userId deviceId now) 0 g') :
    (lockActiveDevice userId tenantId deviceId >>= k).Keeps
      (accessBody db₀ tenantId userId deviceId now) 0 g := by
  unfold lockActiveDevice
  rw [Program.bind_assoc]
  refine keeps_execute_bind h.always ?_ fun _ _ _ he => by cases he
  intro db o _ ho
  have hvalue : o.value = db.deviceRow? tenantId userId deviceId := by
    cases ho
    rw [h.pending, replayAll_nil]
  have hlocks : o.locks = o.value.toList.map fun r =>
      rowLock .registeredDevices [r.deviceId] .update := by cases ho; rfl
  have hpending : (g.ran StatementName.lockActiveDevice db o).pending = [] := by
    cases ho
    simp only [Progress.ran, h.pending, List.append_nil]
  have hl : StatementName.lockActiveDevice ≠ .createUserSession := by decide
  have hreading : Reading tenantId userId deviceId (g.ran .lockActiveDevice db o) :=
    ⟨hpending, h.fresh.ran hl db o⟩
  refine keeps_done_bind ?_ fun e _ => ⟨hreading.always, accessBody_raises hreading.always⟩
  intro _ hdevice
  cases hfound : o.value with
  | none =>
    rw [hfound] at hdevice
    cases hdevice
  | some device =>
    rw [hfound] at hvalue hlocks
    have hmatch := List.find?_some hvalue.symm
    have hid : device.deviceId = deviceId := (of_decide_eq_true hmatch).2.2
    have hlock : (sessionGuard deviceId).lock ∈ o.locks := by
      simp [hlocks, sessionGuard, hid]
    exact hk _ _ ⟨Guard.found_ran hlock, hpending, hreading.fresh⟩

theorem createOrReuse_keeps {rt : Runtime} {repo : RepositoryClass} {newSessionId : Uuid}
    {draw : AccessDraw} {request : AccessRequest}
    (hid : ∀ id, db₀.resolveIdentityUser request.identity = .ok id → id = userId) :
    (createOrReuse rt repo newSessionId draw request).Keeps
      (accessTerms db₀ request.tenantId userId request.deviceId draw.now) 0 Progress.start := by
  have hstart : Reading request.tenantId userId request.deviceId Progress.start := ⟨rfl, nofun⟩
  unfold createOrReuse
  refine keeps_done_bind ?_ fun e _ => ⟨hstart.always, nofun⟩
  intro vpnStatus _
  apply keeps_attempt
  unfold requireActiveTenant getUserContext getTenantPolicy
  refine keeps_read_bind .tenantStatus nofun hstart ?_
  intro _ _ g₁ _ _ h₁
  refine keeps_read_bind .resolveIdentityUser nofun h₁ ?_
  intro db id g₂ hsame hresolve h₂
  rw [hsame.resolveIdentityUser_eq] at hresolve
  cases hid id hresolve
  refine keeps_read_bind .getUserContext nofun h₂ ?_
  intro _ context g₃ _ _ h₃
  refine keeps_read_bind .getTenantPolicy nofun h₃ ?_
  intro _ policy g₄ _ _ h₄
  apply lockDevice_keeps h₄
  intro obs g₅ h₅
  apply read_keeps h₅ (matchPosition_reads ..).1 (matchPosition_reads ..).2
  rintro ⟨location, distance⟩ g₆ h₆
  apply read_keeps h₆ (scheduleAt_reads ..).1 (scheduleAt_reads ..).2
  intro schedule g₇ h₇
  apply read_keeps h₇ (authorize_reads ..).1 (authorize_reads ..).2
  rintro ⟨roles, permissions⟩ g₈ h₈
  apply open_keeps h₈
  rintro ws ⟨accessSessionId, expiry⟩ g₉ h₉ hopening
  exact finish_keeps h₉ hopening

end Call

/-! ## A call ends with its commit -/

theorem updateWhere_within (name : StatementName) (relation : Relation) (mode : LockMode)
    (find : Database → List Uuid) (write : List Uuid → Write) :
    (updateWhere name relation mode find write).Within fun _ => True :=
  within_bind within_query fun _ => within_execute fun _ _ _ _ _ => trivial

theorem openSession_within (repo : RepositoryClass) (newSessionId : Uuid) (draw : AccessDraw)
    (request : AccessRequest) (vpnStatus : VpnStatus) (context : UserContext) (userId : Uuid)
    (policy : TenantSecurityPolicy) (location : LocationCandidate) (authorizedUntil : Instant) :
    (openSession repo newSessionId draw request vpnStatus context userId policy location
      authorizedUntil).Within fun _ => True := by
  unfold openSession
  apply within_bind
  · exact within_bind (updateWhere_within ..) fun _ => within_pure _
  intro _
  apply within_bind within_query
  rintro (_ | session)
  · exact within_bind (within_execute fun _ _ _ _ _ => trivial) fun _ => within_pure _
  · dsimp only
    split
    · exact within_raise _
    · refine within_bind ?_ fun _ => within_pure _
      exact within_bind (within_execute fun _ _ _ _ _ => trivial) fun _ => within_pure _

theorem createOrReuse_endsAtCommit (rt : Runtime) (repo : RepositoryClass) (newSessionId : Uuid)
    (draw : AccessDraw) (request : AccessRequest) :
    (createOrReuse rt repo newSessionId draw request).EndsAtCommit := by
  unfold createOrReuse
  apply endsAtCommit_bind (Q := fun _ => True) (within_done _)
  intro vpnStatus
  refine endsAtCommit_attempt ?_ fun e => trivial
  apply endsAtCommit_bind (Q := fun _ => True) within_query
  intro _
  apply endsAtCommit_bind (Q := fun _ => True) within_query
  intro userId
  apply endsAtCommit_bind (Q := fun _ => True) within_query
  intro context
  apply endsAtCommit_bind (Q := fun _ => True) within_query
  intro policy
  apply endsAtCommit_bind (Q := fun _ => True)
  · exact within_bind (within_execute fun _ _ _ _ _ => trivial) fun _ => within_done _
  intro _
  apply endsAtCommit_bind (matchPosition_reads ..).1
  rintro ⟨location, distance⟩
  apply endsAtCommit_bind (scheduleAt_reads ..).1
  intro schedule
  apply endsAtCommit_bind (authorize_reads ..).1
  rintro ⟨roles, permissions⟩
  apply endsAtCommit_bind (openSession_within ..)
  rintro ⟨accessSessionId, expiry⟩
  apply endsAtCommit_bind (Q := fun _ => True) (within_execute fun _ _ _ _ _ => trivial)
  intro _
  apply endsAtCommit_bind (Q := fun _ => True) (within_done _)
  exact fun token => ⟨_, rfl⟩

/-! ## Overlapping calls -/

structure AccessCall where
  newSessionId : Uuid
  draw : AccessDraw
  request : AccessRequest

structure AccessCall.ForDevice (c : AccessCall) (db : Database) (tenantId userId deviceId : Uuid) :
    Prop where
  tenant : c.request.tenantId = tenantId
  device : c.request.deviceId = deviceId
  user : ∀ id, db.resolveIdentityUser c.request.identity = .ok id → id = userId

def accessCalls (rt : Runtime) (repo : RepositoryClass) (calls : List AccessCall) (db : Database) :
    TxState AccessResponse :=
  State.initial db (calls.map fun c => createOrReuse rt repo c.newSessionId c.draw c.request)

/-- The later answer has the session of the earlier one, or it came too late for it. -/
def Reuses (calls : List AccessCall) (earlier later : Nat × AccessResponse) : Prop :=
  later.2.accessSessionId = earlier.2.accessSessionId ∨
    ∃ c, calls[later.1]? = some c ∧ earlier.2.expiresAt ≤ c.draw.now

def StoresSession (db : Database) (tenantId userId deviceId : Uuid) (a : AccessResponse) : Prop :=
  ∃ r, db.activeUserSession tenantId userId deviceId = some r ∧
    r.accessSessionId = a.accessSessionId ∧ r.expiresAt = a.expiresAt

section Calls

variable {rt : Runtime} {repo : RepositoryClass} {calls : List AccessCall} {db : Database}
  {tenantId userId deviceId : Uuid} {order : List Nat} {s t : TxState AccessResponse} {i : Nat}

def accessTermsAt (db₀ : Database) (tenantId userId deviceId : Uuid) (calls : List AccessCall) (i : Nat) :
    Terms Database Write RowLock StatementName Failure AccessResponse :=
  match calls[i]? with
  | some c => accessTerms db₀ tenantId userId deviceId c.draw.now
  | none => { accessTerms db₀ tenantId userId deviceId 0 with commits := fun _ _ _ => False }

structure OneSession (db₀ : Database) (tenantId userId deviceId : Uuid) (calls : List AccessCall)
    (order : List Nat) (s : TxState AccessResponse) : Prop where
  kept : (sessionGuard deviceId).Kept (accessTermsAt db₀ tenantId userId deviceId calls)
    (fun _ db => SameIdentities db db₀) RowLock.conflicts order s
  ends : s.EndAtCommit order
  stored : ∀ x ∈ (s.answers order).getLast?, StoresSession s.committed tenantId userId deviceId x.2
  chain : (s.answers order).IsChain (Reuses calls)

theorem accessTermsAt_rely {db d : Database} {g : TxProgress} {n : Nat} (hsame : SameIdentities d db)
    (hcurrent : (sessionGuard deviceId).Current g d) :
    (accessTermsAt db tenantId userId deviceId calls i).rely n g d := by
  unfold accessTermsAt
  split <;> exact ⟨hsame, hcurrent⟩

theorem accessTermsAt_always {g : TxProgress} {n : Nat}
    (h : (accessTermsAt db tenantId userId deviceId calls i).always n g) :
    (sessionGuard deviceId).Covers g ∧ InsertsFresh tenantId userId deviceId g := by
  unfold accessTermsAt at h
  split at h <;> exact h

theorem accessTermsAt_returns {g : TxProgress} {n : Nat} {a : AccessResponse}
    (h : (accessTermsAt db tenantId userId deviceId calls i).returns (.ok a) n g) :
    n = 1 ∧ openedSession g = some (a.accessSessionId, a.expiresAt) := by
  unfold accessTermsAt at h
  split at h <;> exact h a rfl

theorem accessTermsAt_commits {g : TxProgress} {n : Nat} {d : Database}
    (h : (accessTermsAt db tenantId userId deviceId calls i).commits n g d) :
    ∃ c opened, calls[i]? = some c ∧ n = 0 ∧ SameIdentities (replayAll g.pending d) d ∧
      openedSession g = some opened ∧
        Opens tenantId userId deviceId c.draw.now opened d (replayAll g.pending d) := by
  unfold accessTermsAt at h
  split at h
  · rename_i c hc
    obtain ⟨hn, hsame, opened, hopened, hopens⟩ := h
    exact ⟨c, opened, hc, hn, hsame, hopened, hopens⟩
  · cases h

theorem SameIdentities.trans {a b c : Database} (h : SameIdentities a b) (k : SameIdentities b c) :
    SameIdentities a c :=
  ⟨h.identities.trans k.identities, h.users.trans k.users, h.principals.trans k.principals⟩

theorem sessionGuard_conflicts (deviceId : Uuid) :
    RowLock.conflicts (sessionGuard deviceId).lock (sessionGuard deviceId).lock = true := by
  simp [sessionGuard, RowLock.conflicts, rowLock, LockMode.conflicts]

/-- The call that has just committed answers with the session that is now active, and had found
the one that was active before. -/
theorem OneSession.commit (h : OneSession db tenantId userId deviceId calls order s)
    (hstep : s.step RowLock.conflicts i = some t) (hi : s.commitsNext i = true) :
    ∃ a c, t.answer i = some a ∧ calls[i]? = some c ∧
      StoresSession t.committed tenantId userId deviceId a ∧
      ∀ r, s.committed.activeUserSession tenantId userId deviceId = some r →
        a.accessSessionId = r.accessSessionId ∨ r.expiresAt ≤ c.draw.now := by
  have hrelies := h.kept.relies (i := i) fun _ _ _ _ hsame hcurrent => accessTermsAt_rely hsame hcurrent
  obtain ⟨a, c, hc, hcommit, hreturned, hanswer⟩ := h.ends.answer_of_commit hstep hi
  have hkeeps := h.kept.keeps.step hrelies hstep i _ hreturned
  have hopened := (accessTermsAt_returns hkeeps.2).2
  rcases h.kept.keeps.committed hrelies hstep with ⟨hno, _⟩ | ⟨d, hd, _, _, _, hcommits, hdb⟩
  · rw [hno] at hi
    cases hi
  · rw [hc] at hd
    cases hd
    obtain ⟨call, opened, hcall, _, _, hopened', hopens⟩ := accessTermsAt_commits hcommits
    have hsame : opened = (a.accessSessionId, a.expiresAt) :=
      Option.some.inj (hopened'.symm.trans hopened)
    subst hsame
    refine ⟨a, call, hanswer, hcall, ?_, hopens.reused⟩
    rw [hdb]
    exact hopens.stored

theorem OneSession.step (h : OneSession db tenantId userId deviceId calls order s)
    (hstep : s.step RowLock.conflicts i = some t) :
    OneSession db tenantId userId deviceId calls (s.orderAfter i order) t := by
  have hkept := h.kept.step RowLock.conflicts_comm (sessionGuard_conflicts deviceId)
    (fun _ _ _ halways => (accessTermsAt_always halways).1)
    (fun _ _ _ _ hsame hcurrent => accessTermsAt_rely hsame hcurrent)
    (fun _ _ _ _ hsame hcommits => by
      obtain ⟨_, _, _, _, hafter, _⟩ := accessTermsAt_commits hcommits
      exact hafter.trans hsame) hstep
  cases hi : s.commitsNext i with
  | false =>
    have hanswers : t.answers (s.orderAfter i order) = s.answers order := by
      simp only [State.orderAfter, hi, Bool.false_eq_true, if_false, List.append_nil]
      exact h.ends.answers_step hstep
    refine ⟨hkept, h.ends.step hstep, ?_, ?_⟩
    · rw [hanswers, State.committed_of_not_commitsNext hstep hi]
      exact h.stored
    · rw [hanswers]
      exact h.chain
  | true =>
    obtain ⟨a, c, ha, hc, hstored, hreused⟩ := h.commit hstep hi
    have hanswers : t.answers (s.orderAfter i order) = s.answers order ++ [(i, a)] := by
      simp only [State.orderAfter, hi, if_true]
      exact h.ends.answers_commit hstep ha
    refine ⟨hkept, h.ends.step hstep, ?_, ?_⟩
    · rw [hanswers, List.getLast?_append]
      intro x hx
      cases hx
      exact hstored
    · rw [hanswers, List.isChain_append]
      refine ⟨h.chain, List.isChain_singleton _, ?_⟩
      intro x hx y hy
      cases hy
      obtain ⟨r, hr, hid, hexpiry⟩ := h.stored x hx
      rcases hreused r hr with hsame | hlate
      · exact Or.inl (hsame.trans hid)
      · exact Or.inr ⟨c, hc, hexpiry ▸ hlate⟩

theorem oneSession_initial (hcalls : ∀ c ∈ calls, c.ForDevice db tenantId userId deviceId) :
    OneSession db tenantId userId deviceId calls [] (accessCalls rt repo calls db) := by
  refine ⟨?_, ?_, nofun, List.IsChain.nil⟩
  · apply Guard.kept_initial
    · intro i p hp
      rw [List.getElem?_map] at hp
      obtain ⟨c, hc, rfl⟩ := Option.map_eq_some_iff.mp hp
      obtain ⟨ht, hd, hu⟩ := hcalls c (List.mem_of_getElem? hc)
      simp only [accessTermsAt, hc]
      rw [← ht, ← hd]
      exact createOrReuse_keeps hu
    · exact ⟨rfl, rfl, rfl⟩
  · apply State.endAtCommit_initial
    intro p hp
    obtain ⟨c, _, rfl⟩ := List.mem_map.mp hp
    exact createOrReuse_endsAtCommit ..

/-- What each state of a run of calls for one device keeps to. -/
theorem oneSession_of_run (hcalls : ∀ c ∈ calls, c.ForDevice db tenantId userId deviceId)
    {schedule : List Nat} (hrun : (accessCalls rt repo calls db).run RowLock.conflicts schedule = some s) :
    OneSession db tenantId userId deviceId calls
      ((accessCalls rt repo calls db).commitOrder RowLock.conflicts schedule) s := by
  have h := State.invariant_of_run (fun _ _ _ _ hs => hs.step) (oneSession_initial hcalls) hrun
  rwa [List.nil_append] at h

end Calls

def Database.activeSessions (db : Database) (tenantId userId deviceId : Uuid) : List AccessSession :=
  db.accessSessions.rows.filter fun r => decide (r.tenantId = tenantId ∧ r.principalId = userId ∧
    r.deviceId = some deviceId ∧ r.actorType = .user ∧ r.status = .active)

theorem one_active_session_per_device (rt : Runtime) (repo : RepositoryClass) (calls : List AccessCall)
    (db : Database) (tenantId userId deviceId : Uuid)
    (hcalls : ∀ c ∈ calls, c.ForDevice db tenantId userId deviceId) {schedule : List Nat}
    {s : TxState AccessResponse}
    (hrun : (accessCalls rt repo calls db).run RowLock.conflicts schedule = some s) :
    let order := (accessCalls rt repo calls db).commitOrder RowLock.conflicts schedule
    (s.committed.activeSessions tenantId userId deviceId).length ≤ 1 ∧
      (∀ (i : Nat) (c : Call Database Write RowLock StatementName Failure AccessResponse),
        s.calls[i]? = some c → InsertsFresh tenantId userId deviceId c.progress) ∧
      (∀ i, i ∈ order ↔ ∃ a, s.answer i = some a) ∧ order.Nodup ∧
      (s.answers order).IsChain (Reuses calls) ∧
      ∀ x ∈ (s.answers order).getLast?, StoresSession s.committed tenantId userId deviceId x.2 := by
  intro order
  have h := oneSession_of_run hcalls hrun
  have hcount : ∀ i a, s.answer i = some a → order.count i = 1 := by
    intro i a ha
    obtain ⟨c, hc, hdone⟩ := State.answer_eq_some_iff.mp ha
    have hkeeps := h.kept.keeps i c hc
    rw [hdone] at hkeeps
    exact (accessTermsAt_returns hkeeps.2).1
  refine ⟨?_, ?_, ?_, ?_, h.chain, h.stored⟩
  · apply Table.length_filter_le_one (activeEntry tenantId userId deviceId)
    exact fun r hr => activeEntry_mem_iff.mpr (of_decide_eq_true hr)
  · exact fun i (c : Call _ _ _ _ _ _) hc => (accessTermsAt_always (h.kept.keeps i c hc).always).2
  · intro i
    refine ⟨h.ends.answered i, ?_⟩
    rintro ⟨a, ha⟩
    have hone := hcount i a ha
    exact List.count_pos_iff.mp (by omega)
  · rw [List.nodup_iff_count_le_one]
    intro i
    by_cases hi : i ∈ order
    · obtain ⟨a, ha⟩ := h.ends.answered i hi
      exact Nat.le_of_eq (hcount i a ha)
    · rw [List.count_eq_zero.mpr hi]
      exact Nat.zero_le 1

def twoRequests : List AccessCall :=
  [⟨"session-1", drawAt 0 "evaluation-1", requestAt 0⟩, ⟨"session-2", drawAt 10 "evaluation-2", requestAt 10⟩]

/-- The second request has begun before the first one takes the lock, and reuses its session. -/
theorem second_request_reuses_session : ∃ s : TxState AccessResponse,
    (accessCalls workplaceRuntime .groupAware twoRequests workplace).run RowLock.conflicts
      (List.replicate 4 1 ++ List.replicate 16 0 ++ List.replicate 12 1) = some s ∧
    (s.committed.activeSessions "tenant" "user" "phone").length ≤ 1 ∧
    (s.answers [0, 1]).map (fun x => (x.1, x.2.accessSessionId)) =
      [(0, "session-1"), (1, "session-1")] := by
  have hrun : (((accessCalls workplaceRuntime .groupAware twoRequests workplace).run
      RowLock.conflicts (List.replicate 4 1 ++ List.replicate 16 0 ++ List.replicate 12 1)).map fun s =>
        (s.answers [0, 1]).map fun x => (x.1, x.2.accessSessionId)) =
      some [(0, "session-1"), (1, "session-1")] := by
    decide +kernel
  obtain ⟨s, hs, hanswers⟩ := Option.map_eq_some_iff.mp hrun
  have hcalls : ∀ c ∈ twoRequests, c.ForDevice workplace "tenant" "user" "phone" := by
    have huser : ∀ later, workplace.resolveIdentityUser (requestAt later).identity = .ok "user" := by
      intro later
      change workplace.resolveIdentityUser ⟨.clerk, "user_1"⟩ = .ok "user"
      decide +kernel
    have hfor : ∀ id later draw, AccessCall.ForDevice ⟨id, draw, requestAt later⟩ workplace "tenant" "user"
        "phone" := fun _ later _ => ⟨rfl, rfl, fun _ hid => Except.ok.inj (hid.symm.trans (huser later))⟩
    intro c hc
    rcases List.mem_pair.mp hc with rfl | rfl
    · exact hfor ..
    · exact hfor ..
  have hone := one_active_session_per_device workplaceRuntime .groupAware twoRequests workplace "tenant"
    "user" "phone" hcalls hs
  exact ⟨s, hs, hone.1, hanswers⟩

end VerigenceSecurity
