import VerigenceSecurity.DeviceSessions
import VerigenceSecurity.UserStatusChanges

/-! # The sessions of deactivated users

Overlapping calls of `create_or_reuse` and `set_user_status`. A deactivation revokes the sessions
that it sees, and an access call looks at the status of its user once, without a lock. What the two
leave behind depends on what has been committed between these reads and the commits.
-/

namespace VerigenceSecurity
set_option autoImplicit false

open Transaction Program Relational

/-! ## Active sessions -/

/-- A session that was active before, unless the write inserts it. -/
theorem active_of_apply {w : Write} {db : Database} {r : AccessSession}
    (hr : r ∈ (w.apply db).accessSessions.rows) (hactive : r.status = .active) :
    (∃ o ∈ db.accessSessions.rows, o.accessSessionId = r.accessSessionId ∧
      o.principalId = r.principalId ∧ o.actorType = r.actorType ∧ o.status = .active) ∨
    w = .insertAccessSession r := by
  have hkept : r ∈ db.accessSessions.rows → (∃ o ∈ db.accessSessions.rows,
      o.accessSessionId = r.accessSessionId ∧ o.principalId = r.principalId ∧
        o.actorType = r.actorType ∧ o.status = .active) ∨ w = .insertAccessSession r :=
    fun h => Or.inl ⟨r, h, rfl, rfl, rfl, hactive⟩
  cases w with
  | insertAccessSession row =>
    rcases Table.mem_insert hr with h | rfl
    · exact hkept h
    · exact Or.inr rfl
  | expireStaleUserSessions ids tenantId userId deviceId now =>
    simp only [Write.apply] at hr
    obtain ⟨o, ho, ⟨_, rfl⟩ | ⟨_, rfl⟩⟩ := Table.mem_update.mp hr
    · cases hactive
    · exact hkept ho
  | revokeActiveUserSession accessSessionId tenantId userId =>
    simp only [Write.apply] at hr
    obtain ⟨o, ho, ⟨_, rfl⟩ | ⟨_, rfl⟩⟩ := Table.mem_update.mp hr
    · cases hactive
    · exact hkept ho
  | revokeUserSessions ids userId now =>
    simp only [Write.apply] at hr
    obtain ⟨o, ho, ⟨_, rfl⟩ | ⟨_, rfl⟩⟩ := Table.mem_update.mp hr
    · cases hactive
    · exact hkept ho
  | updateReusedUserSession accessSessionId sourceIp vpnStatus authorizationVersion expiresAt now =>
    simp only [Write.apply] at hr
    obtain ⟨o, ho, ⟨hw, rfl⟩ | ⟨_, rfl⟩⟩ := Table.mem_update.mp hr
    · refine Or.inl ⟨o, ho, ?_, ?_, ?_, (of_decide_eq_true hw).2⟩
      all_goals
        unfold AccessSession.renewed
        split <;> rfl
    · exact hkept ho
  | updateActiveSessionContext accessSessionId tenantId userId locationId sourceIp vpnStatus
      authorizationVersion expiresAt now =>
    simp only [Write.apply] at hr
    obtain ⟨o, ho, ⟨hw, rfl⟩ | ⟨_, rfl⟩⟩ := Table.mem_update.mp hr
    · refine Or.inl ⟨o, ho, ?_, ?_, ?_, (of_decide_eq_true hw).2.2.2.2⟩
      all_goals
        simp only [AccessSession.renewed]
        split <;> rfl
    · exact hkept ho
  | _ => exact hkept hr

def Database.HasActive (db : Database) (userId id : Uuid) : Prop :=
  ∃ r ∈ db.activeSessionsOf userId, r.accessSessionId = id

instance (db : Database) (userId id : Uuid) : Decidable (db.HasActive userId id) :=
  inferInstanceAs (Decidable (∃ r ∈ _, _))

section Replays

variable {db : Database} {userId id : Uuid} {ws : List Write}

theorem hasActive_iff : db.HasActive userId id ↔ ∃ r ∈ db.accessSessions.rows,
    r.accessSessionId = id ∧ r.principalId = userId ∧ r.actorType = .user ∧ r.status = .active := by
  simp only [Database.HasActive, Database.activeSessionsOf, List.mem_filter, decide_eq_true_eq]
  constructor
  · rintro ⟨r, ⟨hr, hactive⟩, hid⟩
    exact ⟨r, hr, hid, hactive⟩
  · rintro ⟨r, hr, hid, hactive⟩
    exact ⟨r, ⟨hr, hactive⟩, hid⟩

def insertedSession? : Write → Option AccessSession
  | .insertAccessSession row => some row
  | _ => none

def Write.OpensFor (userId : Uuid) (w : Write) : Prop :=
  ∃ row ∈ insertedSession? w, row.principalId = userId ∧ row.status = .active

instance (userId : Uuid) (w : Write) : Decidable (w.OpensFor userId) :=
  inferInstanceAs (Decidable (∃ row ∈ insertedSession? w, _ ∧ _))

theorem opensFor_insert {userId : Uuid} {row : AccessSession} :
    (Write.insertAccessSession row).OpensFor userId ↔
      row.principalId = userId ∧ row.status = .active := by
  constructor
  · rintro ⟨_, hrow, h⟩
    obtain rfl := Option.mem_some_iff.mp hrow
    exact h
  · exact fun h => ⟨row, rfl, h⟩

theorem not_opensFor {userId : Uuid} {w : Write} (h : insertedSession? w = none) :
    ¬ w.OpensFor userId := by
  rintro ⟨row, hrow, _⟩
  rw [h] at hrow
  cases hrow

theorem hasActive_of_apply {w : Write} (hw : ¬ w.OpensFor userId)
    (h : (w.apply db).HasActive userId id) : db.HasActive userId id := by
  obtain ⟨r, hr, hid, huser, hactor, hactive⟩ := hasActive_iff.mp h
  rcases active_of_apply hr hactive with ⟨o, ho, hoid, houser, hoactor, hoactive⟩ | rfl
  · exact hasActive_iff.mpr ⟨o, ho, hoid.trans hid, houser.trans huser, hoactor.trans hactor, hoactive⟩
  · exact absurd (opensFor_insert.mpr ⟨huser, hactive⟩) hw

theorem hasActive_of_replayAll (hws : ∀ w ∈ ws, ¬ w.OpensFor userId)
    (h : (replayAll ws db).HasActive userId id) : db.HasActive userId id := by
  induction ws generalizing db with
  | nil => exact h
  | cons w ws ih =>
    have hrest := ih (fun v hv => hws v (List.mem_cons_of_mem w hv)) h
    exact hasActive_of_apply (hws w List.mem_cons_self) hrest

theorem not_hasActive_revoked {ids : List Uuid} {now : Instant} (hid : id ∈ ids) :
    ¬ (Write.apply db (.revokeUserSessions ids userId now)).HasActive userId id := by
  intro h
  obtain ⟨r, hr, hrid, huser, hactor, hactive⟩ := hasActive_iff.mp h
  simp only [Write.apply] at hr
  obtain ⟨o, ho, ⟨_, rfl⟩ | ⟨hw, rfl⟩⟩ := Table.mem_update.mp hr
  · cases hactive
  · exact of_decide_eq_false hw ⟨hrid ▸ hid, huser, hactor, hactive⟩

/-- What is revoked on the way is not active at the end. -/
theorem not_hasActive_of_revoked {ids : List Uuid} {now : Instant}
    (hws : ∀ w ∈ ws, ¬ w.OpensFor userId) (hrevoked : .revokeUserSessions ids userId now ∈ ws)
    (hid : id ∈ ids) : ¬ (replayAll ws db).HasActive userId id := by
  induction ws generalizing db with
  | nil => cases hrevoked
  | cons w ws ih =>
    have hrest : ∀ v ∈ ws, ¬ v.OpensFor userId := fun v hv => hws v (List.mem_cons_of_mem w hv)
    rcases List.mem_cons.mp hrevoked with rfl | hrevoked
    · intro h
      exact not_hasActive_revoked hid (hasActive_of_replayAll hrest h)
    · exact ih hrest hrevoked

theorem statusOf_congr {db' : Database} (h : db'.users = db.users) :
    db'.statusOf userId = db.statusOf userId := by
  unfold Database.statusOf Database.userRow?
  rw [h]

end Replays

/-! ## The writes of an access call -/

def Write.opensAccess : Write → Bool
  | .expireStaleUserSessions .. | .insertAccessSession _ | .updateReusedUserSession ..
  | .insertEvaluation _ => true
  | _ => false

def Write.OfAccess (userId : Uuid) (w : Write) : Prop :=
  w.opensAccess = true ∧ ∀ u, w.OpensFor u → u = userId

theorem users_of_opensAccess {ws : List Write} (h : ∀ w ∈ ws, w.opensAccess = true) (db : Database) :
    (replayAll ws db).users = db.users := by
  induction ws generalizing db with
  | nil => rfl
  | cons w ws ih =>
    have hw : (w.apply db).users = db.users := by
      have hone := h w List.mem_cons_self
      cases w with
      | expireStaleUserSessions | insertAccessSession | updateReusedUserSession | insertEvaluation => rfl
      | _ => cases hone
    exact (ih (fun v hv => h v (List.mem_cons_of_mem w hv)) (w.apply db)).trans hw

theorem within_openSession (repo : RepositoryClass) (newSessionId : Uuid) (draw : AccessDraw)
    (request : AccessRequest) (vpnStatus : VpnStatus) (context : UserContext) (userId : Uuid)
    (policy : TenantSecurityPolicy) (location : LocationCandidate) (authorizedUntil : Instant) :
    (openSession repo newSessionId draw request vpnStatus context userId policy location
      authorizedUntil).Within (Write.OfAccess userId) := by
  unfold openSession
  apply within_bind
  · refine within_bind (within_bind within_query fun _ => within_execute ?_) fun _ => within_pure _
    intro db o ho w hw
    cases ho
    rw [List.mem_singleton.mp hw]
    exact ⟨rfl, fun _ h => absurd h (not_opensFor rfl)⟩
  intro _
  apply within_bind within_query
  rintro (_ | session)
  · refine within_bind (within_execute ?_) fun _ => within_pure _
    intro db o ho w hw
    split at ho
    · rw [(insertRow_ok ho).2.2, List.mem_singleton] at hw
      rw [hw]
      exact ⟨rfl, fun _ h => (opensFor_insert.mp h).1.symm⟩
    · cases ho
  · dsimp only
    split
    · exact within_raise _
    · refine within_bind (within_bind (within_execute ?_) fun _ => within_pure _) fun _ => within_pure _
      intro db o ho w hw
      dsimp only at ho
      split at ho
      · cases ho
        cases hw
      · split at ho
        · cases ho
          rw [List.mem_singleton.mp hw]
          exact ⟨rfl, fun _ h => absurd h (not_opensFor rfl)⟩
        · cases ho

theorem within_recordEvaluation (row : AccessContextEvaluation) (userId : Uuid) :
    (recordEvaluation row).Within (Write.OfAccess userId) := by
  apply within_execute
  intro db o ho w hw
  rw [(insertRow_ok (fits_ok ho).2).2.2, List.mem_singleton] at hw
  rw [hw]
  exact ⟨rfl, fun _ h => absurd h (not_opensFor rfl)⟩

/-- Both contexts are those of an active user. -/
theorem statusOf_of_context {db : Database} {repo : RepositoryClass} {userId tenantId : Uuid}
    {now : Instant} {context : UserContext} (h : (match repo with
      | .security => db.membershipContext userId tenantId now
      | .groupAware => db.globalContext userId tenantId) = .ok context) :
    db.statusOf userId = some .active := by
  unfold Database.statusOf
  cases repo with
  | security =>
    unfold Database.membershipContext at h
    cases hrow : db.userRow? userId with
    | none =>
      rw [hrow] at h
      cases h
    | some user =>
      simp only [hrow] at h
      split at h
      · cases h
      · rename_i hactive
        rw [Option.map_some, not_not.mp hactive]
  | groupAware =>
    dsimp only at h
    unfold Database.globalContext at h
    split at h
    · rename_i user principal huser _
      split at h
      · cases h
      · split at h
        · cases h
        · rename_i hactive
          rw [huser, Option.map_some, not_not.mp hactive]
    · cases h

/-- An access call that has read its user as active, and the writes of that user that it is to
commit. -/
structure ForActiveUser (userId : Uuid) (g : TxProgress) : Prop where
  read : Saw g .getUserContext fun db => db.statusOf userId = some .active
  pending : ∀ w ∈ g.pending, w.OfAccess userId

section AccessRules

variable {α β : Type} {userId : Uuid} {p : Tx β} {k : β → Tx α} {P : TxProgress → Prop}
  {g : TxProgress}

theorem commits_ofAccess_bind (hp : p.Within (Write.OfAccess userId)) (hg : ForActiveUser userId g)
    (h : ∀ b g', ForActiveUser userId g' → (k b).Commits P g') : (p >>= k).Commits P g := by
  apply commits_within_bind hp
  intro b es g' hext hes
  obtain ⟨e, he, hlabel, hactive⟩ := hg.read
  refine h b g' ⟨⟨e, hext.history e he, hlabel, hactive⟩, fun w hw => ?_⟩
  rw [hext.pending, List.mem_append] at hw
  exact hw.elim (hg.pending w) (hes w)

theorem commits_reads_bind (hp : p.Within fun _ => False)
    (h : ∀ b g', g.Extends [] g' → (k b).Commits P g') : (p >>= k).Commits P g := by
  apply commits_within_bind hp
  intro b es g' hext hes
  obtain rfl : es = [] := List.eq_nil_iff_forall_not_mem.mpr hes
  exact h b g' hext

end AccessRules

/-- An access call commits for a user whom it has read as active. -/
theorem commits_createOrReuse (rt : Runtime) (repo : RepositoryClass) (newSessionId : Uuid)
    (draw : AccessDraw) (request : AccessRequest) :
    (createOrReuse rt repo newSessionId draw request).Commits
      (fun g => ∃ userId, ForActiveUser userId g) Progress.start := by
  have hreads : ∀ {α : Type} {p : Tx α} {userId : Uuid}, p.Within (fun _ => False) →
      p.Within (Write.OfAccess userId) := fun h => h.weaken fun _ hf => hf.elim
  unfold createOrReuse
  refine commits_reads_bind (within_done _) fun vpnStatus g₁ hrisk => ?_
  refine commits_attempt ?_ fun _ _ => commits_rollbackAndRaise
  refine commits_reads_bind within_query fun _ g₂ htenant => ?_
  refine commits_reads_bind within_query fun userId g₃ hidentity => ?_
  have hnone : g₃.pending = [] := by
    rw [hidentity.pending, htenant.pending, hrisk.pending]
    rfl
  refine commits_query_bind fun db context hcontext => ?_
  rw [hnone] at hcontext
  have hread : ForActiveUser userId (g₃.failed .getUserContext db) :=
    ⟨⟨_, List.mem_cons_self, rfl, statusOf_of_context hcontext⟩, by simp [Progress.failed, hnone]⟩
  refine commits_ofAccess_bind within_query hread fun policy g₄ hpolicy => ?_
  refine commits_ofAccess_bind ?_ hpolicy fun _ g₅ hdevice => ?_
  · refine within_bind (within_execute ?_) fun _ => within_done _
    intro db o ho w hw
    cases ho
    cases hw
  refine commits_ofAccess_bind (hreads (matchPosition_reads ..).1) hdevice ?_
  rintro ⟨location, distance⟩ g₆ hposition
  refine commits_ofAccess_bind (hreads (scheduleAt_reads ..).1) hposition fun schedule g₇ hschedule => ?_
  refine commits_ofAccess_bind (hreads (authorize_reads ..).1) hschedule ?_
  rintro ⟨roles, permissions⟩ g₈ hauthorized
  refine commits_ofAccess_bind (within_openSession ..) hauthorized ?_
  rintro ⟨accessSessionId, expiry⟩ g₉ hopened
  refine commits_ofAccess_bind (within_recordEvaluation _ _) hopened fun _ g' hrecorded => ?_
  refine commits_ofAccess_bind (within_done _) hrecorded fun token g'' hsigned => ?_
  exact commits_commitNow_bind ⟨userId, hsigned⟩ (commits_pure _)

/-! ## Overlapping calls -/

inductive UserCall
  | createOrReuse (rt : Runtime) (repo : RepositoryClass) (newSessionId : Uuid) (draw : AccessDraw)
      (request : AccessRequest)
  | setUserStatus (upper : String → String) (clerk : ClerkAnswers) (c : AdminCall) (userId : Uuid)
      (newStatus : String) (reason : Option String)

def UserCall.program : UserCall → Tx Unit
  | createOrReuse rt repo newSessionId draw request =>
    discard (VerigenceSecurity.createOrReuse rt repo newSessionId draw request)
  | setUserStatus upper clerk c userId newStatus reason =>
    discard (VerigenceSecurity.setUserStatus upper clerk c userId newStatus reason)

def userCalls (calls : List UserCall) (db : Database) : TxState Unit :=
  State.initial db (calls.map UserCall.program)

def UserCall.Effect (g : TxProgress) : UserCall → Prop
  | createOrReuse .. => ∃ userId, ForActiveUser userId g
  | setUserStatus _ _ c userId _ _ => ∃ target rest,
      g.pending = .updateUserStatus userId target c.now :: rest ∧
      (∀ w ∈ rest, w.followsStatus = true) ∧
      (target ≠ .active → RevokesFound g [.updateUserStatus userId target c.now] userId c.now rest)

theorem UserCall.commits (call : UserCall) :
    call.program.Commits (fun g => call.Effect g) Progress.start := by
  cases call with
  | createOrReuse rt repo newSessionId draw request =>
    exact commits_discard (commits_createOrReuse rt repo newSessionId draw request)
  | setUserStatus upper clerk c userId newStatus reason =>
    exact commits_discard (commits_setUserStatus fun target _ rest _ _ _ _ hpending hrest hrevoked =>
      ⟨target, rest, hpending, hrest, hrevoked⟩)

/-- A user who is not active has no active session. -/
def Database.SessionsClosed (db : Database) (userId : Uuid) : Prop :=
  ∀ status, db.statusOf userId = some status → status ≠ .active → db.activeSessionsOf userId = []

/-- Nothing that the call relies on has changed since it looked. An access call that is to commit a
session of the user read an active user, who is active still; a deactivation selected the sessions
of the user when those that are active now were committed. -/
def UserCall.Unovertaken (userId : Uuid) (g : TxProgress) (db : Database) : UserCall → Prop
  | createOrReuse .. => (∃ w ∈ g.pending, w.OpensFor userId) →
      ∀ e ∈ g.history, e.label = .getUserContext → e.committed.statusOf userId = some .active →
        db.statusOf userId = some .active
  | setUserStatus _ _ _ user _ _ => user = userId →
      ∀ e ∈ g.history, e.label = .snapshot .revokeUserSessions ∨ e.label = .revokeUserSessions →
        ∀ r ∈ db.activeSessionsOf userId, e.committed.HasActive userId r.accessSessionId

instance (userId : Uuid) (g : TxProgress) (db : Database) :
    (call : UserCall) → Decidable (call.Unovertaken userId g db)
  | .createOrReuse .. => inferInstanceAs (Decidable ((∃ w ∈ g.pending, _) → ∀ e ∈ g.history, _ → _ → _))
  | .setUserStatus .. => inferInstanceAs (Decidable (_ = _ → ∀ e ∈ g.history, _ ∨ _ →
      ∀ r ∈ db.activeSessionsOf userId, _))

def CommitsUnovertaken (userId : Uuid) (calls : List UserCall) (s : TxState Unit) (i : Nat) : Prop :=
  ∀ call ∈ calls[i]?, ∀ c ∈ s.calls[i]?, c.committing = true →
    call.Unovertaken userId c.progress s.committed

instance (userId : Uuid) (calls : List UserCall) (s : TxState Unit) (i : Nat) :
    Decidable (CommitsUnovertaken userId calls s i) :=
  inferInstanceAs (Decidable (∀ call ∈ calls[i]?, ∀ c ∈ s.calls[i]?, _ → _))

theorem activeSessionsOf_eq_nil_iff {db : Database} {userId : Uuid} :
    db.activeSessionsOf userId = [] ↔ ∀ id, ¬ db.HasActive userId id := by
  rw [List.eq_nil_iff_forall_not_mem]
  constructor
  · rintro h id ⟨r, hr, _⟩
    exact h r hr
  · intro h r hr
    exact h r.accessSessionId ⟨r, hr, rfl⟩

theorem not_opensFor_of_followsStatus {w : Write} {userId : Uuid} (h : w.followsStatus = true) :
    ¬ w.OpensFor userId := by
  cases w with
  | insertAccessSession row => cases h
  | _ => exact not_opensFor rfl

/-- An access call leaves the users alone, and opens a session of an active user only. -/
theorem sessionsClosed_access {ws : List Write} {db : Database} {userId : Uuid}
    (hws : ∀ w ∈ ws, w.opensAccess = true)
    (hactive : (∃ w ∈ ws, w.OpensFor userId) → db.statusOf userId = some .active)
    (h : db.SessionsClosed userId) : (replayAll ws db).SessionsClosed userId := by
  intro status hstatus hne
  rw [statusOf_congr (users_of_opensAccess hws db)] at hstatus
  have hopens : ∀ w ∈ ws, ¬ w.OpensFor userId := by
    intro w hw hopen
    rw [hactive ⟨w, hw, hopen⟩] at hstatus
    exact hne (Option.some.inj hstatus).symm
  rw [activeSessionsOf_eq_nil_iff]
  intro id hid
  exact activeSessionsOf_eq_nil_iff.mp (h status hstatus hne) id (hasActive_of_replayAll hopens hid)

/-- What was active whenever the deactivation looked is among the sessions that it revokes. -/
theorem mem_of_foundActive {g : TxProgress} {db : Database} {userId : Uuid} {target : UserStatus}
    {now : Instant} {ids : List Uuid} {r : AccessSession}
    (hfound : FoundTwice g [.updateUserStatus userId target now] .revokeUserSessions
      (fun db => (db.activeSessionsOf userId).map (·.accessSessionId)) ids)
    (hseen : ∀ e ∈ g.history, e.label = .snapshot .revokeUserSessions ∨ e.label = .revokeUserSessions →
      ∀ r ∈ db.activeSessionsOf userId, e.committed.HasActive userId r.accessSessionId)
    (hr : r ∈ db.activeSessionsOf userId) : r.accessSessionId ∈ ids := by
  refine hfound.mem fun e he hlabel hpending => ?_
  obtain ⟨o, ho, hid⟩ := hseen e he hlabel r hr
  have hview : e.view.activeSessionsOf userId = e.committed.activeSessionsOf userId := by
    unfold Entry.view
    rw [hpending]
    rfl
  rw [hview]
  exact List.mem_map.mpr ⟨o, ho, hid⟩

/-- A deactivation that revokes every active session of the user. -/
theorem sessionsClosed_status {rest : List Write} {db : Database} {userId user : Uuid}
    {target : UserStatus} {now : Instant} (hrest : ∀ w ∈ rest, w.followsStatus = true)
    (hrevoked : target ≠ .active → user = userId → ∃ ids, .revokeUserSessions ids user now ∈ rest ∧
      ∀ r ∈ db.activeSessionsOf userId, r.accessSessionId ∈ ids) (h : db.SessionsClosed userId) :
    (replayAll (.updateUserStatus user target now :: rest) db).SessionsClosed userId := by
  have hopens : ∀ w ∈ Write.updateUserStatus user target now :: rest, ¬ w.OpensFor userId := by
    intro w hw
    rcases List.mem_cons.mp hw with rfl | hw
    · exact not_opensFor rfl
    · exact not_opensFor_of_followsStatus (hrest w hw)
  intro status hstatus hne
  rw [activeSessionsOf_eq_nil_iff]
  intro id hid
  have hbefore := hasActive_of_replayAll hopens hid
  rw [replayAll_cons, replay_eq, statusOf_congr (replayAll_followsStatus hrest _).1] at hstatus
  by_cases huser : user = userId
  · subst huser
    have htarget : status = target := by
      unfold Database.statusOf Database.userRow? at hstatus
      simp only [Write.apply] at hstatus
      rw [Table.find?_update (by exact fun _ => rfl), Option.map_map] at hstatus
      obtain ⟨row, hrow, rfl⟩ := Option.map_eq_some_iff.mp hstatus
      have hid := List.find?_some hrow
      simp [of_decide_eq_true hid]
    obtain ⟨ids, hids, hall⟩ := hrevoked (htarget ▸ hne) rfl
    obtain ⟨r, hr, rfl⟩ := hbefore
    exact not_hasActive_of_revoked hopens (List.mem_cons_of_mem _ hids) (hall r hr) hid
  · have hother : (Write.apply db (.updateUserStatus user target now)).statusOf userId =
        db.statusOf userId := by
      unfold Database.statusOf Database.userRow?
      simp only [Write.apply]
      rw [Table.find?_update (by exact fun _ => rfl), Option.map_map]
      cases hrow : db.users.rows.find? fun r => decide (r.userId = userId) with
      | none => rfl
      | some row =>
        have hid := List.find?_some hrow
        have hrowId : ¬ row.userId = user := by
          rw [of_decide_eq_true hid]
          exact fun heq => huser heq.symm
        simp [hrowId]
    rw [hother] at hstatus
    exact activeSessionsOf_eq_nil_iff.mp (h status hstatus hne) id hbefore

/-- The commit of a call that has not been overtaken. -/
theorem UserCall.Effect.sessionsClosed {call : UserCall} {g : TxProgress} {db : Database}
    {userId : Uuid} (heffect : call.Effect g) (hok : call.Unovertaken userId g db)
    (h : db.SessionsClosed userId) : (replayAll g.pending db).SessionsClosed userId := by
  cases call with
  | createOrReuse rt repo newSessionId draw request =>
    obtain ⟨user, ⟨e, he, hlabel, hread⟩, hpending⟩ := heffect
    refine sessionsClosed_access (fun w hw => (hpending w hw).1) (fun hopens => ?_) h
    obtain ⟨w, hw, hopen⟩ := hopens
    obtain rfl := (hpending w hw).2 userId hopen
    exact hok ⟨w, hw, hopen⟩ e he hlabel hread
  | setUserStatus upper clerk c user newStatus reason =>
    obtain ⟨target, rest, hpending, hrest, hrevoked⟩ := heffect
    rw [hpending]
    refine sessionsClosed_status hrest (fun hne huser => ?_) h
    obtain ⟨ids, hfound, hids⟩ := hrevoked hne
    subst huser
    exact ⟨ids, hids, fun r hr => mem_of_foundActive hfound (hok rfl) hr⟩

/-- In a run whose commits are not overtaken, a user who is not active has no active session. -/
theorem deactivated_user_has_no_session (userId : Uuid) (calls : List UserCall) (db : Database)
    {s : TxState Unit}
    (hreach : State.Reaches RowLock.conflicts (CommitsUnovertaken userId calls) (userCalls calls db) s)
    (hclosed : db.SessionsClosed userId) : s.committed.SessionsClosed userId := by
  have hcalls : (userCalls calls db).Upholds fun i => {
      always := fun _ => True
      commits := fun g => ∃ call, calls[i]? = some call ∧ call.Effect g
      returns := fun _ _ => True } :=
    State.upholds_initial_map UserCall.commits
  induction hreach with
  | refl => exact hclosed
  | @step t u i hreach hok hstep ih =>
    rcases (hreach.upholds hcalls).committed hstep with
      hsame | ⟨c, hc, hcommit, _, ⟨call, hcall, heffect⟩, hdb⟩
    · rw [hsame]
      exact ih
    · rw [hdb]
      exact heffect.sessionsClosed (hok call hcall c hc hcommit) ih

def staffedWorkplace : Database :=
  { workplace with
    securityPrincipals := workplace.securityPrincipals.insert ⟨"admin", .user, "admin", .active⟩
    users := workplace.users.insert ⟨"admin", "Admin", none, none, none, none, .active, 0, 0⟩ }

/-- The user asks for access while an administrator suspends the user. -/
def accessAndSuspension : List UserCall :=
  [.createOrReuse workplaceRuntime .groupAware "session" (drawAt 0 "evaluation") (requestAt 0),
    .setUserStatus id ⟨.ok (), .ok ()⟩ ⟨"admin", "first", seconds 43201, "", "audit"⟩ "user"
      "SUSPENDED" none]

theorem staffedWorkplace_sessionsClosed : staffedWorkplace.SessionsClosed "user" :=
  fun _ _ _ => rfl

/-- The suspension reads the user first, but selects the sessions after the access call has committed:
it revokes the new one. -/
theorem suspension_after_access : ∃ s : TxState Unit,
    s.committed.statusOf "user" = some .suspended ∧ s.committed.activeSessionsOf "user" = [] := by
  have hok : (userCalls accessAndSuspension staffedWorkplace).Meets RowLock.conflicts
      (CommitsUnovertaken "user" accessAndSuspension)
      (([1] ++ List.replicate 16 0 ++ List.replicate 7 1) ++ []) := by
    decide +kernel
  have hrun : (((userCalls accessAndSuspension staffedWorkplace).run RowLock.conflicts
      ([1] ++ List.replicate 16 0 ++ List.replicate 7 1)).map fun s =>
        decide (s.committed.statusOf "user" = some .suspended)) = some true := by
    decide +kernel
  obtain ⟨s, hs, hcheck⟩ := Option.map_eq_some_iff.mp hrun
  have hsuspended := of_decide_eq_true hcheck
  exact ⟨s, hsuspended, deactivated_user_has_no_session "user" accessAndSuspension staffedWorkplace
    (State.reaches_of_run hok hs).1 staffedWorkplace_sessionsClosed .suspended hsuspended (by decide)⟩

/-- The access call has seen an active user; its session comes after the suspension. -/
theorem suspended_user_keeps_session : ¬ ∀ (userId : Uuid) (calls : List UserCall) (db : Database)
    (s : TxState Unit),
    State.Reaches RowLock.conflicts (fun _ _ => True) (userCalls calls db) s →
    (∀ c ∈ s.calls, c.finished = true) → db.SessionsClosed userId →
    s.committed.SessionsClosed userId := by
  intro hclaim
  have hrun : (((userCalls accessAndSuspension staffedWorkplace).run RowLock.conflicts
      ([0, 0, 0] ++ List.replicate 8 1 ++ List.replicate 13 0)).map fun s =>
        decide ((∀ c ∈ s.calls, c.finished = true) ∧ s.committed.statusOf "user" = some .suspended ∧
          s.committed.activeSessionsOf "user" ≠ [])) = some true := by
    decide +kernel
  obtain ⟨s, hs, hcheck⟩ := Option.map_eq_some_iff.mp hrun
  obtain ⟨hfinished, hsuspended, hactive⟩ := of_decide_eq_true hcheck
  have hmeets : (userCalls accessAndSuspension staffedWorkplace).Meets RowLock.conflicts (fun _ _ => True)
      (([0, 0, 0] ++ List.replicate 8 1 ++ List.replicate 13 0) ++ []) := State.meets_true _ _
  obtain ⟨hreach, _⟩ := State.reaches_of_run hmeets hs
  exact hactive (hclaim "user" accessAndSuspension staffedWorkplace s hreach hfinished
    staffedWorkplace_sessionsClosed .suspended hsuspended (by decide))

end VerigenceSecurity
