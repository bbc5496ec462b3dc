import VerigenceSecurity.SessionLocks
import VerigenceSecurity.SessionRefresh
import VerigenceSecurity.UserLifecycle

/-! # Session operations do not deadlock

`create_or_reuse`, `refresh`, `revoke` and `set_user_status` keep the order of the session
locks, each in its own way, whatever rows they meet.
-/

namespace VerigenceSecurity
set_option autoImplicit false

open Transaction Program Relational

inductive SessionOperation
  | createOrReuse (rt : Runtime) (repo : RepositoryClass) (newSessionId : Uuid) (draw : AccessDraw)
      (request : AccessRequest)
  | refresh (rt : Runtime) (repo : RepositoryClass) (denialId : Uuid) (draw : AccessDraw)
      (request : RefreshRequest)
  | revoke (accessSessionId tenantId userId : Uuid)
  | setUserStatus (upper : String → String) (clerk : ClerkAnswers) (c : AdminCall) (userId : Uuid)
      (newStatus : String) (reason : Option String)

namespace SessionOperation

def program : SessionOperation → Tx Unit
  | createOrReuse rt repo newSessionId draw request =>
    discard (VerigenceSecurity.createOrReuse rt repo newSessionId draw request)
  | refresh rt repo denialId draw request =>
    discard (VerigenceSecurity.refresh rt repo denialId draw request)
  | revoke accessSessionId tenantId userId =>
    discard (VerigenceSecurity.revoke accessSessionId tenantId userId)
  | setUserStatus upper clerk c userId newStatus reason =>
    discard (VerigenceSecurity.setUserStatus upper clerk c userId newStatus reason)

def newSession : SessionOperation → Option Uuid
  | createOrReuse _ _ newSessionId _ _ => some newSessionId
  | _ => none

end SessionOperation

abbrev LocksInOrder {α : Type} (fresh : Option Uuid) (p : Tx α) (before : List RowLock)
    (pending : List Write) (db : Database) : Prop :=
  p.Obeys (sessionDiscipline fresh) (fun _ _ _ _ => True) before pending db

/-! ## Rules -/

section Rules

variable {α β : Type} {fresh : Option Uuid} {before : List RowLock} {pending : List Write}
  {db : Database}

theorem inOrder_reads_bind {p : Tx α} {k : α → Tx β} (hp : p.Within fun _ => False)
    (hl : p.LocksOnly fun _ => False)
    (hk : ∀ a db', SessionRely fresh db db' → LocksInOrder fresh (k a) before pending db') :
    LocksInOrder fresh (p >>= k) before pending db := by
  refine obeys_bind (obeys_reads hp hl fun r db' hdb => ?_)
  cases r with
  | ok a => exact hk a db' hdb
  | error e => trivial

theorem inOrder_query_bind {name : StatementName} {read : Database → Except Failure α}
    {k : α → Tx β} (hk : ∀ db' a, SessionRely fresh db db' → read (replayAll pending db') = .ok a →
      LocksInOrder fresh (k a) before pending db') :
    LocksInOrder fresh (query name read >>= k) before pending db := by
  refine obeys_bind (obeys_query fun db' hdb => ?_)
  cases hread : read (replayAll pending db') with
  | ok a => exact hk db' a hdb hread
  | error e => trivial

theorem inOrder_execute_bind {name : StatementName}
    {run : Database → Except Failure (Outcome Write RowLock α)} {k : α → Tx β}
    (h : ∀ db' o, SessionRely fresh db db' → run (replayAll pending db') = .ok o →
      (sessionDiscipline fresh).asks db' before o.locks ∧
      (∀ w ∈ o.edits, (sessionDiscipline fresh).edits w) ∧
      LocksInOrder fresh (k o.value) (o.locks ++ before) (pending ++ o.edits) db') :
    LocksInOrder fresh (execute name run >>= k) before pending db :=
  fun db' hdb => ⟨fun _ _ => trivial, fun o ho => h db' o hdb ho⟩

theorem inOrder_updateWhere_bind {name : StatementName} {relation : Relation}
    {mode : LockMode} {find : Database → List Uuid} {write : List Uuid → Write} {k : List Uuid → Tx α}
    (h : ∀ db' ids, SessionRely fresh db db' → (∀ id ∈ ids, id ∈ find (replayAll pending db')) →
      (sessionDiscipline fresh).asks db' before (ids.map fun id => rowLock relation [id] mode) ∧
      (sessionDiscipline fresh).edits (write ids) ∧
      LocksInOrder fresh (k ids) ((ids.map fun id => rowLock relation [id] mode) ++ before)
        (pending ++ [write ids]) db') :
    LocksInOrder fresh (updateWhere name relation mode find write >>= k) before pending db := by
  unfold updateWhere
  rw [Program.bind_assoc]
  apply inOrder_query_bind
  intro db₁ found hdb₁ _
  apply inOrder_execute_bind
  intro db' o hdb₂ ho
  cases ho
  obtain ⟨hasks, hedit, hk⟩ := h db'
    ((find (replayAll pending db')).filter fun id => decide (id ∈ found))
    ((sessionDiscipline fresh).rely_trans hdb₁ hdb₂) fun _ hid => List.mem_of_mem_filter hid
  refine ⟨hasks, fun w hw => ?_, hk⟩
  rw [List.mem_singleton.mp hw]
  exact hedit

theorem inOrder_attempt_rollback {p : Tx α} (h : LocksInOrder fresh p before pending db) :
    LocksInOrder fresh (attempt rollbackAndRaise p) before pending db := by
  refine obeys_attempt (h.weaken fun r before pending db _ => ?_)
  cases r with
  | ok a => trivial
  | error e => trivial

theorem inOrder_discard {p : Tx α} (h : LocksInOrder fresh p before pending db) :
    LocksInOrder fresh (discard p) before pending db := by
  refine obeys_bind (h.weaken fun r before pending db _ => ?_)
  cases r with
  | ok a => trivial
  | error e => trivial

/-- An evaluation record locks no session, user or device but the session it refers to. -/
theorem recordEvaluation_locks {row : AccessContextEvaluation} {d : Database}
    {o : Outcome Write RowLock Unit}
    (h : insertRow d.accessContextEvaluations row ([d.tenantReference row.tenantId,
      d.principalReference row.principalId] ++ row.accessSessionId.toList.map d.sessionReference ++
      row.matchedLocationId.toList.map d.locationReference ++
      row.scheduleId.toList.map d.scheduleReference) (.insertEvaluation row) = .ok o) :
    ∀ l ∈ o.locks, sessionLocked l = true →
      ∃ x, row.accessSessionId = some x ∧ l = rowLock .accessSessions [x] .keyShare := by
  intro l hl hlocked
  rcases mem_insertRow_locks h hl with ⟨e, _, rfl⟩ | ⟨r, hr, rfl⟩
  · cases hlocked
  · simp only [List.mem_append, List.mem_cons, List.not_mem_nil, or_false, List.mem_map,
      Option.mem_toList] at hr
    rcases hr with (((rfl | rfl) | ⟨x, hx, rfl⟩) | ⟨x, _, rfl⟩) | ⟨x, _, rfl⟩
    · cases hlocked
    · cases hlocked
    · exact ⟨x, hx, rfl⟩
    · cases hlocked
    · cases hlocked

/-- The end of a renewal asks for the session that it refers to. -/
theorem inOrder_finish {g : Grant} {rt : Runtime} {draw : AccessDraw} {geo : GeoSample}
    {sourceIp correlationId : String} (h : ∀ db' now, SessionRely fresh db db' →
      (∀ k ∈ now, sessionLocked k = true → k = rowLock .accessSessions [g.accessSessionId] .keyShare) →
      (sessionDiscipline fresh).asks db' before now) :
    LocksInOrder fresh (g.finish rt draw geo sourceIp correlationId) before pending db := by
  unfold Grant.finish recordEvaluation
  apply inOrder_execute_bind
  intro db' o hdb ho
  refine ⟨h db' o.locks hdb fun k hk hlocked => ?_, ?_, ?_⟩
  · obtain ⟨x, hx, rfl⟩ := recordEvaluation_locks (fits_ok ho).2 k hk hlocked
    cases hx
    rfl
  · rw [(insertRow_ok (fits_ok ho).2).2.2]
    simp [sessionDiscipline]
  · cases htoken : rt.tokens.issue draw.token g.claims with
    | error e => trivial
    | ok token => exact fun _ _ => trivial

/-- The renewal of a session locks this session or nothing. -/
theorem inOrder_renew_bind {x : Uuid} {find : Database → Option AccessSession}
    {name : StatementName} {expiresAt : Instant} {write : Write} {k : Bool → Tx α}
    (hfind : ∀ d row, find d = some row → row.accessSessionId = x)
    (hwrite : ∀ row, write ≠ .insertAccessSession row)
    (h : ∀ db' b now pending', SessionRely fresh db db' → (∀ l ∈ now, l = sessionRow x) →
      (sessionDiscipline fresh).asks db' before now ∧
        LocksInOrder fresh (k b) (now ++ before) pending' db') :
    LocksInOrder fresh (renewSession name find expiresAt write >>= k) before pending db := by
  apply inOrder_execute_bind
  intro db' o hdb ho
  split at ho
  · cases ho
    obtain ⟨hasks, hk⟩ := h db' false [] (pending ++ []) hdb (List.forall_mem_nil _)
    exact ⟨hasks, (List.forall_mem_nil _), hk⟩
  · rename_i row hrow
    split at ho
    · cases ho
      obtain ⟨hasks, hk⟩ := h db' true [sessionRow row.accessSessionId] (pending ++ [write]) hdb
        fun l hl => by rw [List.mem_singleton.mp hl, hfind _ row hrow]
      refine ⟨hasks, fun w hw row' hrow' => ?_, hk⟩
      rw [List.mem_singleton.mp hw] at hrow'
      exact absurd hrow' (hwrite row')
    · cases ho

end Rules

/-! ## `create_or_reuse` -/

section Access

variable {fresh : Option Uuid} {before now : List RowLock} {pending : List Write} {db : Database}
  {t u d : Uuid}

/-- A call of `create_or_reuse` that holds its device: all else is of the device, and no session
is inserted yet. -/
structure HoldsDevice (fresh : Option Uuid) (t u d : Uuid) (before : List RowLock)
    (pending : List Write) (db : Database) : Prop where
  locks : LocksOfDevice fresh db t u d before []
  inserts : ∀ w ∈ pending, ∀ row, w ≠ .insertAccessSession row

theorem HoldsDevice.rely {db' : Database} (h : HoldsDevice fresh t u d before pending db)
    (hdb : SessionRely fresh db db') : HoldsDevice fresh t u d before pending db' :=
  ⟨h.locks.rely hdb, h.inserts⟩

theorem HoldsDevice.owner_view (h : HoldsDevice fresh t u d before pending db) (db' : Database)
    (x : Uuid) : (replayAll pending db').sessionOwner x = db'.sessionOwner x := by
  have hinserts := h.inserts
  clear h
  induction pending generalizing db' with
  | nil => rfl
  | cons w ws ih =>
    rw [replayAll_cons, ih _ fun w' hw' => hinserts w' (List.mem_cons_of_mem _ hw')]
    exact sessionOwner_apply (hinserts w List.mem_cons_self)

/-- More locks of the same device. -/
theorem LocksOfDevice.asks (h : LocksOfDevice fresh db t u d before [])
    (hnow : ∀ k ∈ now, sessionLocked k = true →
      k = rowLock .registeredDevices [d] .keyShare ∨ InSlot fresh db t u d k) :
    (sessionDiscipline fresh).asks db before now ∧ LocksOfDevice fresh db t u d (now ++ before) [] := by
  have hall : ∀ k ∈ now ++ before, sessionLocked k = true →
      k.relation = .registeredDevices ∨ InSlot fresh db t u d k := by
    intro k hk hlocked
    rcases List.mem_append.mp hk with hk | hk
    · rcases hnow k hk hlocked with rfl | hslot
      · exact Or.inl rfl
      · exact Or.inr hslot
    · exact h.slot k hk hlocked
  refine ⟨fun l hl hlocked => ?_, List.mem_append_right _ h.device, by simpa using hall⟩
  rcases hnow l hl hlocked with rfl | hslot
  · exact .again _ h.device ⟨rfl, rfl, fun _ _ => rfl⟩
  · exact .ofDevice t u d ⟨h.device, hall⟩ hslot.1

theorem inOrder_lockActiveDevice_bind {α : Type} {k : Unit → Tx α}
    (hk : ∀ db', SessionRely fresh db db' →
      LocksInOrder fresh (k ()) [rowLock .registeredDevices [d] .update] pending db') :
    LocksInOrder fresh (lockActiveDevice u t d >>= k) [] pending db := by
  unfold lockActiveDevice
  rw [Program.bind_assoc]
  apply inOrder_execute_bind
  intro db' o hdb ho
  cases ho
  cases hfound : (replayAll pending db').deviceRow? t u d with
  | none => exact ⟨(sessionDiscipline fresh).asks_nil _ _, (List.forall_mem_nil _), trivial⟩
  | some device =>
    have hmatch := List.find?_some hfound
    have hid : device.deviceId = d := (of_decide_eq_true hmatch).2.2
    simp only [Option.toList_some, List.map_cons, List.map_nil, hid, List.append_nil]
    refine ⟨fun l hl _ => ?_, (List.forall_mem_nil _), ?_⟩
    · refine .first (List.forall_mem_nil _) fun k hk _ => ?_
      rw [List.mem_singleton.mp hl, List.mem_singleton.mp hk]
    · cases hcheck : checkDevice (some device) with
      | error e => trivial
      | ok u => exact hk db' hdb

theorem inSlot_of_owner {x : Uuid} {mode : LockMode} (h : db.sessionOwner x = some (t, u, some d)) :
    InSlot fresh db t u d (rowLock .accessSessions [x] mode) :=
  ⟨rfl, Or.inr ⟨x, rfl, Or.inl h⟩⟩

/-- The expiry of the device's stale sessions. -/
theorem inOrder_expire_bind {α : Type} {now : Instant} {k : Unit → Tx α}
    (h : HoldsDevice fresh t u d before pending db)
    (hk : ∀ before' pending' db', SessionRely fresh db db' →
      HoldsDevice fresh t u d before' pending' db' → LocksInOrder fresh (k ()) before' pending' db') :
    LocksInOrder fresh (expireStaleUserSessions t u d now >>= k) before pending db := by
  unfold expireStaleUserSessions
  rw [Program.bind_assoc]
  apply inOrder_updateWhere_bind
  intro db' ids hdb hids
  have hholds := h.rely hdb
  have hnow : ∀ l ∈ ids.map fun id => rowLock .accessSessions [id] .noKeyUpdate,
      sessionLocked l = true →
        l = rowLock .registeredDevices [d] .keyShare ∨ InSlot fresh db' t u d l := by
    intro l hl _
    obtain ⟨id, hid, rfl⟩ := List.mem_map.mp hl
    obtain ⟨r, hr, rfl⟩ := List.mem_map.mp (hids id hid)
    obtain ⟨hrow, hstale⟩ := List.mem_filter.mp hr
    obtain ⟨rfl, rfl, hdevice, _⟩ := of_decide_eq_true hstale
    refine Or.inr (inSlot_of_owner ?_)
    rw [← hholds.owner_view db', sessionOwner_of_mem hrow, hdevice]
  refine ⟨(hholds.locks.asks hnow).1, (fun _ hrow => by cases hrow), ?_⟩
  refine hk _ _ db' hdb ⟨(hholds.locks.asks hnow).2, fun w hw row hrow => ?_⟩
  rcases List.mem_append.mp hw with hw | hw
  · exact h.inserts w hw row hrow
  · rw [List.mem_singleton.mp hw] at hrow
    cases hrow

/-- The insertion of a session: its new id, the device's entry and references. -/
theorem inOrder_create_bind {α : Type} {repo : RepositoryClass} {new : NewSession}
    {k : Unit → Tx α} (h : HoldsDevice fresh new.tenantId new.userId new.deviceId before pending db)
    (hfresh : fresh = some new.accessSessionId)
    (hk : ∀ before' pending' db', LocksOfDevice fresh db' new.tenantId new.userId new.deviceId before' [] →
      InSlot fresh db' new.tenantId new.userId new.deviceId
        (rowLock .accessSessions [new.accessSessionId] .keyShare) →
      LocksInOrder fresh (k ()) before' pending' db') :
    LocksInOrder fresh (createUserSession repo new >>= k) before pending db := by
  apply inOrder_execute_bind
  intro db' o hdb ho
  have hholds := h.rely hdb
  split at ho
  · rename_i lifetime
    have hunused : db'.sessionOwner new.accessSessionId = none := by
      rw [← hholds.owner_view db']
      have hinsert : ((replayAll pending db').accessSessions.insert?
          (new.row repo lifetime)).isSome = true := (insertRow_ok ho).1
      exact sessionOwner_of_insert? hinsert
    have hslot : ∀ mode, InSlot fresh db' new.tenantId new.userId new.deviceId
        (rowLock .accessSessions [new.accessSessionId] mode) :=
      fun mode => ⟨rfl, Or.inr ⟨_, rfl, Or.inr ⟨hfresh, hunused⟩⟩⟩
    have hnow : ∀ l ∈ o.locks, sessionLocked l = true →
        l = rowLock .registeredDevices [new.deviceId] .keyShare ∨
          InSlot fresh db' new.tenantId new.userId new.deviceId l := by
      intro l hl hlocked
      rcases mem_insertRow_locks ho hl with ⟨e, he, rfl⟩ | ⟨r, hr, rfl⟩
      · have hentries : Row.entries (new.row repo lifetime) = [(.primary, [new.accessSessionId]),
            activeEntry new.tenantId new.userId new.deviceId] := rfl
        rw [hentries, List.mem_cons, List.mem_singleton] at he
        rcases he with rfl | rfl
        · exact Or.inr (hslot .update)
        · exact Or.inr ⟨rfl, Or.inl rfl⟩
      · simp only [List.mem_append, List.mem_cons, List.not_mem_nil, or_false, List.mem_map,
          Option.mem_toList] at hr
        rcases hr with (rfl | rfl | rfl | rfl) | ⟨x, _, rfl⟩
        · cases hlocked
        · cases hlocked
        · exact Or.inl rfl
        · cases hlocked
        · cases hlocked
    refine ⟨(hholds.locks.asks hnow).1, ?_, hk _ _ db' (hholds.locks.asks hnow).2 (hslot .keyShare)⟩
    intro w hw row hrow
    rw [(insertRow_ok ho).2.2, List.mem_singleton] at hw
    rw [hw] at hrow
    cases hrow
    exact hfresh
  · cases ho

theorem inOrder_openSession_bind {α : Type} {repo : RepositoryClass} {newSessionId : Uuid}
    {draw : AccessDraw} {request : AccessRequest} {vpnStatus : VpnStatus} {context : UserContext}
    {policy : TenantSecurityPolicy} {location : LocationCandidate} {authorizedUntil : Instant}
    {k : Uuid × Instant → Tx α}
    (h : HoldsDevice (some newSessionId) request.tenantId u request.deviceId before pending db)
    (hk : ∀ x expiry before' pending' db',
      LocksOfDevice (some newSessionId) db' request.tenantId u request.deviceId before' [] →
      InSlot (some newSessionId) db' request.tenantId u request.deviceId
        (rowLock .accessSessions [x] .keyShare) →
      LocksInOrder (some newSessionId) (k (x, expiry)) before' pending' db') :
    LocksInOrder (some newSessionId) (openSession repo newSessionId draw request vpnStatus context u
      policy location authorizedUntil >>= k) before pending db := by
  unfold openSession
  rw [Program.bind_assoc]
  apply inOrder_expire_bind h
  intro before₁ pending₁ db₁ _ h₁
  rw [Program.bind_assoc]
  apply inOrder_query_bind
  intro db₂ active hdb₂ hactive
  have h₂ := h₁.rely hdb₂
  cases active with
  | none =>
    dsimp only
    rw [Program.bind_assoc]
    refine inOrder_create_bind h₂ rfl ?_
    exact fun before' pending' db' hlocks hslot => hk _ _ before' pending' db' hlocks hslot
  | some session =>
    obtain ⟨hmem, hentry⟩ := activeUserSession_eq_some_iff.mp (Except.ok.inj hactive)
    obtain ⟨ht, hu, hd, _⟩ := activeEntry_mem_iff.mp hentry
    have howner : db₂.sessionOwner session.accessSessionId =
        some (request.tenantId, u, some request.deviceId) := by
      rw [← h₂.owner_view db₂, sessionOwner_of_mem hmem, ht, hu, hd]
    dsimp only
    split
    · trivial
    · unfold updateReusedUserSession
      rw [Program.bind_assoc, Program.bind_assoc]
      refine inOrder_renew_bind (x := session.accessSessionId) (fun _ row hrow => ?_)
        (fun _ hrow => by cases hrow) ?_
      · have hmatch := List.find?_some hrow
        exact (of_decide_eq_true hmatch).1
      · intro db' b now pending' hdb hnow
        have howner' := hdb.owners _ _ howner
        obtain ⟨hasks, hlocks⟩ := (h₂.rely hdb).locks.asks fun l hl _ => by
          rw [hnow l hl]
          exact Or.inr (inSlot_of_owner howner')
        exact ⟨hasks, hk _ _ _ pending' db' hlocks (inSlot_of_owner howner')⟩

end Access

theorem matchPosition_locks (rt : Runtime) (policy : TenantSecurityPolicy) (u t : Uuid)
    (geo : GeoSample) (now : Instant) :
    (matchPosition rt policy u t geo now).LocksOnly fun _ => False :=
  locksOnly_bind (locksOnly_done _) fun _ => locksOnly_query

theorem scheduleAt_locks (rt : Runtime) (u t : Uuid) (location : LocationCandidate) (now : Instant) :
    (scheduleAt rt u t location now).LocksOnly fun _ => False :=
  locksOnly_bind locksOnly_query fun _ => locksOnly_bind locksOnly_query fun _ =>
    locksOnly_bind locksOnly_query fun _ => locksOnly_done _

theorem authorize_locks (repo : RepositoryClass) (policy : TenantSecurityPolicy)
    (vpnStatus : VpnStatus) (u t : Uuid) (now : Instant) :
    (authorize repo policy vpnStatus u t now).LocksOnly fun _ => False :=
  locksOnly_bind (locksOnly_done _) fun _ => locksOnly_bind locksOnly_query fun _ =>
    locksOnly_bind (locksOnly_done _) fun _ => locksOnly_pure _

theorem inOrder_createOrReuse (rt : Runtime) (repo : RepositoryClass) (newSessionId : Uuid)
    (draw : AccessDraw) (request : AccessRequest) (db : Database) :
    LocksInOrder (some newSessionId) (createOrReuse rt repo newSessionId draw request) [] [] db := by
  unfold createOrReuse
  cases hrisk : draw.risk with
  | error e => trivial
  | ok vpnStatus =>
    apply inOrder_attempt_rollback
    unfold requireActiveTenant getUserContext getTenantPolicy
    apply inOrder_query_bind
    intro db₁ _ _ _
    apply inOrder_query_bind
    intro db₂ userId _ _
    apply inOrder_query_bind
    intro db₃ context _ _
    apply inOrder_query_bind
    intro db₄ policy _ _
    apply inOrder_lockActiveDevice_bind
    intro db₅ _
    have h₅ : HoldsDevice (some newSessionId) request.tenantId userId request.deviceId
        [rowLock .registeredDevices [request.deviceId] .update] [] db₅ := by
      refine ⟨⟨List.mem_cons_self, fun k hk _ => Or.inl ?_⟩, List.forall_mem_nil _⟩
      rw [List.nil_append, List.mem_singleton] at hk
      rw [hk]
      rfl
    apply inOrder_reads_bind (matchPosition_reads ..).1 (matchPosition_locks ..)
    rintro ⟨location, distance⟩ db₆ hdb₆
    apply inOrder_reads_bind (scheduleAt_reads ..).1 (scheduleAt_locks ..)
    intro schedule db₇ hdb₇
    apply inOrder_reads_bind (authorize_reads ..).1 (authorize_locks ..)
    rintro ⟨roles, permissions⟩ db₈ hdb₈
    apply inOrder_openSession_bind (((h₅.rely hdb₆).rely hdb₇).rely hdb₈)
    intro x expiry before' pending' db' hlocks hslot
    refine inOrder_finish fun db'' now hdb hnow => ((hlocks.rely hdb).asks fun l hl hlocked => ?_).1
    rw [hnow l hl hlocked]
    exact Or.inr (hslot.rely hdb)

/-! ## `refresh` and `revoke` -/

section Session

variable {before now : List RowLock} {pending : List Write} {db : Database} {t u x : Uuid}

/-- A session that is locked for update is locked again. -/
theorem asks_again (h : rowLock .accessSessions [x] .update ∈ before)
    (hnow : ∀ k ∈ now, sessionLocked k = true → ∃ mode, k = rowLock .accessSessions [x] mode) :
    (sessionDiscipline none).asks db before now := by
  intro l hl hlocked
  obtain ⟨mode, rfl⟩ := hnow l hl hlocked
  exact .again _ h ⟨rfl, rfl, fun _ _ => rfl⟩

theorem inOrder_sessionForUpdate_bind {α : Type} {k : Option AccessSession → Tx α}
    (hbefore : ∀ k ∈ before, sessionLocked k = true →
      k.relation = .registeredDevices ∧ k.mode = .update)
    (hnone : ∀ db', LocksInOrder none (k none) before pending db')
    (hsome : ∀ session db', LocksInOrder none (k (some session))
      (rowLock .accessSessions [x] .update :: before) pending db') :
    LocksInOrder none (userSessionForUpdate x t u >>= k) before pending db := by
  apply inOrder_execute_bind
  intro db' o hdb ho
  cases ho
  cases hfound : (replayAll pending db').userSession x t u with
  | none =>
    refine ⟨(sessionDiscipline none).asks_nil _ _, (List.forall_mem_nil _), ?_⟩
    rw [List.append_nil]
    exact hnone db'
  | some session =>
    have hmatch := List.find?_some hfound
    have hid : session.accessSessionId = x := (of_decide_eq_true hmatch).1
    simp only [Option.toList_some, List.map_cons, List.map_nil, hid, List.append_nil]
    refine ⟨fun l hl _ => ?_, (List.forall_mem_nil _), hsome session db'⟩
    rw [List.mem_singleton.mp hl]
    exact .session rfl hbefore fun k hk _ => List.mem_singleton.mp hk

theorem inOrder_revokeActive_bind {α : Type} {k : Bool → Tx α}
    (h : rowLock .accessSessions [x] .update ∈ before)
    (hk : ∀ b before' pending' db', LocksInOrder none (k b) before' pending' db') :
    LocksInOrder none (revokeActiveUserSession x t u >>= k) before pending db := by
  apply inOrder_execute_bind
  intro db' o hdb ho
  split at ho
  · cases ho
    exact ⟨(sessionDiscipline none).asks_nil _ _, (List.forall_mem_nil _), hk ..⟩
  · rename_i row hrow
    cases ho
    have hmatch := List.find?_some (Option.filter_eq_some_iff.mp hrow).1
    have hid : row.accessSessionId = x := (of_decide_eq_true hmatch).1
    refine ⟨asks_again h fun l hl _ => ?_, fun w hw row' hrow' => ?_, hk ..⟩
    · rw [List.mem_singleton.mp hl, hid]
      exact ⟨_, rfl⟩
    · rw [List.mem_singleton.mp hw] at hrow'
      cases hrow'

theorem inOrder_revoke (x t u : Uuid) (db : Database) :
    LocksInOrder none (revoke x t u) [] [] db := by
  apply inOrder_attempt_rollback
  apply inOrder_sessionForUpdate_bind
  · exact List.forall_mem_nil _
  · exact fun db' => trivial
  · intro session db'
    split
    · trivial
    · apply inOrder_revokeActive_bind List.mem_cons_self
      intro b before' pending' db''
      split
      · trivial
      · exact fun _ _ => trivial

/-- A denial locks only the session it refers to, in a transaction of its own. -/
theorem inOrder_deny_bind {α β : Type} {denialId : Uuid} {now : Instant} {request : RefreshRequest}
    {evidence : RefreshEvidence} {e : Failure} {k : α → Tx β} :
    LocksInOrder none ((deny denialId now request evidence e : Tx α) >>= k) before pending db := by
  unfold deny
  rw [Program.bind_assoc]
  change LocksInOrder none _ [] [] db
  split
  · split
    · rw [Program.bind_assoc]
      unfold persistDenialEvidence
      refine obeys_attempt_bind ?_ fun e before pending db => trivial
      unfold recordEvaluation
      rw [Program.bind_assoc]
      apply inOrder_execute_bind
      intro db' o hdb ho
      refine ⟨fun l hl hlocked => .first (List.forall_mem_nil _) fun m hm hmlocked => ?_, ?_, ?_⟩
      · obtain ⟨x, hx, rfl⟩ := recordEvaluation_locks (fits_ok ho).2 l hl hlocked
        obtain ⟨y, hy, rfl⟩ := recordEvaluation_locks (fits_ok ho).2 m hm hmlocked
        rw [hx] at hy
        cases hy
        rfl
      · rw [(insertRow_ok (fits_ok ho).2).2.2]
        simp [sessionDiscipline]
      · exact fun _ _ => trivial
    · trivial
  · trivial

theorem inOrder_deny {α : Type} {denialId : Uuid} {now : Instant} {request : RefreshRequest}
    {evidence : RefreshEvidence} {p : Tx α} (h : LocksInOrder none p before pending db) :
    LocksInOrder none (attempt (deny denialId now request evidence) p) before pending db := by
  refine obeys_attempt (h.weaken fun r before pending db _ => ?_)
  cases r with
  | ok a => trivial
  | error e => exact Obeys.of_bind (inOrder_deny_bind (k := (pure : α → Tx α)))

theorem inOrder_guarded_bind {α β : Type} {denialId : Uuid} {now : Instant} {request : RefreshRequest}
    {evidence : RefreshEvidence} {p : Tx α} {k : α → Tx β}
    (h : LocksInOrder none (p >>= k) before pending db) :
    LocksInOrder none (attempt (deny denialId now request evidence) p >>= k) before pending db :=
  obeys_attempt_bind h fun _ _ _ _ => inOrder_deny_bind

theorem observeSession_reads (repo : RepositoryClass) (request : RefreshRequest) (now : Instant) :
    (observeSession repo request now).Within (fun _ => False) ∧
      (observeSession repo request now).LocksOnly fun _ => False := by
  constructor
  · refine within_bind within_query fun _ => within_bind within_query fun _ =>
      within_bind within_query fun _ => within_bind within_query fun observed => ?_
    cases observed with
    | none => exact within_raise _
    | some session =>
      dsimp only
      split
      · exact within_raise _
      · exact within_pure _
  · refine locksOnly_bind locksOnly_query fun _ => locksOnly_bind locksOnly_query fun _ =>
      locksOnly_bind locksOnly_query fun _ => locksOnly_bind locksOnly_query fun observed => ?_
    cases observed with
    | none => exact locksOnly_raise _
    | some session =>
      dsimp only
      split
      · exact locksOnly_raise _
      · exact locksOnly_pure _

/-- The device, then the session. -/
theorem inOrder_lockSession_bind {α : Type} {request : RefreshRequest} {device : Option Uuid}
    {now : Instant} {k : AccessSession → Tx α}
    (hk : ∀ session before' db', rowLock .accessSessions [request.accessSessionId] .update ∈ before' →
      LocksInOrder none (k session) before' pending db') :
    LocksInOrder none (lockSession request device now >>= k) [] pending db := by
  unfold lockSession
  rw [Program.bind_assoc]
  apply inOrder_lockActiveDevice_bind
  intro db₁ _
  rw [Program.bind_assoc]
  apply inOrder_sessionForUpdate_bind
  · intro l hl _
    rw [List.mem_singleton.mp hl]
    exact ⟨rfl, rfl⟩
  · exact fun db' => trivial
  · intro session db'
    dsimp only
    split
    · trivial
    · split
      · trivial
      · split
        · trivial
        · exact hk session _ db' List.mem_cons_self

theorem inOrder_refresh (rt : Runtime) (repo : RepositoryClass) (denialId : Uuid) (draw : AccessDraw)
    (request : RefreshRequest) (db : Database) :
    LocksInOrder none (refresh rt repo denialId draw request) [] [] db := by
  unfold refresh
  apply inOrder_guarded_bind
  cases hgeo : requireRefreshGeo request.geo with
  | error e => trivial
  | ok geo =>
    apply inOrder_guarded_bind
    cases hrisk : draw.risk with
    | error e => trivial
    | ok vpnStatus =>
      apply inOrder_guarded_bind
      apply inOrder_reads_bind (observeSession_reads ..).1 (observeSession_reads ..).2
      rintro ⟨context, policy, device⟩ db₁ _
      apply inOrder_guarded_bind
      rw [Program.bind_assoc]
      apply inOrder_lockSession_bind
      intro session before₂ db₂ hlock
      rw [Program.bind_assoc]
      apply inOrder_reads_bind (matchPosition_reads ..).1 (matchPosition_locks ..)
      rintro ⟨location, distance⟩ db₃ _
      apply inOrder_guarded_bind
      apply inOrder_reads_bind (scheduleAt_reads ..).1 (scheduleAt_locks ..)
      intro schedule db₄ _
      apply inOrder_deny
      apply inOrder_reads_bind (authorize_reads ..).1 (authorize_locks ..)
      rintro ⟨roles, permissions⟩ db₅ _
      unfold renewLocked
      dsimp only
      split
      · trivial
      · rw [Program.bind_assoc]
        unfold updateActiveSessionContext
        refine inOrder_renew_bind (x := request.accessSessionId) (fun _ row hrow => ?_)
          (fun _ hrow => by cases hrow) ?_
        · have hmatch := List.find?_some (Option.filter_eq_some_iff.mp hrow).1
          exact (of_decide_eq_true hmatch).1
        · intro db' b now pending' _ hnow
          refine ⟨asks_again hlock fun l hl _ => ⟨_, hnow l hl⟩, ?_⟩
          split
          · trivial
          · change LocksInOrder none (Grant.finish _ rt draw geo _ _ >>= fun response => pure _) _ _ _
            refine obeys_bind (Obeys.weaken (inOrder_finish fun db'' now' _ hnow' => asks_again
              (List.mem_append_right _ hlock) fun l hl hlocked => ⟨_, hnow' l hl hlocked⟩) ?_)
            intro r _ _ _ _
            cases r <;> trivial

end Session

/-! ## `set_user_status` -/

section Status

variable {fresh : Option Uuid} {before : List RowLock} {pending : List Write} {db : Database}

/-- A user has at most one active session for each device. -/
theorem locksOfUser_activeSessions {userId : Uuid} {ids : List Uuid}
    (h : ∀ id ∈ ids, id ∈ (db.activeSessionsOf userId).map (·.accessSessionId)) :
    LocksOfUser db userId [rowLock .users [userId] .noKeyUpdate] (ids.map sessionRow) := by
  have hactive : ∀ x, sessionRow x ∈ ids.map sessionRow → ∃ r ∈ db.accessSessions.rows,
      r.accessSessionId = x ∧ r.principalId = userId ∧ r.actorType = .user ∧ r.status = .active := by
    intro x hx
    obtain ⟨y, hy, hxy⟩ := List.mem_map.mp hx
    obtain ⟨r, hr, hid⟩ := List.mem_map.mp (h y hy)
    obtain ⟨hmem, hcond⟩ := List.mem_filter.mp hr
    exact ⟨r, hmem, by rw [hid, sessionRow_injective hxy], of_decide_eq_true hcond⟩
  refine ⟨List.mem_cons_self, fun k hk _ => List.mem_singleton.mp hk, fun k hk _ => ?_, ?_⟩
  · obtain ⟨x, hx, rfl⟩ := List.mem_map.mp hk
    obtain ⟨r, hr, rfl, rfl, _⟩ := hactive x hk
    exact ⟨_, _, _, rfl, sessionOwner_of_mem hr⟩
  · intro x y hx hy t u d hox hoy
    obtain ⟨r, hr, rfl, _, hactor, hstatus⟩ := hactive x hx
    obtain ⟨r', hr', rfl, _, hactor', hstatus'⟩ := hactive y hy
    rw [sessionOwner_of_mem hr, Option.some.injEq, Prod.mk.injEq, Prod.mk.injEq] at hox
    rw [sessionOwner_of_mem hr', Option.some.injEq, Prod.mk.injEq, Prod.mk.injEq] at hoy
    have hentry : activeEntry t u d ∈ Row.entries r :=
      activeEntry_mem_iff.mpr ⟨hox.1, hox.2.1, hox.2.2, hactor, hstatus⟩
    have hentry' : activeEntry t u d ∈ Row.entries r' :=
      activeEntry_mem_iff.mpr ⟨hoy.1, hoy.2.1, hoy.2.2, hactor', hstatus'⟩
    rw [Table.shared_entry hr hr' hentry hentry']

/-- The audit record refers to the actor. -/
theorem inOrder_platformAudit_bind {α : Type} {c : AdminCall} {key type id : String}
    {k : Unit → Tx α} (hshared : ∀ l ∈ before, l.relation = .users → l.mode ≠ .update)
    (hk : ∀ before' pending' db', LocksInOrder fresh (k ()) before' pending' db') :
    LocksInOrder fresh (platformAudit c key type id >>= k) before pending db := by
  apply inOrder_execute_bind
  intro db' o hdb ho
  have hactor : ∀ l ∈ o.locks, sessionLocked l = true → l = rowLock .users [c.actorUserId] .keyShare := by
    intro l hl hlocked
    rcases mem_insertRow_locks ho hl with ⟨e, _, rfl⟩ | ⟨r, hr, rfl⟩
    · cases hlocked
    · rw [List.mem_singleton.mp hr]
      rfl
  have husers : ∀ l ∈ o.locks, l.relation = .users → l.mode ≠ .update := by
    intro l hl hrow
    have hlocked : sessionLocked l = true := decide_eq_true (Or.inl hrow)
    rw [hactor l hl hlocked]
    exact fun hmode => by cases hmode
  refine ⟨fun l hl hlocked => ?_, fun w hw row hrow => ?_, hk ..⟩
  · rw [hactor l hl hlocked]
    refine .actor rfl rfl fun m hm hrow => ?_
    rcases List.mem_append.mp hm with hm | hm
    · exact husers m hm hrow
    · exact hshared m hm hrow
  · rw [(insertRow_ok ho).2.2, List.mem_singleton] at hw
    rw [hw] at hrow
    cases hrow

theorem inOrder_followStatus_bind {α : Type} {c : AdminCall} {row : UserLifecycleRow}
    {target : UserStatus} {reason : Option String} {k : Unit → Tx α} {write : Write}
    (hsessions : ∀ db' : Database, (replayAll [write] db').accessSessions = db'.accessSessions)
    (hk : ∀ before' pending' db', (∀ l ∈ before', l.relation = .users → l.mode ≠ .update) →
      LocksInOrder fresh (k ()) before' pending' db') :
    LocksInOrder fresh (followStatus c row target reason >>= k)
      [rowLock .users [row.user.userId] .noKeyUpdate] [write] db := by
  have hkept : ∀ (ids : List Uuid) (relation : Relation), relation ≠ .users →
      ∀ l ∈ (ids.map fun id => rowLock relation [id] .noKeyUpdate) ++
        [rowLock .users [row.user.userId] .noKeyUpdate], l.relation = .users → l.mode ≠ .update := by
    intro ids relation hrelation l hl hrow
    rcases List.mem_append.mp hl with hl | hl
    · obtain ⟨id, _, rfl⟩ := List.mem_map.mp hl
      exact absurd hrow hrelation
    · rw [List.mem_singleton.mp hl]
      exact fun hmode => by cases hmode
  unfold followStatus
  split
  · rw [revokeUserSessions, Program.bind_assoc]
    apply inOrder_updateWhere_bind
    intro db' ids hdb hids
    have hof : ∀ id ∈ ids, id ∈ (db'.activeSessionsOf row.user.userId).map (·.accessSessionId) := by
      intro id hid
      have hfound := hids id hid
      rwa [Database.activeSessionsOf, hsessions] at hfound
    refine ⟨fun l _ _ => .ofUser _ (locksOfUser_activeSessions hof), (fun _ hrow => by cases hrow), ?_⟩
    exact hk _ _ db' (hkept ids .accessSessions fun h => by cases h)
  · split
    · rw [approveOnboardingRequest, Program.bind_assoc]
      apply inOrder_updateWhere_bind
      intro db' ids hdb _
      refine ⟨fun l hl hlocked => ?_, (fun _ hrow => by cases hrow), ?_⟩
      · obtain ⟨id, _, rfl⟩ := List.mem_map.mp hl
        cases hlocked
      · exact hk _ _ db' (hkept ids .platformUserOnboardingRequests fun h => by cases h)
    · exact hk _ _ db (hkept [] .accessSessions fun h => by cases h)

theorem inOrder_statusTransaction_bind {α : Type} {c : AdminCall} {row : UserLifecycleRow}
    {target : UserStatus} {reason : Option String} {k : Unit → Tx α}
    (hk : ∀ db', LocksInOrder fresh (k ()) [] [] db') :
    LocksInOrder fresh (statusTransaction c row target reason >>= k) [] [] db := by
  refine obeys_attempt_bind ?_ fun _ _ _ _ => trivial
  rw [Program.bind_assoc]
  apply inOrder_execute_bind
  intro db' o hdb ho
  cases ho
  refine ⟨fun l hl _ => ?_, fun w hw row' hrow => ?_, ?_⟩
  · refine .first (List.forall_mem_nil _) fun m hm _ => ?_
    rw [List.mem_singleton.mp hl, List.mem_singleton.mp hm]
  · rw [List.mem_singleton.mp hw] at hrow
    cases hrow
  · rw [Program.bind_assoc]
    apply inOrder_followStatus_bind
    · exact fun _ => rfl
    · intro before' pending' db'' hshared
      rw [Program.bind_assoc]
      exact inOrder_platformAudit_bind hshared fun _ _ _ _ _ => hk _

theorem inOrder_changeUserStatus {clerk : ClerkAnswers} {c : AdminCall} {row : UserLifecycleRow}
    {target : UserStatus} {reason : Option String} :
    LocksInOrder fresh (changeUserStatus clerk c row target reason) [] [] db := by
  apply inOrder_statusTransaction_bind
  intro db'
  have huser : ∀ db'', LocksInOrder fresh (userById row.user.userId) [] [] db'' :=
    fun db'' => obeys_query fun _ _ => trivial
  unfold banDeactivated clerkCall
  split
  · split
    · exact inOrder_query_bind fun db'' _ _ _ => huser db''
    · exact huser db'
  · exact huser db'

theorem inOrder_setUserStatus (upper : String → String) (clerk : ClerkAnswers) (c : AdminCall)
    (userId : Uuid) (newStatus : String) (reason : Option String) (db : Database) :
    LocksInOrder none (setUserStatus upper clerk c userId newStatus reason) [] [] db := by
  unfold setUserStatus userLifecycle
  split
  · trivial
  · apply inOrder_query_bind
    intro db' row _ _
    cases row with
    | none => trivial
    | some row =>
      dsimp only
      split
      · split
        · trivial
        · split
          · trivial
          · exact inOrder_query_bind fun _ _ _ _ => inOrder_changeUserStatus
      · split
        · trivial
        · split
          · exact obeys_query fun _ _ => trivial
          · exact inOrder_changeUserStatus

end Status

/-! ## Overlapping operations -/

theorem SessionOperation.inOrder (op : SessionOperation) (db : Database) :
    LocksInOrder op.newSession op.program [] [] db := by
  cases op with
  | createOrReuse rt repo newSessionId draw request =>
    exact inOrder_discard (inOrder_createOrReuse rt repo newSessionId draw request db)
  | refresh rt repo denialId draw request =>
    exact inOrder_discard (inOrder_refresh rt repo denialId draw request db)
  | revoke accessSessionId tenantId userId =>
    exact inOrder_discard (inOrder_revoke accessSessionId tenantId userId db)
  | setUserStatus upper clerk c userId newStatus reason =>
    exact inOrder_discard (inOrder_setUserStatus upper clerk c userId newStatus reason db)

def sessionCalls (ops : List SessionOperation) (db : Database) : SessionState :=
  Waiting.initial db (ops.map SessionOperation.program)

/-- Each call draws the id of its new session for itself. -/
def DrawnOnce (ops : List SessionOperation) : Prop :=
  ops.Pairwise fun a b => ∀ x, a.newSession = some x → b.newSession ≠ some x

theorem DrawnOnce.fresh {ops : List SessionOperation} (h : DrawnOnce ops) {i j : Nat} (hij : i ≠ j)
    (x : Uuid) (hi : ops[i]?.bind (·.newSession) = some x) :
    ops[j]?.bind (·.newSession) ≠ some x := by
  intro hj
  obtain ⟨a, ha, hax⟩ := Option.bind_eq_some_iff.mp hi
  obtain ⟨b, hb, hbx⟩ := Option.bind_eq_some_iff.mp hj
  obtain ⟨hilt, rfl⟩ := List.getElem?_eq_some_iff.mp ha
  obtain ⟨hjlt, rfl⟩ := List.getElem?_eq_some_iff.mp hb
  rcases Nat.lt_or_gt_of_ne hij with hlt | hlt
  · exact List.pairwise_iff_getElem.mp h i j hilt hjlt hlt x hax hbx
  · exact List.pairwise_iff_getElem.mp h j i hjlt hilt hlt x hbx hax

/-- However the operations overlap, and in whatever order a statement gets its locks, no
operations wait for users, devices and sessions in a circle. -/
theorem session_operations_not_deadlocked {ops : List SessionOperation} {db : Database}
    (hdrawn : DrawnOnce ops) {s : SessionState}
    (h : Waiting.Reaches RowLock.conflicts (fun _ _ => True) (sessionCalls ops db) s) :
    ¬ s.Deadlocked RowLock.conflicts sessionLocked := by
  have hinitial : (sessionCalls ops db).Disciplined fun i =>
      sessionDiscipline (ops[i]?.bind (·.newSession)) := by
    refine Waiting.disciplined_initial fun i p hp => ?_
    rw [List.getElem?_map] at hp
    obtain ⟨op, hop, rfl⟩ := Option.map_eq_some_iff.mp hp
    rw [hop]
    exact op.inOrder db
  have hdisciplined := h.disciplined hinitial fun i j hij w hw db' =>
    sessionRely_apply (fun x hx => hdrawn.fresh hij x hx) hw db'
  exact not_deadlocked hdisciplined (h.exclusive RowLock.conflicts_comm)
    fun i j hij x hx => hdrawn.fresh hij x hx

/-- A user opens the phone twice while an administrator suspends the user. -/
def openedTwice : List SessionOperation := [
  .createOrReuse workplaceRuntime .groupAware "session-1" (drawAt 0 "evaluation-1") (requestAt 0),
  .createOrReuse workplaceRuntime .groupAware "session-2" (drawAt 1 "evaluation-2") (requestAt 1),
  .setUserStatus id ⟨.ok (), .ok ()⟩ ⟨"user", "correlation", seconds 43200, "new", "audit"⟩ "user"
    "SUSPENDED" none]

def toPhone (i : Nat) : List (Move RowLock) :=
  List.replicate 4 (.ask i []) ++ [.ask i [rowLock .registeredDevices ["phone"] .update]]

/-- The second call waits for the phone that the first one holds. -/
theorem opened_twice_not_deadlocked : ∃ s : SessionState, s.Waits RowLock.conflicts sessionLocked 1 0 ∧
    ¬ s.Deadlocked RowLock.conflicts sessionLocked := by
  have hrun : ∃ s ∈ (sessionCalls openedTwice workplace).run RowLock.conflicts
      (toPhone 0 ++ .take 0 :: toPhone 1 ++ [.ask 2 [],
        .ask 2 [rowLock .users ["user"] .noKeyUpdate], .take 2]),
      s.Waits RowLock.conflicts sessionLocked 1 0 := by
    decide +kernel
  obtain ⟨s, hs, hwaits⟩ := hrun
  refine ⟨s, hwaits, session_operations_not_deadlocked ?_
    (Waiting.reaches_of_run (Waiting.meets_true _ _) hs)⟩
  simp [DrawnOnce, openedTwice, SessionOperation.newSession]

end VerigenceSecurity
