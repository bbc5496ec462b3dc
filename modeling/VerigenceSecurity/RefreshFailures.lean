import VerigenceSecurity.Library.Faults
import VerigenceSecurity.DeviceSessions
import VerigenceSecurity.SessionRefresh

/-! # Failed refreshes

`refresh` with faults injected into every statement and commit of its transaction and of the one
that records a denial. Whatever fails, the transaction is rolled back, the caller sees the error
that was raised, and the evidence of a denial is all that a failed refresh can leave behind.
-/

namespace VerigenceSecurity
set_option autoImplicit false

open Transaction Relational Program

/-- Which statements and commits fail: those of the steps of `refresh`, and those of the
transaction that records a denial. -/
structure RefreshFaults where
  observation : FaultPlan Failure := .quiet
  lock : FaultPlan Failure := .quiet
  schedule : FaultPlan Failure := .quiet
  grant : FaultPlan Failure := .quiet
  evidence : FaultPlan Failure := .quiet

/-! ## The steps -/

def locateSession (rt : Runtime) (draw : AccessDraw) (request : RefreshRequest) (geo : GeoSample)
    (policy : TenantSecurityPolicy) (device : Option Uuid) :
    Tx (AccessSession × LocationCandidate × Rat) := do
  let session ← lockSession request device draw.now
  let (location, distance) ← matchPosition rt policy request.userId request.tenantId geo draw.now
  pure (session, location, distance)

def grantRefresh (rt : Runtime) (repo : RepositoryClass) (draw : AccessDraw)
    (request : RefreshRequest) (geo : GeoSample) (vpnStatus : VpnStatus) (context : UserContext)
    (policy : TenantSecurityPolicy) (device : Option Uuid) (session : AccessSession)
    (location : LocationCandidate) (distance : Rat) (schedule : ScheduleDecision) :
    Tx RefreshedUserSession := do
  let (roles, permissions) ←
    authorize repo policy vpnStatus request.userId request.tenantId draw.now
  let expiry ← renewLocked request draw vpnStatus context policy session location
    schedule.authorizedUntil
  let response ← Grant.finish {
    accessSessionId := request.accessSessionId, userId := request.userId
    tenantId := request.tenantId, deviceId := device.getD "None", location := location
    distance := distance, schedule := schedule, vpnStatus := vpnStatus, roles := roles
    permissions := permissions, expiry := expiry } rt draw geo request.sourceIp
    request.correlationId
  pure (response.refreshed request.userId)

/-- The `try` block of `refresh`. What is done about the failure of a step is given, and depends on
the evidence that has been found by then. -/
def refreshSteps {M : Type → Type 1} [Monad M] (guard : {α : Type} → RefreshEvidence → Tx α → M α)
    (faults : RefreshFaults) (rt : Runtime) (repo : RepositoryClass) (draw : AccessDraw)
    (request : RefreshRequest) : M RefreshedUserSession := do
  let geo ← guard {} (done (requireRefreshGeo request.geo))
  let vpnStatus ← guard {} (done draw.risk)
  let (context, policy, device) ← guard { risk := some vpnStatus }
    ((observeSession repo request draw.now).failing faults.observation 0)
  let (session, location, distance) ← guard {
      risk := some vpnStatus, accessSessionId := some request.accessSessionId }
    ((locateSession rt draw request geo policy device).failing faults.lock 0)
  let schedule ← guard {
      risk := some vpnStatus, accessSessionId := some request.accessSessionId
      location := some location, distance := some distance }
    ((scheduleAt rt request.userId request.tenantId location draw.now).failing faults.schedule 0)
  guard {
      risk := some vpnStatus, accessSessionId := some request.accessSessionId
      location := some location, distance := some distance, schedule := some schedule }
    ((grantRefresh rt repo draw request geo vpnStatus context policy device session location distance
      schedule).failing faults.grant 0)

def refreshBlock (faults : RefreshFaults) (rt : Runtime) (repo : RepositoryClass) (draw : AccessDraw)
    (request : RefreshRequest) :
    Program Database Write RowLock StatementName (RefreshEvidence × Failure) RefreshedUserSession :=
  refreshSteps (fun evidence p => p.tagged evidence) faults rt repo draw request

def evidenceTransaction (faults : RefreshFaults) (row : AccessContextEvaluation) : Tx Unit :=
  Program.failing faults.evidence (do
    recordEvaluation row
    commitNow) 0

def denyFailing {α : Type} (faults : RefreshFaults) (denialId : Uuid) (now : Instant)
    (request : RefreshRequest) (evidence : RefreshEvidence) (error : Failure) : Tx α := do
  rollbackNow
  match error with
  | .security e =>
    if e.statusCode < 500 then
      attempt (fun _ => rollbackNow)
        (evidenceTransaction faults (evidence.denial denialId now request e.code))
      raise error
    else raise error
  | _ => raise error

def refreshFailing (faults : RefreshFaults) (rt : Runtime) (repo : RepositoryClass) (denialId : Uuid)
    (draw : AccessDraw) (request : RefreshRequest) : Tx RefreshedUserSession :=
  refreshSteps (fun evidence => attempt (denyFailing faults denialId draw.now request evidence))
    faults rt repo draw request

theorem evidenceTransaction_quiet (row : AccessContextEvaluation) :
    evidenceTransaction {} row = (do
      recordEvaluation row
      commitNow) :=
  failing_quiet _ 0

/-- Without faults this is `refresh`. -/
theorem refreshFailing_quiet (rt : Runtime) (repo : RepositoryClass) (denialId : Uuid)
    (draw : AccessDraw) (request : RefreshRequest) :
    refreshFailing {} rt repo denialId draw request = refresh rt repo denialId draw request := by
  have hdeny : ∀ (α : Type) (evidence : RefreshEvidence),
      (denyFailing {} denialId draw.now request evidence : Failure → Tx α) =
        deny denialId draw.now request evidence := by
    intro α evidence
    funext error
    cases error with
    | security e =>
      simp only [denyFailing, deny, persistDenialEvidence, evidenceTransaction_quiet]
    | _ => rfl
  unfold refreshFailing refreshSteps refresh
  simp only [failing_quiet, hdeny]
  rfl

/-! ## Handlers on every step -/

/-- The code of a denial: a `SecurityError` that is no server error. -/
def Failure.denialCode : Failure → Option ErrorCode
  | .security e => if e.statusCode < 500 then some e.code else none
  | _ => none

section Handlers

variable {faults : RefreshFaults} {denialId : Uuid} {now : Instant} {request : RefreshRequest}

def afterDenial (faults : RefreshFaults) (denialId : Uuid) (now : Instant) (request : RefreshRequest)
    (evidence : RefreshEvidence) (error : Failure) (db : Database) : Database :=
  match error.denialCode with
  | some code => ((evidenceTransaction faults
      (evidence.denial denialId now request code)).alone db).2
  | none => db

theorem endsAtCommit_evidenceTransaction (faults : RefreshFaults) (row : AccessContextEvaluation) :
    (evidenceTransaction faults row).EndsAtCommit := by
  apply EndsAtCommit.failing
  refine endsAtCommit_bind (Q := fun _ => True) (within_execute fun _ _ _ _ _ => trivial) fun _ => ?_
  exact ⟨(), rfl⟩

/-- The handlers raise the error that they were given, whatever becomes of the evidence. -/
theorem exec_denyFailing {α : Type} (evidence : RefreshEvidence) (error : Failure)
    (t : Session Database) : ∃ u, (denyFailing faults denialId now request evidence error : Tx α).exec t =
      (.error error, u) ∧
        u.committed = afterDenial faults denialId now request evidence error t.committed := by
  unfold denyFailing afterDenial Failure.denialCode
  rw [exec_bind, exec_rollbackNow]
  simp only
  cases error with
  | security e =>
    simp only
    split
    · rw [exec_bind, exec_attempt]
      cases hrun : (evidenceTransaction faults
          (evidence.denial denialId now request e.code)).exec ⟨t.committed, t.committed⟩ with
      | mk r v =>
        cases r with
        | ok u => exact ⟨v, rfl, by simp [alone, hrun]⟩
        | error f => exact ⟨⟨v.committed, v.committed⟩, rfl, by simp [alone, hrun]⟩
    · exact ⟨_, rfl, rfl⟩
  | _ => exact ⟨_, rfl, rfl⟩

/-- The guarded program answers as the bare one does, and where the bare one raises, the handlers
run on the rows that were committed by then. -/
def Denies (faults : RefreshFaults) (denialId : Uuid) (now : Instant) (request : RefreshRequest)
    {α : Type} (bare : Program Database Write RowLock StatementName (RefreshEvidence × Failure) α)
    (guarded : Tx α) (s : Session Database) : Prop :=
  match bare.exec s with
  | (.ok a, t) => guarded.exec s = (.ok a, t)
  | (.error (evidence, e), t) => ∃ u, guarded.exec s = (.error e, u) ∧
      u.committed = afterDenial faults denialId now request evidence e t.committed

theorem denies_attempt {α : Type} (evidence : RefreshEvidence) (p : Tx α) (s : Session Database) :
    Denies faults denialId now request (p.tagged evidence)
      (attempt (denyFailing faults denialId now request evidence) p) s := by
  unfold Denies
  rw [exec_attempt, exec_tagged]
  cases p.exec s with
  | mk r t =>
    cases r with
    | ok a => rfl
    | error e => exact exec_denyFailing evidence e t

theorem denies_bind {α β : Type}
    {bare : Program Database Write RowLock StatementName (RefreshEvidence × Failure) β}
    {guarded : Tx β}
    {k : β → Program Database Write RowLock StatementName (RefreshEvidence × Failure) α}
    {l : β → Tx α} {s : Session Database}
    (hp : Denies faults denialId now request bare guarded s)
    (hk : ∀ b t, Denies faults denialId now request (k b) (l b) t) :
    Denies faults denialId now request (bare >>= k) (guarded >>= l) s := by
  unfold Denies at hp ⊢
  rw [exec_bind, exec_bind]
  cases hrun : bare.exec s with
  | mk r t =>
    rw [hrun] at hp
    cases r with
    | ok b =>
      simp only at hp ⊢
      rw [hp]
      exact hk b t
    | error e =>
      obtain ⟨u, hguarded, hcommitted⟩ := hp
      simp only
      rw [hguarded]
      exact ⟨u, rfl, hcommitted⟩

theorem denies_refreshFailing (rt : Runtime) (repo : RepositoryClass) (draw : AccessDraw)
    (s : Session Database) :
    Denies faults denialId draw.now request (refreshBlock faults rt repo draw request)
      (refreshFailing faults rt repo denialId draw request) s := by
  unfold refreshBlock refreshFailing refreshSteps
  refine denies_bind (denies_attempt _ _ s) fun geo t₁ => ?_
  refine denies_bind (denies_attempt _ _ t₁) fun vpnStatus t₂ => ?_
  refine denies_bind (denies_attempt _ _ t₂) fun observed t₃ => ?_
  refine denies_bind (denies_attempt _ _ t₃) fun located t₄ => ?_
  refine denies_bind (denies_attempt _ _ t₄) fun schedule t₅ => ?_
  exact denies_attempt _ _ t₅

end Handlers

/-! ## The block ends with its commit -/

theorem within_observeSession (repo : RepositoryClass) (request : RefreshRequest) (now : Instant) :
    (observeSession repo request now).Within fun _ => True := by
  refine within_bind within_query fun _ => within_bind within_query fun context => ?_
  refine within_bind within_query fun policy => within_bind within_query fun observed => ?_
  cases observed with
  | none => exact within_raise _
  | some session =>
    dsimp only
    split
    · exact within_raise _
    · exact within_pure _

theorem within_lockSession (request : RefreshRequest) (device : Option Uuid) (now : Instant) :
    (lockSession request device now).Within fun _ => True := by
  refine within_bind ?_ fun _ => within_bind (within_execute fun _ _ _ _ _ => trivial) fun locked => ?_
  · exact within_bind (within_execute fun _ _ _ _ _ => trivial) fun _ => within_done _
  · cases locked with
    | none => exact within_raise _
    | some session =>
      dsimp only
      split
      · exact within_raise _
      · split
        · exact within_raise _
        · split
          · exact within_raise _
          · exact within_pure _

theorem within_renewLocked (request : RefreshRequest) (draw : AccessDraw) (vpnStatus : VpnStatus)
    (context : UserContext) (policy : TenantSecurityPolicy) (session : AccessSession)
    (location : LocationCandidate) (authorizedUntil : Instant) :
    (renewLocked request draw vpnStatus context policy session location authorizedUntil).Within
      fun _ => True := by
  unfold renewLocked
  dsimp only
  split
  · exact within_raise _
  · refine within_bind (within_execute fun _ _ _ _ _ => trivial) fun updated => ?_
    split
    · exact within_raise _
    · exact within_pure _

theorem endsAtCommit_refreshBlock (faults : RefreshFaults) (rt : Runtime) (repo : RepositoryClass)
    (draw : AccessDraw) (request : RefreshRequest) :
    (refreshBlock faults rt repo draw request).EndsAtCommit := by
  have hreads : ∀ {α : Type} {p : Tx α}, p.Within (fun _ => False) → p.Within fun _ => True :=
    fun h => h.weaken fun _ _ => trivial
  unfold refreshBlock refreshSteps
  refine endsAtCommit_bind (Q := fun _ => True) (within_done _) fun geo => ?_
  refine endsAtCommit_bind (Q := fun _ => True) (within_done _) fun vpnStatus => ?_
  refine endsAtCommit_bind (((within_observeSession repo request draw.now).failing _ _).tagged _) ?_
  rintro ⟨context, policy, device⟩
  have hlocate : (locateSession rt draw request geo policy device).Within fun _ => True :=
    within_bind (within_lockSession request device draw.now) fun _ =>
      within_bind (hreads (matchPosition_reads ..).1) fun _ => within_pure _
  refine endsAtCommit_bind ((hlocate.failing _ _).tagged _) ?_
  rintro ⟨session, location, distance⟩
  refine endsAtCommit_bind (((hreads (scheduleAt_reads ..).1).failing _ _).tagged _) fun schedule => ?_
  apply EndsAtCommit.tagged
  apply EndsAtCommit.failing
  refine endsAtCommit_bind (hreads (authorize_reads ..).1) ?_
  rintro ⟨roles, permissions⟩
  refine endsAtCommit_bind (within_renewLocked ..) fun expiry => ?_
  refine EndsAtCommit.map ?_ _
  refine endsAtCommit_bind (Q := fun _ => True) (within_execute fun _ _ _ _ _ => trivial) fun _ => ?_
  refine endsAtCommit_bind (Q := fun _ => True) (within_done _) fun token => ?_
  exact ⟨_, rfl⟩

/-! ## What a failed refresh leaves behind -/

theorem evidenceTransaction_committed (faults : RefreshFaults) (row : AccessContextEvaluation)
    (db : Database) :
    (((evidenceTransaction faults row).alone db).1 = .ok () →
      (db.accessContextEvaluations.insert? row).isSome = true ∧
        ((evidenceTransaction faults row).alone db).2 =
          { db with accessContextEvaluations := db.accessContextEvaluations.insert row }) ∧
    (((evidenceTransaction faults row).alone db).1 ≠ .ok () →
      ((evidenceTransaction faults row).alone db).2 = db) := by
  constructor
  · intro hrun
    obtain ⟨t, hrun⟩ : ∃ t, (evidenceTransaction faults row).exec ⟨db, db⟩ = (.ok (), t) :=
      ⟨_, Prod.ext hrun rfl⟩
    rw [alone, hrun]
    simp only [evidenceTransaction, recordEvaluation, execute, commitNow, Bind.bind, Program.bind,
      Program.failing, Program.exec, raise, pure] at hrun
    cases hplan : faults.evidence 0 with
    | some e =>
      rw [hplan] at hrun
      cases hrun
    | none =>
      rw [hplan] at hrun
      simp only at hrun
      split at hrun
      · cases hrun
      · rename_i o ho
        obtain ⟨hfree, _, hedits⟩ := insertRow_ok (fits_ok ho).2
        cases hcommit : faults.evidence (0 + 1) with
        | some e =>
          rw [hcommit] at hrun
          cases hrun
        | none =>
          rw [hcommit] at hrun
          cases hrun
          exact ⟨hfree, by rw [hedits]; rfl⟩
  · intro hfailed
    cases hrun : ((evidenceTransaction faults row).alone db).1 with
    | ok u => exact absurd hrun hfailed
    | error e => exact (endsAtCommit_evidenceTransaction faults row).alone_error hrun

/-- The one row of a denial is added if the error is one and its transaction succeeds, and nothing
else ever changes. -/
def DeniedExactly (faults : RefreshFaults) (denialId : Uuid) (now : Instant) (request : RefreshRequest)
    (error : Failure) (evidence : RefreshEvidence) (db after : Database) : Prop :=
  (∃ code, error.denialCode = some code ∧
      ((evidenceTransaction faults (evidence.denial denialId now request code)).alone db).1 = .ok () ∧
      after.accessContextEvaluations.rows =
        db.accessContextEvaluations.rows ++ [evidence.denial denialId now request code] ∧
      after = { db with accessContextEvaluations := after.accessContextEvaluations }) ∨
    ((∀ code, error.denialCode = some code →
      ((evidenceTransaction faults (evidence.denial denialId now request code)).alone db).1 ≠ .ok ()) ∧
      after = db)

theorem deniedExactly_afterDenial (faults : RefreshFaults) (denialId : Uuid) (now : Instant)
    (request : RefreshRequest) (error : Failure) (evidence : RefreshEvidence) (db : Database) :
    DeniedExactly faults denialId now request error evidence db
      (afterDenial faults denialId now request evidence error db) := by
  unfold DeniedExactly afterDenial
  cases error.denialCode with
  | none => exact Or.inr ⟨nofun, rfl⟩
  | some code =>
    obtain ⟨hrecorded, hfailed⟩ := evidenceTransaction_committed faults
      (evidence.denial denialId now request code) db
    by_cases hrun : ((evidenceTransaction faults
        (evidence.denial denialId now request code)).alone db).1 = .ok ()
    · obtain ⟨hfree, hafter⟩ := hrecorded hrun
      obtain ⟨inserted, hinsert⟩ := Option.isSome_iff_exists.mp hfree
      refine Or.inl ⟨code, rfl, hrun, ?_, ?_⟩
      · simp only [hafter]
        exact Table.rows_insert_of_some hinsert
      · simp only [hafter]
    · refine Or.inr ⟨?_, hfailed hrun⟩
      intro _ hcode
      obtain rfl := Option.some.inj hcode
      exact hrun

/-- Whatever fails in a refresh, the caller gets the error that the `try` block raised, and the
evidence of a denial is all that is left behind. A refresh that succeeds is the `try` block alone. -/
theorem failed_refresh_exact (rt : Runtime) (repo : RepositoryClass) (denialId : Uuid)
    (draw : AccessDraw) (request : RefreshRequest) (db : Database) :
    refreshFailing {} rt repo denialId draw request = refresh rt repo denialId draw request ∧
    ∀ faults : RefreshFaults,
      match ((refreshBlock faults rt repo draw request).alone db).1 with
      | .ok session => (refreshFailing faults rt repo denialId draw request).alone db =
          (.ok session, ((refreshBlock faults rt repo draw request).alone db).2)
      | .error (evidence, e) =>
        ((refreshFailing faults rt repo denialId draw request).alone db).1 = .error e ∧
          DeniedExactly faults denialId draw.now request e evidence db
            ((refreshFailing faults rt repo denialId draw request).alone db).2 := by
  refine ⟨refreshFailing_quiet rt repo denialId draw request, fun faults => ?_⟩
  have hdenies : Denies faults denialId draw.now request _ _ ⟨db, db⟩ :=
    denies_refreshFailing rt repo draw ⟨db, db⟩
  unfold Denies at hdenies
  unfold alone
  cases hrun : (refreshBlock faults rt repo draw request).exec ⟨db, db⟩ with
  | mk r t =>
    rw [hrun] at hdenies
    cases r with
    | ok session =>
      simp only at hdenies ⊢
      rw [hdenies]
    | error failure =>
      obtain ⟨evidence, e⟩ := failure
      obtain ⟨u, hguarded, hcommitted⟩ := hdenies
      have hblock := (endsAtCommit_refreshBlock faults rt repo draw request).exec_error hrun
      simp only [hguarded]
      refine ⟨trivial, ?_⟩
      rw [hcommitted, hblock]
      exact deniedExactly_afterDenial faults denialId draw.now request e evidence db

/-- A request without a position leaves its denial behind, unless that cannot be committed. -/
example : let request : RefreshRequest := ⟨"user", "tenant", "session", none, "192.0.2.1", "lost"⟩
    let after plan := ((refreshFailing { evidence := plan } workplaceRuntime .groupAware "denial"
      (drawAt 0 "evaluation") request).alone workplace).2.accessContextEvaluations.rows.map
        (·.decisionReasonCode)
    after .quiet = [.denied .geoRequired] ∧
      after (fun n => if n = 1 then some .dataError else none) = [] := by
  decide +kernel

end VerigenceSecurity
