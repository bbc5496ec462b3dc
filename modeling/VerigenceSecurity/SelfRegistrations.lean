import VerigenceSecurity.TenantInvitations
import VerigenceSecurity.UserLifecycle

/-! # Self-onboarding into a tenant

The other part of `OnboardingService`: who shows the tenant's token submits a request, and an
administrator approves it with the access to grant, or rejects it.
-/

namespace VerigenceSecurity
set_option autoImplicit false

open Transaction Program Relational

/-! ## `_effective_control` -/

structure ControlState where
  configurable : Bool
  defaultEnabled : Bool
  parentControlKey : Option String
  platformEnabled : Option Bool
  overrideMode : Option OverrideMode
  deriving DecidableEq, Repr

/-- Whether the control is on by itself, whatever its parent is. -/
def ControlState.enabled (s : ControlState) : Bool :=
  if s.configurable = false ∨ s.overrideMode = some .enabled then true
  else if s.overrideMode = some .disabled then false
  else s.platformEnabled.getD s.defaultEnabled

def OnboardingDatabase.controlState? (db : OnboardingDatabase) (tenantId : Uuid)
    (controlKey : String) : Option ControlState :=
  (db.securityControlDefinitions.rows.find? fun d =>
    decide (d.controlKey = controlKey ∧ d.status = .active)).map fun d =>
    { configurable := d.configurable
      defaultEnabled := d.defaultEnabled
      parentControlKey := d.parentControlKey
      platformEnabled := (db.platformSecurityControlSettings.rows.find? fun p =>
        decide (p.controlKey = d.controlKey)).map (·.enabled)
      overrideMode := (db.tenantSecurityControlOverrides.rows.find? fun o =>
        decide (o.controlKey = d.controlKey ∧ o.tenantId = tenantId)).map (·.overrideMode) }

/-- The recursion through the parents ends in an error at the interpreter's depth. -/
def effectiveControl (tenantId : Uuid) : Nat → String → OnboardingTx Bool
  | 0, _ => raise (.runtimeError "maximum recursion depth exceeded")
  | depth + 1, controlKey => do
    let state ← query .control fun db => .ok (db.controlState? tenantId controlKey)
    match state with
    | none => pure false
    | some state =>
      match state.parentControlKey with
      | none => pure state.enabled
      | some parent =>
        if state.enabled then effectiveControl tenantId depth parent else pure false

/-! ## `submit_self_registration` -/

structure SelfRegistrationCall where
  tenantCode : String
  onboardingToken : String
  identityProvider : IdentityProvider
  identitySubject : String
  displayName : String
  sourceIp : String
  correlationId : String
  now : Instant
  userId : Uuid
  externalIdentityId : Uuid
  membershipId : Uuid
  requestId : Uuid
  changeId : Uuid

inductive SubmittedStatus
  | active | pendingAdminApproval
  deriving DecidableEq, Repr

structure SelfRegistration where
  tenantId : Uuid
  userId : Uuid
  status : SubmittedStatus
  requestId : Option Uuid
  deriving DecidableEq, Repr

def resolveOrCreateIdentityUser (c : SelfRegistrationCall) : OnboardingTx (Uuid × Uuid) := do
  let found ← query .identity fun db =>
    .ok (db.boundIdentity? c.identityProvider c.identitySubject)
  match found with
  | none =>
    storedPart.program (insertPrincipal ⟨c.userId, .user, c.displayName, .active⟩)
    storedPart.program (insertUser (accountRow c.userId c.displayName c.now))
    storedPart.program (insertExternalIdentity ⟨c.externalIdentityId, c.userId, c.identityProvider,
      c.identitySubject, .active⟩)
    pure (c.userId, c.externalIdentityId)
  | some identity =>
    if identity.status ≠ .active ∨ identity.principalStatus ≠ .active then
      raise (securityError .principalNotActive)
    else if identity.userStatus = .invited then
      storedPart.program (updateUserStatus identity.userId .active c.now)
      pure (identity.userId, identity.externalIdentityId)
    else if identity.userStatus = .active then pure (identity.userId, identity.externalIdentityId)
    else raise (securityError .userNotActive)

def lockMembership (tenantId userId : Uuid) : OnboardingTx (Option TenantMembership) :=
  execute .lockMembership fun db =>
    match db.membership? tenantId userId with
    | none => .ok { value := none }
    | some row => .ok { value := some row, locks := [membershipLock row.membershipId .update] }

def OnboardingDatabase.pendingSelfRequest? (db : OnboardingDatabase) (tenantId userId : Uuid) :
    Option SelfOnboardingRequest :=
  db.selfOnboardingRequests.rows.find? fun r => decide (r.tenantId = tenantId ∧
    r.userId = userId ∧ r.status = .pendingAdminApproval)

def SelfRegistrationCall.row (c : SelfRegistrationCall) (tenantId userId identityId : Uuid) :
    SelfOnboardingRequest where
  selfOnboardingRequestId := c.requestId
  tenantId := tenantId
  userId := userId
  externalIdentityId := identityId
  status := .pendingAdminApproval
  submittedAt := c.now
  submittedSourceIp := c.sourceIp
  reviewedByUserId := none
  reviewedAt := none
  reviewReason := none
  correlationId := c.correlationId

def insertSelfRequest (row : SelfOnboardingRequest) : OnboardingTx Unit :=
  execute .insertSelfRequest fun db =>
    insertChecked (db.selfOnboardingRequests.insert? row).isSome
      (ownLocks .selfOnboardingRequests row.entries)
      [db.tenantRef row.tenantId, db.userRef row.userId, db.identityRef row.externalIdentityId]
      (.insertSelfOnboardingRequest row)

def insertMissingMembership (c : SelfRegistrationCall) (membership : Option TenantMembership)
    (tenantId userId : Uuid) : OnboardingTx Unit :=
  match membership with
  | none => insertMembership (pendingMembership c.membershipId tenantId userId)
  | some _ => pure ()

/-- A request that is pending already is the answer; otherwise a new one is made. -/
def pendingOrNewRequest (c : SelfRegistrationCall) (membership : Option TenantMembership)
    (tenantId userId identityId : Uuid) : OnboardingTx SelfRegistration := do
  let pending ← query .pendingSelfRequest fun db => .ok (db.pendingSelfRequest? tenantId userId)
  match pending with
  | some pending =>
    commitNow
    pure ⟨tenantId, userId, .pendingAdminApproval, some pending.selfOnboardingRequestId⟩
  | none =>
    insertMissingMembership c membership tenantId userId
    insertSelfRequest (c.row tenantId userId identityId)
    recordChange c.changeId c.correlationId tenantId userId "security.self_onboarding.submit"
      "SELF_ONBOARDING_REQUEST" c.requestId c.now
    commitNow
    pure ⟨tenantId, userId, .pendingAdminApproval, some c.requestId⟩

def registerWith (c : SelfRegistrationCall) (tenantId : Uuid) : OnboardingTx SelfRegistration := do
  let found ← resolveOrCreateIdentityUser c
  let membership ← lockMembership tenantId found.1
  match membership.map TenantMembership.status with
  | some .active =>
    commitNow
    pure ⟨tenantId, found.1, .active, none⟩
  | some .suspended | some .ended =>
    raise (.valueError "Existing Tenant membership cannot self-onboard")
  | some .pending | none => pendingOrNewRequest c membership tenantId found.1 found.2

/-- `depth` is what the interpreter leaves for the recursion. -/
def submitSelfRegistration (verify : String → String → Bool) (depth : Nat)
    (c : SelfRegistrationCall) : OnboardingTx SelfRegistration := do
  let tenant ← query .tenantByCode fun db =>
    .ok (db.tenants.rows.find? fun r => decide (r.tenantCode = c.tenantCode))
  match tenant with
  | none => raise (securityError .permissionDenied)
  | some tenant =>
    let enabled ← effectiveControl tenant.tenantId depth "admin.self_onboarding"
    if !enabled then raise (securityError .permissionDenied)
    else
      let setting ← query .selfOnboardingToken fun db =>
        .ok (db.tenantSelfOnboardingSettings.rows.find? fun r =>
          decide (r.tenantId = tenant.tenantId))
      match setting with
      | none => raise (securityError .permissionDenied)
      | some setting =>
        if setting.status ≠ .active then raise (securityError .permissionDenied)
        else if verify setting.tokenHash c.onboardingToken = false then
          raise (securityError .permissionDenied)
        else attempt rollbackAndReraise (registerWith c tenant.tenantId)

/-! ## Reviews -/

structure SelfRequestView where
  requestId : Uuid
  tenantId : Uuid
  userId : Uuid
  displayName : String
  primaryEmail : Option String
  primaryMobile : Option String
  status : SelfOnboardingStatus
  submittedAt : Instant
  reviewedByUserId : Option Uuid
  reviewedAt : Option Instant
  reviewReason : Option String
  correlationId : String
  deriving DecidableEq, Repr

def OnboardingDatabase.selfRequest? (db : OnboardingDatabase) (tenantId requestId : Uuid) :
    Option SelfOnboardingRequest :=
  db.selfOnboardingRequests.rows.find? fun r => decide (r.tenantId = tenantId ∧
    r.selfOnboardingRequestId = requestId)

def OnboardingDatabase.selfRequestView? (db : OnboardingDatabase) (tenantId requestId : Uuid) :
    Option SelfRequestView :=
  (db.selfRequest? tenantId requestId).bind fun r =>
  (db.users.rows.find? fun u => decide (u.userId = r.userId)).map fun u =>
    ⟨r.selfOnboardingRequestId, r.tenantId, r.userId, u.displayName, u.primaryEmail,
      u.primaryMobile, r.status, r.submittedAt, r.reviewedByUserId, r.reviewedAt, r.reviewReason,
      r.correlationId⟩

def getSelfRequest (tenantId requestId : Uuid) : OnboardingTx (Option SelfRequestView) :=
  query .selfRequest fun db => .ok (db.selfRequestView? tenantId requestId)

structure ReviewCall where
  tenantId : Uuid
  requestId : Uuid
  actorUserId : Uuid
  correlationId : String
  now : Instant
  grantIds : GrantIds
  changeId : Uuid

/-- `SELECT ... FOR UPDATE`, and the request has to be pending. -/
def lockSelfRequest (c : ReviewCall) : OnboardingTx SelfOnboardingRequest := do
  let found ← execute .lockSelfRequest fun db =>
    match db.selfRequest? c.tenantId c.requestId with
    | none => .error (.lookupError "Self-onboarding request not found")
    | some row => .ok {
        value := row
        locks := [ownLock .selfOnboardingRequests c.requestId .update] }
  if found.status ≠ .pendingAdminApproval then
    rollbackNow
    raise (.valueError "Self-onboarding request is not pending approval")
  else pure found

def updateSelfRequest (name : OnboardingStatement) (c : ReviewCall) (write : OnboardingWrite) :
    OnboardingTx Unit :=
  execute name fun db =>
    if (db.userRef c.actorUserId).present = false then .error (.integrityError .foreignKey)
    else .ok {
      value := ()
      edits := [write]
      locks := [ownLock .selfOnboardingRequests c.requestId .noKeyUpdate,
        (db.userRef c.actorUserId).lock] }

def approveLocked (c : ReviewCall) (userId : Uuid) (access : ProposedAccess) : OnboardingTx Unit := do
  AccessGrant.materialize ⟨c.tenantId, userId, c.actorUserId, c.now, c.grantIds⟩ access
  updateSelfRequest .approveSelfRequest c (.approveSelfOnboardingRequest c.requestId c.actorUserId c.now)
  recordChange c.changeId c.correlationId c.tenantId c.actorUserId "security.member.approve"
    "SELF_ONBOARDING_REQUEST" c.requestId c.now
  commitNow

def approveSelfRequest (c : ReviewCall) (access : ProposedAccess) : OnboardingTx SelfRequestView := do
  let request ← lockSelfRequest c
  let validated ← validatedAccess c.tenantId access
  if validated.privilegedRoleIds ≠ [] then
    rollbackNow
    raise (.valueError "Privileged roles require maker-checker Increment G")
  else
    let membership ← lockMembership c.tenantId request.userId
    if membership.map TenantMembership.status ≠ some .pending then
      rollbackNow
      raise (.valueError "Self-onboarding membership is not PENDING")
    else
      attempt rollbackAndReraise (approveLocked c request.userId validated.access)
      let row ← getSelfRequest c.tenantId c.requestId
      match row with
      | none => raise (.runtimeError "Approved self-onboarding request could not be reloaded")
      | some row => pure row

def rejectLocked (c : ReviewCall) (reason : Option String) : OnboardingTx Unit := do
  updateSelfRequest .rejectSelfRequest c
    (.rejectSelfOnboardingRequest c.requestId c.actorUserId c.now reason)
  recordChange c.changeId c.correlationId c.tenantId c.actorUserId "security.member.reject"
    "SELF_ONBOARDING_REQUEST" c.requestId c.now
  commitNow

def rejectSelfRequest (c : ReviewCall) (reason : Option String) : OnboardingTx SelfRequestView := do
  let _ ← lockSelfRequest c
  attempt rollbackAndReraise (rejectLocked c reason)
  let row ← getSelfRequest c.tenantId c.requestId
  match row with
  | none => raise (.runtimeError "Rejected self-onboarding request could not be reloaded")
  | some row => pure row

end VerigenceSecurity
