import VerigenceSecurity.TenantRbac

/-! # Maker-checker for privileged roles

The gate service sends privileged standard roles into a request that somebody
else has to approve. `PrivilegedAccessService` extends it with the decisions.
-/

namespace VerigenceSecurity
set_option autoImplicit false

open Transaction Program

/-- `PRIVILEGED_TENANT_ROLE_KEYS` of the gate service. -/
def privilegedTenantRoleKeys : List String :=
  ["tenant.owner", "tenant.admin", "tenant.rbac_admin", "tenant.access_admin",
    "tenant.security_policy_admin", "tenant.security_approver"]

/-- `PRIVILEGED_ROLE_KEYS` of the privileged access service. -/
def privilegedRoleKeys : List String :=
  ["tenant.owner", "tenant.admin", "tenant.rbac_admin", "tenant.access_admin",
    "tenant.security_policy_admin", "tenant.security_approver"]

/-- The two services list the same keys, and tenant administrators cannot create a role
under any of them. -/
theorem privileged_keys_reserved :
    privilegedRoleKeys = privilegedTenantRoleKeys ∧
      ∀ key ∈ privilegedTenantRoleKeys, reservedRoleKey key = true := by
  decide

def roleKeyAndStatus (tenantId roleId : Uuid) : Tx (Option (String × ActiveStatus)) :=
  query .roleKeyAndStatus fun db =>
    .ok ((db.roleRow? tenantId roleId).map fun r => (r.roleKey, r.status))

def requestRow (c : AdminCall) (tenantId userId roleId : Uuid) : PrivilegedAccessRequest where
  requestId := c.newId
  tenantId := tenantId
  subjectUserId := userId
  roleId := roleId
  sourceInvitationId := none
  status := .pending
  requestedByUserId := c.actorUserId
  requestedAt := c.now
  approvedByUserId := none
  decidedAt := none
  decisionReason := none
  correlationId := c.correlationId
  independent := by simp

def insertRequest (c : AdminCall) (tenantId userId roleId : Uuid) : Tx Unit := do
  execute .insertRequest fun db =>
    let row := requestRow c tenantId userId roleId
    insertRow db.privilegedAccessRequests row [db.tenantReference tenantId,
      db.userReference userId, db.roleReference tenantId roleId, db.userReference c.actorUserId]
      (.insertPrivilegedAccessRequest row)
  audit c tenantId "security.privileged_access.request" "PRIVILEGED_ACCESS_REQUEST" c.newId
  commitNow

/-- `except IntegrityError`: roll back, look for the request that won, or raise again. -/
def onIntegrityError {α : Type} (found : Tx (Option α)) (error : Failure) : Tx α :=
  match error with
  | .integrityError _ => do
    rollbackNow
    match ← found with
    | none => raise error
    | some result => pure result
  | _ => raise error

def Database.pendingRequest? (db : Database) (tenantId userId roleId : Uuid) :
    Option PrivilegedAccessRequest :=
  db.privilegedAccessRequests.rows.find? fun r => decide (r.tenantId = tenantId ∧
    r.subjectUserId = userId ∧ r.roleId = roleId ∧ r.status = .pending)

/-- `TenantRbacGateService.assign_user_role`. The nested call of the base service reads
the clock again, as `innerNow`. -/
def assignUserRole (c : AdminCall) (innerNow : Instant) (tenantId userId roleId : Uuid) : Tx Bool := do
  match ← roleKeyAndStatus tenantId roleId with
  | none | some (_, .inactive) => raise (.valueError "Role must be ACTIVE")
  | some (roleKey, .active) =>
    if roleKey ∉ privilegedTenantRoleKeys then
      adminAssignUserRole { c with now := innerNow } tenantId userId roleId
    else
      let active ← activeMembership userId
      if !active then raise (.valueError "User must be ACTIVE")
      else
        let assigned ← query .existingUserRole fun db =>
          .ok (db.activeUserRole tenantId userId roleId)
        if assigned then
          rollbackNow
          pure false
        else
          let pending ← query .pendingRequest fun db =>
            .ok (db.pendingRequest? tenantId userId roleId).isSome
          if pending then
            rollbackNow
            pure false
          else
            attempt
              (onIntegrityError do
                let existing ← query .pendingRequest fun db =>
                  .ok (db.pendingRequest? tenantId userId roleId).isSome
                pure (if existing then some false else none))
              (do
                insertRequest c tenantId userId roleId
                pure true)

/-! ## `PrivilegedAccessService` -/

/-- `_public`. The answer to a fresh request has no decision fields. -/
structure PublicRequest where
  requestId : Uuid
  tenantId : Uuid
  subjectUserId : Uuid
  roleId : Uuid
  roleKey : String
  status : RequestStatus
  requestedByUserId : Uuid
  requestedAt : Option Instant := none
  approvedByUserId : Option Uuid := none
  decidedAt : Option Instant := none
  decisionReason : Option String := none
  sourceInvitationId : Option Uuid := none
  privileged : Bool := true
  deriving DecidableEq, Repr

def PublicRequest.ofRow (row : PrivilegedAccessRequest) (roleKey : String) : PublicRequest where
  requestId := row.requestId
  tenantId := row.tenantId
  subjectUserId := row.subjectUserId
  roleId := row.roleId
  roleKey := roleKey
  status := row.status
  requestedByUserId := row.requestedByUserId
  requestedAt := some row.requestedAt
  approvedByUserId := row.approvedByUserId
  decidedAt := row.decidedAt
  decisionReason := row.decisionReason
  sourceInvitationId := row.sourceInvitationId

inductive RequestOrAssignment
  | assignment (created privileged : Bool)
  | request (request : PublicRequest)
  deriving DecidableEq, Repr

structure RequestWithRole where
  row : PrivilegedAccessRequest
  roleKey : String

namespace Database

def withRole (db : Database) (row : PrivilegedAccessRequest) : Option RequestWithRole :=
  (db.roleRow? row.tenantId row.roleId).map fun ro => ⟨row, ro.roleKey⟩

def pendingRequestWithRole? (db : Database) (tenantId userId roleId : Uuid) :
    Option RequestWithRole :=
  (db.pendingRequest? tenantId userId roleId).bind db.withRole

def requestWithRole? (db : Database) (tenantId requestId : Uuid) : Option RequestWithRole :=
  (db.privilegedAccessRequests.rows.find? fun r =>
    decide (r.tenantId = tenantId ∧ r.requestId = requestId)).bind db.withRole

end Database

def pendingRequest (tenantId userId roleId : Uuid) : Tx (Option RequestWithRole) :=
  query .pendingRequest fun db => .ok (db.pendingRequestWithRole? tenantId userId roleId)

/-- The clock is read by the service, by the gate it calls and by the base service. -/
def requestOrAssignUserRole (c : AdminCall) (gateNow innerNow : Instant)
    (tenantId userId roleId : Uuid) : Tx RequestOrAssignment := do
  let active ← activeMembership userId
  if !active then raise (.valueError "User must be ACTIVE")
  else
    match ← roleKeyAndStatus tenantId roleId with
    | none | some (_, .inactive) => raise (.valueError "Role must be ACTIVE")
    | some (roleKey, .active) =>
      if roleKey ∉ privilegedRoleKeys then
        let created ← assignUserRole { c with now := gateNow } innerNow tenantId userId roleId
        pure (.assignment created false)
      else
        let assigned ← query .existingUserRole fun db =>
          .ok (db.activeUserRole tenantId userId roleId)
        if assigned then
          rollbackNow
          pure (.assignment false true)
        else
          match ← pendingRequest tenantId userId roleId with
          | some pending =>
            rollbackNow
            pure (.request (.ofRow pending.row roleKey))
          | none =>
            attempt
              (onIntegrityError do
                let pending ← pendingRequest tenantId userId roleId
                pure (pending.map fun p => .request (.ofRow p.row roleKey)))
              (do
                insertRequest c tenantId userId roleId
                pure (.request {
                  requestId := c.newId, tenantId := tenantId, subjectUserId := userId
                  roleId := roleId, roleKey := roleKey, status := .pending
                  requestedByUserId := c.actorUserId }))

def lockedRequest (tenantId requestId : Uuid) : Tx RequestWithRole :=
  execute .lockedRequest fun db =>
    match db.requestWithRole? tenantId requestId with
    | none => .error (.lookupError "Privileged access request not found")
    | some request => .ok {
        value := request
        locks := [rowLock .privilegedAccessRequests [requestId] .update] }

def request (tenantId requestId : Uuid) : Tx RequestWithRole :=
  query .request fun db =>
    match db.requestWithRole? tenantId requestId with
    | none => .error (.lookupError "Privileged access request not found")
    | some request => .ok request

def requirePendingAndIndependent (request : PrivilegedAccessRequest) (approverUserId : Uuid) :
    Except Failure Unit :=
  if request.status ≠ .pending then
    .error (.valueError "Privileged access request is no longer pending")
  else if request.requestedByUserId = approverUserId then
    .error (.valueError "Requester cannot approve or reject their own privileged access request")
  else if request.subjectUserId = approverUserId then
    .error (.valueError "Subject cannot approve or reject their own privileged access request")
  else .ok ()

def decideRequest (c : AdminCall) (tenantId requestId : Uuid) (status : RequestStatus)
    (reason : Option String) : Tx Unit :=
  execute .decideRequest fun db =>
    if db.privilegedAccessRequests.rows.any fun r => decide (r.tenantId = tenantId ∧
        r.requestId = requestId ∧ (r.subjectUserId = c.actorUserId ∨
          r.requestedByUserId = c.actorUserId)) then .error (.integrityError .check)
    else .ok {
      value := ()
      edits := [.decidePrivilegedAccessRequest tenantId requestId status c.actorUserId c.now reason]
      locks := [rowLock .privilegedAccessRequests [requestId] .noKeyUpdate] }

def recordDecision (c : AdminCall) (tenantId requestId : Uuid) (roleKey : String)
    (status : RequestStatus) (reason : Option String) (operationKey : String) : Tx PublicRequest := do
  decideRequest c tenantId requestId status reason
  audit c tenantId operationKey "PRIVILEGED_ACCESS_REQUEST" requestId
  commitNow
  let decided ← request tenantId requestId
  pure (.ofRow decided.row roleKey)

def approve (c : AdminCall) (tenantId requestId : Uuid) (reason : Option String) :
    Tx PublicRequest := do
  let request ← lockedRequest tenantId requestId
  match requirePendingAndIndependent request.row c.actorUserId with
  | .error e => raise e
  | .ok _ =>
    let subject := request.row.subjectUserId
    let roleId := request.row.roleId
    let active ← activeMembership subject
    if !active then raise (.valueError "Subject user must be ACTIVE")
    else
      let activeRole ← query .activeRole fun db => .ok (db.activeRole tenantId roleId)
      if !activeRole then raise (.valueError "Role must be ACTIVE")
      else
        let exists? ← query .existingUserRole fun db =>
          .ok (db.activeUserRole tenantId subject roleId)
        if exists? then
          recordDecision c tenantId requestId request.roleKey .approved reason
            "security.privileged_access.approve"
        else
          insertUserRole c tenantId subject roleId request.row.requestedByUserId
          bumpVersions tenantId [subject]
          recordDecision c tenantId requestId request.roleKey .approved reason
            "security.privileged_access.approve"

def reject (c : AdminCall) (tenantId requestId : Uuid) (reason : Option String) :
    Tx PublicRequest := do
  let request ← lockedRequest tenantId requestId
  match requirePendingAndIndependent request.row c.actorUserId with
  | .error e => raise e
  | .ok _ =>
    recordDecision c tenantId requestId request.roleKey .rejected reason
      "security.privileged_access.reject"

end VerigenceSecurity
