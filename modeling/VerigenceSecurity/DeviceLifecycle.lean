import VerigenceSecurity.SecurityRepository
import VerigenceSecurity.TenantRoles

/-! # The approval of devices

`DeviceApprovalService` with the statements of its repository. The row of the
membership is locked first, so that the approvals of one user in one tenant take turns.
-/

namespace VerigenceSecurity
set_option autoImplicit false

open Transaction Program

structure DeviceApproval where
  enrollmentRequestId : Uuid
  deviceId : Uuid
  decidedByUserId : Uuid
  decidedAt : Instant

namespace Database

def membershipRow? (db : Database) (tenantId userId : Uuid) : Option TenantMembership :=
  db.tenantMemberships.rows.find? fun m => decide (m.tenantId = tenantId ∧ m.userId = userId)

def activeDevices (db : Database) (tenantId userId : Uuid) : Nat :=
  db.registeredDevices.rows.countP fun r =>
    decide (r.tenantId = tenantId ∧ r.userId = userId ∧ r.status = .active)

def pendingDevices (db : Database) (tenantId userId deviceId : Uuid) : List Uuid :=
  (db.registeredDevices.rows.filter fun r => decide (r.tenantId = tenantId ∧ r.userId = userId ∧
    r.deviceId = deviceId ∧ r.status = .pending)).map (·.deviceId)

def pendingEnrollments (db : Database) (tenantId userId : Uuid) (a : DeviceApproval) : List Uuid :=
  (db.deviceEnrollmentRequests.rows.filter fun r => decide (
    r.enrollmentRequestId = a.enrollmentRequestId ∧ r.tenantId = tenantId ∧ r.userId = userId ∧
    r.deviceId = a.deviceId ∧ r.status = .pending)).map (·.enrollmentRequestId)

end Database

/-! ## The repository -/

def lockMembershipForDeviceLimit (tenantId userId : Uuid) : Tx (Option TenantMembership) :=
  execute .lockMembershipForDeviceLimit fun db =>
    let found := db.membershipRow? tenantId userId
    .ok {
      value := found
      locks := found.toList.map fun m => rowLock .tenantMemberships [m.membershipId] .update }

def countActiveDevices (tenantId userId : Uuid) : Tx Nat :=
  query .countActiveDevices fun db => .ok (db.activeDevices tenantId userId)

def pendingDeviceForUpdate (tenantId userId deviceId : Uuid) : Tx Bool := do
  let found ← lockWhere .pendingDeviceForUpdate .registeredDevices
    fun db => db.pendingDevices tenantId userId deviceId
  pure (!found.isEmpty)

/-- `UPDATE ... RETURNING` of rows that the call has locked before. The approver is a foreign key. -/
def decideRows (name : StatementName) (relation : Relation) (find : Database → List Uuid)
    (decidedByUserId : Uuid) (write : Write) : Tx Bool :=
  execute name fun db =>
    if (find db).isEmpty then .ok { value := false }
    else if (db.userReference decidedByUserId).present = false then
      .error (.integrityError .foreignKey)
    else .ok {
      value := true
      edits := [write]
      locks := (db.userReference decidedByUserId).lock ::
        (find db).map fun id => rowLock relation [id] .noKeyUpdate }

def activateDevice (tenantId userId : Uuid) (a : DeviceApproval) : Tx Bool :=
  decideRows .activateDevice .registeredDevices
    (fun db => db.pendingDevices tenantId userId a.deviceId) a.decidedByUserId
    (.activatePendingDevice tenantId userId a.deviceId a.decidedByUserId a.decidedAt)

def approveEnrollmentRequest (tenantId userId : Uuid) (a : DeviceApproval) : Tx Bool :=
  decideRows .approveEnrollmentRequest .deviceEnrollmentRequests
    (fun db => db.pendingEnrollments tenantId userId a) a.decidedByUserId
    (.approveEnrollmentRequest a.enrollmentRequestId tenantId userId a.deviceId a.decidedByUserId
      a.decidedAt)

def activatePendingDevice (tenantId userId : Uuid) (a : DeviceApproval) : Tx Bool := do
  let requests ← lockWhere .pendingEnrollmentRequest .deviceEnrollmentRequests
    fun db => db.pendingEnrollments tenantId userId a
  if requests.isEmpty then pure false
  else
    if ← activateDevice tenantId userId a then approveEnrollmentRequest tenantId userId a
    else pure false

/-! ## The service -/

def checkMembership : Option TenantMembership → Except Failure Unit
  | none => .error (securityError .tenantMembershipRequired)
  | some m => if m.status ≠ .active then .error (securityError .tenantMembershipInactive) else .ok ()

def checkDeviceLimit (policy : TenantSecurityPolicy) (activeDevices : Nat) : Except Failure Unit :=
  if policy.maxActiveDevicesPerUser ≤ activeDevices then .error (securityError .deviceLimitReached)
  else .ok ()

def approvePendingDevice (tenantId userId : Uuid) (a : DeviceApproval) : Tx Bool :=
  attempt rollbackAndRaise (do
    let membership ← lockMembershipForDeviceLimit tenantId userId
    done (checkMembership membership)
    let policy ← getTenantPolicy tenantId
    if ← pendingDeviceForUpdate tenantId userId a.deviceId then
      let activeDevices ← countActiveDevices tenantId userId
      done (checkDeviceLimit policy activeDevices)
      if ← activatePendingDevice tenantId userId a then
        commitNow
        pure true
      else
        rollbackNow
        pure false
    else
      rollbackNow
      pure false)

end VerigenceSecurity
