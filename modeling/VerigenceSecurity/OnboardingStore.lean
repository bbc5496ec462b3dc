import VerigenceSecurity.Storage
import VerigenceSecurity.Library.Embedding

/-! # The rows of tenant onboarding

Invitations and requests for self-onboarding, with the writes to memberships, users and locations
that only their service makes. The rest of the schema is a part of these rows, and what is written
there alone is a write of the part.
-/

namespace VerigenceSecurity
set_option autoImplicit false

open Transaction Relational

inductive InvitationStatus
  | pending | accepted | cancelled | expired | rejected
  deriving DecidableEq, Repr

inductive SelfOnboardingStatus
  | pendingAdminApproval | approved | rejected | cancelled
  deriving DecidableEq, Repr

inductive OverrideMode
  | inherit | enabled | disabled
  deriving DecidableEq, Repr

inductive ControlStatus
  | active | retired
  deriving DecidableEq, Repr

structure ProposedLocation where
  locationId : Uuid
  scheduleId : Uuid
  deriving DecidableEq, Repr

/-- `proposed_access_json`. -/
structure ProposedAccess where
  roleIds : List Uuid
  groupIds : List Uuid
  locationAssignments : List ProposedLocation
  deriving DecidableEq, Repr

/-- `lifetime` is the table's `CHECK (expires_at_utc > invited_at_utc)`. -/
structure TenantInvitation where
  invitationId : Uuid
  tenantId : Uuid
  invitedUserId : Uuid
  inviteeEmail : Option String
  inviteeMobile : Option String
  employeeCode : Option String
  acceptanceTokenHash : String
  proposedAccess : ProposedAccess
  requiresPrivilegedApproval : Bool
  status : InvitationStatus
  invitedByUserId : Uuid
  invitedAt : Instant
  expiresAt : Instant
  acceptedAt : Option Instant
  correlationId : String
  lifetime : invitedAt < expiresAt

def TenantInvitation.entries (r : TenantInvitation) : List IndexEntry :=
  [(.primary, [r.invitationId]), (.natural, [r.acceptanceTokenHash])]

structure SelfOnboardingRequest where
  selfOnboardingRequestId : Uuid
  tenantId : Uuid
  userId : Uuid
  externalIdentityId : Uuid
  status : SelfOnboardingStatus
  submittedAt : Instant
  submittedSourceIp : String
  reviewedByUserId : Option Uuid
  reviewedAt : Option Instant
  reviewReason : Option String
  correlationId : String
  deriving DecidableEq, Repr

/-- A request that is pending or approved is the only one of its user in the tenant. -/
def SelfOnboardingRequest.entries (r : SelfOnboardingRequest) : List IndexEntry :=
  (.primary, [r.selfOnboardingRequestId]) ::
    match r.status with
    | .pendingAdminApproval | .approved => [(.active, [r.tenantId, r.userId])]
    | .rejected | .cancelled => []

structure SecurityControlDefinition where
  controlKey : String
  parentControlKey : Option String
  configurable : Bool
  defaultEnabled : Bool
  status : ControlStatus
  deriving DecidableEq, Repr

structure PlatformSecurityControlSetting where
  controlKey : String
  enabled : Bool
  deriving DecidableEq, Repr

structure TenantSecurityControlOverride where
  tenantId : Uuid
  controlKey : String
  overrideMode : OverrideMode
  deriving DecidableEq, Repr

abbrev Invitations := Table TenantInvitation IndexEntry TenantInvitation.entries

abbrev SelfOnboardingRequests := Table SelfOnboardingRequest IndexEntry SelfOnboardingRequest.entries

abbrev ControlDefinitions := Table SecurityControlDefinition String fun r => [r.controlKey]

abbrev PlatformControls := Table PlatformSecurityControlSetting String fun r => [r.controlKey]

abbrev ControlOverrides :=
  Table TenantSecurityControlOverride (List String) fun r => [[r.tenantId, r.controlKey]]

structure OnboardingDatabase extends Database where
  tenantInvitations : Invitations
  selfOnboardingRequests : SelfOnboardingRequests
  securityControlDefinitions : ControlDefinitions
  platformSecurityControlSettings : PlatformControls
  tenantSecurityControlOverrides : ControlOverrides
  deriving Inhabited

/-! ## Writes -/

inductive OnboardingWrite
  | stored (write : Write)
  | insertInvitation (row : TenantInvitation)
  | cancelInvitation (tenantId invitationId : Uuid)
  | expireInvitation (invitationId : Uuid)
  | rebindInvitation (invitationId userId : Uuid)
  | acceptInvitation (invitationId : Uuid) (now : Instant)
  | insertMembership (row : TenantMembership)
  | activatePendingMembership (ids : List Uuid) (tenantId userId : Uuid) (now : Instant)
  | endPendingMembership (ids : List Uuid) (tenantId userId : Uuid) (now : Instant)
  | deletePendingMembership (ids : List Uuid) (tenantId userId : Uuid)
  | activateInvitedUser (userId : Uuid) (now : Instant)
  | deleteUser (userId : Uuid)
  | deletePrincipal (principalId : Uuid)
  | insertUserLocationAssignment (row : UserLocationAssignment)
  | insertSelfOnboardingRequest (row : SelfOnboardingRequest)
  | approveSelfOnboardingRequest (requestId actor : Uuid) (now : Instant)
  | rejectSelfOnboardingRequest (requestId actor : Uuid) (now : Instant) (reason : Option String)

/-- `valid_from_utc=COALESCE(valid_from_utc,:now)`. -/
def TenantMembership.activated (now : Instant) (r : TenantMembership) : TenantMembership :=
  { r with status := .active, validFrom := some (r.validFrom.getD now) }

def TenantMembership.ended (now : Instant) (r : TenantMembership) : TenantMembership :=
  { r with status := .ended, validTo := some now }

/-- `CASE WHEN status='INVITED' THEN 'ACTIVE' ELSE status END`. -/
def User.invitedActivated (now : Instant) (r : User) : User :=
  { r with status := if r.status = .invited then .active else r.status, updatedAt := now }

def TenantInvitation.accept (now : Instant) (r : TenantInvitation) : TenantInvitation :=
  { r with status := .accepted, acceptedAt := some now }

def TenantMembership.isPendingOf (ids : List Uuid) (tenantId userId : Uuid) (r : TenantMembership) :
    Bool :=
  decide (r.membershipId ∈ ids ∧ r.tenantId = tenantId ∧ r.userId = userId ∧ r.status = .pending)

def SelfOnboardingRequest.rejectedBy (actor : Uuid) (now : Instant) (reason : Option String)
    (r : SelfOnboardingRequest) : SelfOnboardingRequest :=
  { r with
    status := .rejected
    reviewedByUserId := some actor
    reviewedAt := some now
    reviewReason := reason }

def SelfOnboardingRequest.approvedBy (actor : Uuid) (now : Instant) (r : SelfOnboardingRequest) :
    SelfOnboardingRequest :=
  { r with status := .approved, reviewedByUserId := some actor, reviewedAt := some now }

theorem SelfOnboardingRequest.entries_rejectedBy (actor : Uuid) (now : Instant)
    (reason : Option String) (r : SelfOnboardingRequest) :
    (r.rejectedBy actor now reason).entries ⊆ r.entries := by
  intro k hk
  rw [List.mem_singleton.mp hk]
  exact List.mem_cons_self

namespace OnboardingDatabase

def setMemberships (db : OnboardingDatabase) (t : Rows TenantMembership) : OnboardingDatabase :=
  { db with tenantMemberships := t }

def setInvitations (db : OnboardingDatabase) (t : Invitations) : OnboardingDatabase :=
  { db with tenantInvitations := t }

def setUsers (db : OnboardingDatabase) (t : Rows User) : OnboardingDatabase :=
  { db with users := t }

def setSelfOnboardingRequests (db : OnboardingDatabase) (t : SelfOnboardingRequests) :
    OnboardingDatabase :=
  { db with selfOnboardingRequests := t }

end OnboardingDatabase

namespace OnboardingWrite

def apply (db : OnboardingDatabase) : OnboardingWrite → OnboardingDatabase
  | stored write => { db with toDatabase := write.apply db.toDatabase }
  | insertInvitation row => db.setInvitations (db.tenantInvitations.insert row)
  | cancelInvitation tenantId invitationId =>
    db.setInvitations (db.tenantInvitations.update
      (fun r => decide (r.tenantId = tenantId ∧ r.invitationId = invitationId))
      (fun r => { r with status := .cancelled }) fun _ => List.Subset.refl _)
  | expireInvitation invitationId =>
    db.setInvitations (db.tenantInvitations.update
      (fun r => decide (r.invitationId = invitationId ∧ r.status = .pending))
      (fun r => { r with status := .expired }) fun _ => List.Subset.refl _)
  | rebindInvitation invitationId userId =>
    db.setInvitations (db.tenantInvitations.update
      (fun r => decide (r.invitationId = invitationId))
      (fun r => { r with invitedUserId := userId }) fun _ => List.Subset.refl _)
  | acceptInvitation invitationId now =>
    db.setInvitations (db.tenantInvitations.update
      (fun r => decide (r.invitationId = invitationId)) (TenantInvitation.accept now)
      fun _ => List.Subset.refl _)
  | insertMembership row => db.setMemberships (db.tenantMemberships.insert row)
  | activatePendingMembership ids tenantId userId now =>
    db.setMemberships (db.tenantMemberships.update
      (TenantMembership.isPendingOf ids tenantId userId) (TenantMembership.activated now)
      fun _ => List.Subset.refl _)
  | endPendingMembership ids tenantId userId now =>
    db.setMemberships (db.tenantMemberships.update
      (TenantMembership.isPendingOf ids tenantId userId) (TenantMembership.ended now)
      fun _ => List.Subset.refl _)
  | deletePendingMembership ids tenantId userId =>
    db.setMemberships (db.tenantMemberships.delete
      (TenantMembership.isPendingOf ids tenantId userId))
  | activateInvitedUser userId now =>
    db.setUsers (db.users.update (fun r => decide (r.userId = userId)) (User.invitedActivated now)
      fun _ => List.Subset.refl _)
  | deleteUser userId => db.setUsers (db.users.delete fun r => decide (r.userId = userId))
  | deletePrincipal principalId =>
    { db with
      securityPrincipals :=
        db.securityPrincipals.delete fun r => decide (r.principalId = principalId) }
  | insertUserLocationAssignment row =>
    { db with userLocationAssignments := db.userLocationAssignments.insert row }
  | insertSelfOnboardingRequest row =>
    db.setSelfOnboardingRequests (db.selfOnboardingRequests.insert row)
  | approveSelfOnboardingRequest requestId actor now =>
    db.setSelfOnboardingRequests (db.selfOnboardingRequests.modify
      (fun r => decide (r.selfOnboardingRequestId = requestId))
      (SelfOnboardingRequest.approvedBy actor now))
  | rejectSelfOnboardingRequest requestId actor now reason =>
    db.setSelfOnboardingRequests (db.selfOnboardingRequests.update
      (fun r => decide (r.selfOnboardingRequestId = requestId))
      (SelfOnboardingRequest.rejectedBy actor now reason)
      (SelfOnboardingRequest.entries_rejectedBy actor now reason))

end OnboardingWrite

instance : Replay OnboardingDatabase OnboardingWrite := ⟨fun w db => w.apply db⟩

@[simp] theorem onboarding_replay (w : OnboardingWrite) (db : OnboardingDatabase) :
    Replay.replay w db = w.apply db := rfl

/-! ## Locks and statements -/

inductive OnboardingRelation
  | tenantInvitations | selfOnboardingRequests
  deriving DecidableEq, Repr

inductive OnboardingLock
  | stored (lock : RowLock)
  | own (relation : OnboardingRelation) (entry : IndexEntry) (mode : LockMode)
  deriving DecidableEq, Repr

def OnboardingLock.conflicts : OnboardingLock → OnboardingLock → Bool
  | .stored a, .stored b => a.conflicts b
  | .own relation entry mode, .own relation' entry' mode' =>
    decide (relation = relation' ∧ entry = entry') && mode.conflicts mode'
  | _, _ => false

theorem OnboardingLock.conflicts_comm (a b : OnboardingLock) : a.conflicts b = b.conflicts a := by
  cases a with
  | stored a =>
    cases b with
    | stored b => exact RowLock.conflicts_comm a b
    | own relation entry mode => rfl
  | own relation entry mode =>
    cases b with
    | stored b => rfl
    | own relation' entry' mode' =>
      simp only [conflicts, LockMode.conflicts_comm mode mode', eq_comm (a := relation),
        eq_comm (a := entry)]

/-- A conditional write has its snapshot as a statement of its own. -/
inductive OnboardingStatement
  | stored (name : StatementName)
  | tenantByCode | selfOnboardingToken | control | identity | membership | role | group
  | locationAndSchedule | invitation | lockInvitation | insertInvitation | cancelInvitation
  | expireInvitation | rebindInvitation | acceptInvitation | lockMembership | insertMembership
  | activateMembership | endMembership | deleteMembership | activateUser | deleteUser
  | deletePrincipal | insertPrivilegedRequest | assignRole | joinGroup | assignLocation
  | pendingSelfRequest | insertSelfRequest | lockSelfRequest | approveSelfRequest
  | rejectSelfRequest | selfRequest
  | snapshot (of : OnboardingStatement)
  deriving DecidableEq, Repr

abbrev OnboardingTx :=
  Program OnboardingDatabase OnboardingWrite OnboardingLock OnboardingStatement Failure

abbrev OnboardingState :=
  State OnboardingDatabase OnboardingWrite OnboardingLock OnboardingStatement Failure

abbrev OnboardingProgress :=
  Progress OnboardingDatabase OnboardingWrite OnboardingLock OnboardingStatement

abbrev OnboardingOutcome (α : Type) := Except Failure (Outcome OnboardingWrite OnboardingLock α)

/-- What the other services do, they do to a part of these rows. -/
def storedPart : Embedding Database Write RowLock StatementName OnboardingDatabase OnboardingWrite
    OnboardingLock OnboardingStatement where
  view := OnboardingDatabase.toDatabase
  edit := .stored
  lock := .stored
  label := .stored
  view_replay _ _ := rfl

structure OnboardingReference where
  lock : OnboardingLock
  present : Bool

namespace OnboardingDatabase

variable (db : OnboardingDatabase)

def tenantRef (tenantId : Uuid) : OnboardingReference :=
  ⟨.stored (db.tenantReference tenantId).lock, (db.tenantReference tenantId).present⟩

def userRef (userId : Uuid) : OnboardingReference :=
  ⟨.stored (db.userReference userId).lock, (db.userReference userId).present⟩

def roleRef (tenantId roleId : Uuid) : OnboardingReference :=
  ⟨.stored (db.roleReference tenantId roleId).lock, (db.roleReference tenantId roleId).present⟩

def groupRef (tenantId groupId : Uuid) : OnboardingReference :=
  ⟨.stored (db.groupReference tenantId groupId).lock, (db.groupReference tenantId groupId).present⟩

def locationRef (tenantId locationId : Uuid) : OnboardingReference :=
  ⟨.stored (rowLock .tenantLocations [locationId] .keyShare),
    db.tenantLocations.rows.any fun r => decide (r.tenantId = tenantId ∧ r.locationId = locationId)⟩

def scheduleRef (tenantId scheduleId : Uuid) : OnboardingReference :=
  ⟨.stored (rowLock .accessSchedules [scheduleId] .keyShare),
    db.accessSchedules.rows.any fun r => decide (r.tenantId = tenantId ∧ r.scheduleId = scheduleId)⟩

def identityRef (externalIdentityId : Uuid) : OnboardingReference :=
  ⟨.stored (rowLock .externalIdentities [externalIdentityId] .keyShare),
    db.externalIdentities.rows.any fun r => decide (r.externalIdentityId = externalIdentityId)⟩

def invitationRef (invitationId : Uuid) : OnboardingReference :=
  ⟨.own .tenantInvitations (.primary, [invitationId]) .keyShare,
    db.tenantInvitations.rows.any fun r => decide (r.invitationId = invitationId)⟩

end OnboardingDatabase

def rowLocks {ρ : Type} [Row ρ] (row : ρ) : List OnboardingLock :=
  (Row.entries row).map fun e => .stored ⟨Row.relation ρ, e, .update⟩

def ownLocks (relation : OnboardingRelation) (entries : List IndexEntry) : List OnboardingLock :=
  entries.map fun e => .own relation e .update

def ownLock (relation : OnboardingRelation) (id : Uuid) (mode : LockMode) : OnboardingLock :=
  .own relation (.primary, [id]) mode

/-- `INSERT`: refused when an entry is taken or a referenced row is missing. -/
def insertChecked (free : Bool) (locks : List OnboardingLock) (references : List OnboardingReference)
    (write : OnboardingWrite) : OnboardingOutcome Unit :=
  if free = false then .error (.integrityError .unique)
  else if references.all (·.present) = false then .error (.integrityError .foreignKey)
  else .ok { value := (), edits := [write], locks := locks ++ references.map (·.lock) }

/-- `INSERT ... ON CONFLICT DO NOTHING`. -/
def insertUnlessTaken (free : Bool) (locks : List OnboardingLock)
    (references : List OnboardingReference) (write : OnboardingWrite) : OnboardingOutcome Unit :=
  if free = false then .ok { value := () } else insertChecked free locks references write

/-- A conditional write: the rows of the statement's snapshot, each checked again on its latest
version when its locks are granted. -/
def changeWhere (name : OnboardingStatement) (find : OnboardingDatabase → List Uuid)
    (locks : Uuid → List OnboardingLock) (check : OnboardingDatabase → List Uuid → Option Failure)
    (write : List Uuid → OnboardingWrite) : OnboardingTx Unit := do
  let found ← Program.query (.snapshot name) fun db => .ok (find db)
  Program.execute name fun db =>
    let ids := (find db).filter fun id => decide (id ∈ found)
    match check db ids with
    | some failure => .error failure
    | none => .ok { value := (), edits := [write ids], locks := ids.flatMap locks }

theorem insertChecked_ok {free : Bool} {locks : List OnboardingLock}
    {references : List OnboardingReference} {write : OnboardingWrite}
    {o : Outcome OnboardingWrite OnboardingLock Unit}
    (h : insertChecked free locks references write = .ok o) :
    free = true ∧ o.edits = [write] ∧ ∀ l ∈ locks, l ∈ o.locks := by
  unfold insertChecked at h
  split at h
  · cases h
  · split at h
    · cases h
    · rename_i hfree _
      cases h
      exact ⟨Bool.of_not_eq_false hfree, rfl, fun l hl => List.mem_append_left _ hl⟩

theorem insertUnlessTaken_ok {free : Bool} {locks : List OnboardingLock}
    {references : List OnboardingReference} {write : OnboardingWrite}
    {o : Outcome OnboardingWrite OnboardingLock Unit}
    (h : insertUnlessTaken free locks references write = .ok o) :
    o.edits = [] ∨ o.edits = [write] ∧ ∀ l ∈ locks, l ∈ o.locks := by
  unfold insertUnlessTaken at h
  split at h
  · cases h
    exact Or.inl rfl
  · exact Or.inr (insertChecked_ok h).2

end VerigenceSecurity
