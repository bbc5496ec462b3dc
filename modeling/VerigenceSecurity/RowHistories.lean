import VerigenceSecurity.CatalogRuns
import VerigenceSecurity.DeviceLifecycle
import VerigenceSecurity.MachineAccess
import VerigenceSecurity.SelfOnboarding
import VerigenceSecurity.SessionRefresh
import VerigenceSecurity.TenantAccessConfiguration
import VerigenceSecurity.Library.Evolution
import VerigenceSecurity.Library.RowHistory

/-! # What becomes of the stored rows

The services of `ServiceCall` delete no evidence, give no row to somebody else and take no end back:
a session, an assignment, a binding, a device approval or an enrolment that is over stays as it is,
whatever overlaps. The onboarding service is not among them: when an invitation is accepted by another
user than its placeholder, it deletes the placeholder's user and principal.
-/

namespace VerigenceSecurity
set_option autoImplicit false

open Transaction Relational

/-! ## The life of a row -/

def AccessSession.Later : AccessSession → AccessSession → Prop :=
  Table.Lifecycle (fun r => (r.accessSessionId, r.tenantId, r.principalId, r.actorType, r.membershipId,
    r.deviceId, r.credentialId, r.authenticationSource, r.startedAt)) fun r => r.status = .active

def UserRoleAssignment.Later : UserRoleAssignment → UserRoleAssignment → Prop :=
  Table.Lifecycle (fun r => (r.assignmentId, r.tenantId, r.userId, r.roleId, r.validFrom,
    r.assignedByUserId)) fun r => r.status = .active

def GroupMembership.Later : GroupMembership → GroupMembership → Prop :=
  Table.Lifecycle (fun r => (r.groupMembershipId, r.tenantId, r.groupId, r.userId, r.validFrom,
    r.validTo, r.addedByUserId)) fun r => r.status = .active

def GroupRoleAssignment.Later : GroupRoleAssignment → GroupRoleAssignment → Prop :=
  Table.Lifecycle (fun r => (r.assignmentId, r.tenantId, r.groupId, r.roleId, r.assignedByUserId))
    fun r => r.status = .active

def RoleTemplateBinding.Later : RoleTemplateBinding → RoleTemplateBinding → Prop :=
  Table.Lifecycle (fun r => (r.bindingId, r.tenantId, r.roleId, r.templateId, r.appliedCatalogVersion,
    r.appliedByUserId)) fun r => r.status = .current

def RegisteredDevice.Later : RegisteredDevice → RegisteredDevice → Prop :=
  Table.Lifecycle (fun r => (r.deviceId, r.tenantId, r.userId)) fun r => r.status = .pending

def DeviceEnrollmentRequest.Later : DeviceEnrollmentRequest → DeviceEnrollmentRequest → Prop :=
  Table.Lifecycle (fun r => (r.enrollmentRequestId, r.tenantId, r.userId, r.deviceId))
    fun r => r.status = .pending

def PlatformUserOnboardingRequest.Later :
    PlatformUserOnboardingRequest → PlatformUserOnboardingRequest → Prop :=
  Table.Lifecycle (fun r => (r.onboardingRequestId, r.userId, r.email, r.clerkUserId, r.submittedAt))
    fun r => r.status = .pendingAdminApproval

/-- A role stays with its tenant and keeps its key; the rest may be changed. -/
def Role.Later : Role → Role → Prop :=
  Table.Lifecycle (fun r => (r.roleId, r.tenantId, r.roleKey, r.createdAt)) fun _ => True

def Group.Later : Group → Group → Prop :=
  Table.Lifecycle (fun r => (r.groupId, r.tenantId, r.groupKey, r.createdAt)) fun _ => True

def PrivilegedAccessRequest.Later : PrivilegedAccessRequest → PrivilegedAccessRequest → Prop :=
  Table.Lifecycle (fun r => (r.requestId, r.tenantId, r.subjectUserId, r.roleId, r.sourceInvitationId,
    r.requestedByUserId, r.requestedAt)) fun _ => True

/-! ## The life of the database -/

/-- What is true of the rows of two moments, the first before the second. -/
structure Database.Later (before after : Database) : Prop where
  evaluations : before.accessContextEvaluations.Followed Eq after.accessContextEvaluations
  records : before.adminChangeRecords.Followed Eq after.adminChangeRecords
  events : before.securityEvents.Followed Eq after.securityEvents
  principals : before.securityPrincipals.Followed Eq after.securityPrincipals
  identities : before.externalIdentities.Followed Eq after.externalIdentities
  sessions : before.accessSessions.Followed AccessSession.Later after.accessSessions
  userRoles : before.userRoleAssignments.Followed UserRoleAssignment.Later after.userRoleAssignments
  groupMemberships : before.groupMemberships.Followed GroupMembership.Later after.groupMemberships
  groupRoles : before.groupRoleAssignments.Followed GroupRoleAssignment.Later
    after.groupRoleAssignments
  bindings : before.roleTemplateBindings.Followed RoleTemplateBinding.Later after.roleTemplateBindings
  devices : before.registeredDevices.Followed RegisteredDevice.Later after.registeredDevices
  enrolments : before.deviceEnrollmentRequests.Followed DeviceEnrollmentRequest.Later
    after.deviceEnrollmentRequests
  onboardings : before.platformUserOnboardingRequests.Followed PlatformUserOnboardingRequest.Later
    after.platformUserOnboardingRequests
  roles : before.roles.Followed Role.Later after.roles
  groups : before.groups.Followed Group.Later after.groups
  requests : before.privilegedAccessRequests.Followed PrivilegedAccessRequest.Later
    after.privilegedAccessRequests

open Table in
theorem Database.Later.refl (db : Database) : Database.Later db db where
  evaluations := .refl Eq.refl _
  records := .refl Eq.refl _
  events := .refl Eq.refl _
  principals := .refl Eq.refl _
  identities := .refl Eq.refl _
  sessions := .refl Lifecycle.refl _
  userRoles := .refl Lifecycle.refl _
  groupMemberships := .refl Lifecycle.refl _
  groupRoles := .refl Lifecycle.refl _
  bindings := .refl Lifecycle.refl _
  devices := .refl Lifecycle.refl _
  enrolments := .refl Lifecycle.refl _
  onboardings := .refl Lifecycle.refl _
  roles := .refl Lifecycle.refl _
  groups := .refl Lifecycle.refl _
  requests := .refl Lifecycle.refl _

open Table in
theorem Database.Later.trans {db db' db'' : Database} (h : Database.Later db db')
    (h' : Database.Later db' db'') : Database.Later db db'' where
  evaluations := h.evaluations.trans Eq.trans h'.evaluations
  records := h.records.trans Eq.trans h'.records
  events := h.events.trans Eq.trans h'.events
  principals := h.principals.trans Eq.trans h'.principals
  identities := h.identities.trans Eq.trans h'.identities
  sessions := h.sessions.trans Lifecycle.trans h'.sessions
  userRoles := h.userRoles.trans Lifecycle.trans h'.userRoles
  groupMemberships := h.groupMemberships.trans Lifecycle.trans h'.groupMemberships
  groupRoles := h.groupRoles.trans Lifecycle.trans h'.groupRoles
  bindings := h.bindings.trans Lifecycle.trans h'.bindings
  devices := h.devices.trans Lifecycle.trans h'.devices
  enrolments := h.enrolments.trans Lifecycle.trans h'.enrolments
  onboardings := h.onboardings.trans Lifecycle.trans h'.onboardings
  roles := h.roles.trans Lifecycle.trans h'.roles
  groups := h.groups.trans Lifecycle.trans h'.groups
  requests := h.requests.trans Lifecycle.trans h'.requests

/-! ## Every write -/

section Writes

open Table

theorem AccessSession.later_of_active {r r' : AccessSession} (hactive : r.status = .active)
    (hsame : r'.accessSessionId = r.accessSessionId ∧ r'.tenantId = r.tenantId ∧
      r'.principalId = r.principalId ∧ r'.actorType = r.actorType ∧ r'.membershipId = r.membershipId ∧
      r'.deviceId = r.deviceId ∧ r'.credentialId = r.credentialId ∧
      r'.authenticationSource = r.authenticationSource ∧ r'.startedAt = r.startedAt) : r.Later r' := by
  refine Lifecycle.of_live ?_ hactive
  obtain ⟨hid, htenant, hprincipal, hactor, hmembership, hdevice, hcredential, hsource, hstarted⟩ := hsame
  simp only [hid, htenant, hprincipal, hactor, hmembership, hdevice, hcredential, hsource, hstarted]

theorem AccessSession.later_ended {r : AccessSession} (status : SessionStatus)
    (hactive : r.status = .active) : r.Later (r.ended status) := by
  refine later_of_active hactive ?_
  cases status <;> exact ⟨rfl, rfl, rfl, rfl, rfl, rfl, rfl, rfl, rfl⟩

theorem AccessSession.later_renewed {r : AccessSession} {sourceIp : String} {vpnStatus : VpnStatus}
    {authorizationVersion : Nat} {expiresAt now : Instant} (hactive : r.status = .active) :
    r.Later (r.renewed sourceIp vpnStatus authorizationVersion expiresAt now) := by
  refine later_of_active hactive ?_
  unfold renewed
  split <;> exact ⟨rfl, rfl, rfl, rfl, rfl, rfl, rfl, rfl, rfl⟩

theorem AccessSession.Later.located {r r' : AccessSession} {locationId : Option Uuid}
    (hactive : r.status = .active) (h : r.Later r') : r.Later { r' with locationId := locationId } :=
  Lifecycle.of_live h.identity hactive

theorem AccessSession.Later.active_at {r r' : AccessSession} {now : Instant}
    (hactive : r.status = .active) (h : r.Later r') : r.Later { r' with lastActivityAt := now } :=
  Lifecycle.of_live h.identity hactive

theorem PrivilegedAccessRequest.later_decided (status : RequestStatus) (approver : Uuid) (now : Instant)
    (reason : Option String) (r : PrivilegedAccessRequest) :
    r.Later (r.decided status approver now reason) := by
  refine Lifecycle.of_live ?_ trivial
  unfold decided
  split <;> rfl

/-- An update whose condition says, among others, that the row is live. -/
theorem later_map {ρ ι : Type} [Row ρ] {identity : ρ → ι} {live : ρ → Prop} {where? : ρ → Bool}
    {set : ρ → ρ} {t u : Rows ρ} (hrows : u.rows = t.rows.map fun r => if where? r then set r else r)
    (hlive : ∀ r, where? r = true → live r) (hsame : ∀ r, identity (set r) = identity r) :
    t.Followed (Lifecycle identity live) u :=
  followed_map hrows Lifecycle.refl fun r hw => Lifecycle.of_live (hsame r) (hlive r hw)

theorem Write.later (w : Write) (db : Database) : Database.Later db (w.apply db) := by
  have same := Database.Later.refl db
  cases w with
  | insertEvaluation row => exact { same with evaluations := followed_insert Eq.refl _ row }
  | insertAdminChange row => exact { same with records := followed_insert Eq.refl _ row }
  | insertSecurityEvent row => exact { same with events := followed_insert Eq.refl _ row }
  | insertSecurityPrincipal row => exact { same with principals := followed_insert Eq.refl _ row }
  | insertExternalIdentity row => exact { same with identities := followed_insert Eq.refl _ row }
  | insertAccessSession row => exact { same with sessions := followed_insert Lifecycle.refl _ row }
  | expireStaleUserSessions ids tenantId userId deviceId now =>
    refine { same with sessions := followed_map rfl Lifecycle.refl fun r hw => ?_ }
    exact AccessSession.later_ended .expired (of_decide_eq_true hw).2.2.2.2.2.1
  | updateReusedUserSession accessSessionId sourceIp vpnStatus authorizationVersion expiresAt now =>
    refine { same with sessions := followed_map rfl Lifecycle.refl fun r hw => ?_ }
    exact AccessSession.later_renewed (of_decide_eq_true hw).2
  | updateActiveSessionContext accessSessionId tenantId userId locationId sourceIp vpnStatus
      authorizationVersion expiresAt now =>
    refine { same with sessions := followed_map rfl Lifecycle.refl fun r hw => ?_ }
    have hactive := (of_decide_eq_true hw).2.2.2.2
    exact (AccessSession.later_renewed hactive).located hactive
  | revokeActiveUserSession accessSessionId tenantId userId =>
    refine { same with sessions := followed_map rfl Lifecycle.refl fun r hw => ?_ }
    exact AccessSession.later_ended .revoked (of_decide_eq_true hw).2.2.2.2
  | revokeUserSessions ids userId now =>
    refine { same with sessions := followed_map rfl Lifecycle.refl fun r hw => ?_ }
    have hactive := (of_decide_eq_true hw).2.2.2
    exact (AccessSession.later_ended .revoked hactive).active_at hactive
  | insertUserRoleAssignment row =>
    refine { same with userRoles := ?_ }
    simp only [Write.apply, RbacTables.insertUserRoleAssignment]
    split
    · exact followed_insert Lifecycle.refl _ row
    · exact .refl Lifecycle.refl _
  | endUserRoleAssignment ids tenantId userId roleId now =>
    refine { same with userRoles := later_map rfl (fun r hw => ?_) fun _ => rfl }
    exact (of_decide_eq_true hw).2.2.2.2
  | insertGroupMembership row =>
    refine { same with groupMemberships := ?_ }
    simp only [Write.apply, RbacTables.insertGroupMembership]
    split
    · exact followed_insert Lifecycle.refl _ row
    · exact .refl Lifecycle.refl _
  | endGroupMembership ids tenantId groupId userId now =>
    refine { same with groupMemberships := later_map rfl (fun r hw => ?_) fun _ => rfl }
    exact (of_decide_eq_true hw).2.2.2.2
  | insertGroupRoleAssignment row =>
    refine { same with groupRoles := ?_ }
    simp only [Write.apply, RbacTables.insertGroupRoleAssignment]
    split
    · exact followed_insert Lifecycle.refl _ row
    · exact .refl Lifecycle.refl _
  | endGroupRoleAssignment ids tenantId groupId roleId now =>
    refine { same with groupRoles := later_map rfl (fun r hw => ?_) fun _ => rfl }
    exact (of_decide_eq_true hw).2.2.2.2
  | insertRoleTemplateBinding row => exact { same with bindings := followed_insert Lifecycle.refl _ row }
  | supersedeRoleTemplateBindings ids tenantId roleId templateId now =>
    refine { same with bindings := later_map rfl (fun r hw => ?_) fun _ => rfl }
    exact (of_decide_eq_true hw).2.2.2.2
  | activatePendingDevice tenantId userId deviceId decidedByUserId decidedAt =>
    refine { same with devices := later_map rfl (fun r hw => ?_) fun _ => rfl }
    exact (of_decide_eq_true hw).2.2.2
  | approveEnrollmentRequest enrollmentRequestId tenantId userId deviceId decidedByUserId decidedAt =>
    refine { same with enrolments := later_map rfl (fun r hw => ?_) fun _ => rfl }
    exact (of_decide_eq_true hw).2.2.2.2
  | insertOnboardingRequest row =>
    exact { same with onboardings := followed_insert Lifecycle.refl _ row }
  | approveOnboardingRequest ids userId actor now reason =>
    refine { same with onboardings := later_map rfl (fun r hw => ?_) fun _ => rfl }
    exact (of_decide_eq_true hw).2.2
  | insertRole row => exact { same with roles := followed_insert Lifecycle.refl _ row }
  | updateRole tenantId roleId roleName description status now =>
    refine { same with roles := later_map rfl (fun r hw => ?_) fun _ => rfl }
    exact trivial
  | insertGroup row => exact { same with groups := followed_insert Lifecycle.refl _ row }
  | updateGroup tenantId groupId groupName description status now =>
    refine { same with groups := later_map rfl (fun r hw => ?_) fun _ => rfl }
    exact trivial
  | insertPrivilegedAccessRequest row =>
    exact { same with requests := followed_insert Lifecycle.refl _ row }
  | decidePrivilegedAccessRequest tenantId requestId status approver now reason =>
    refine { same with requests := followed_map rfl Lifecycle.refl fun r _ => ?_ }
    exact r.later_decided status approver now reason
  | _ => exact { same with }

end Writes

theorem database_evolution : Evolution (fun _ : Write => True) Database.Later where
  refl := .refl
  trans := .trans
  edit w db _ := w.later db

/-! ## Runs -/

/-- A call of a service that writes to these tables. -/
inductive ServiceCall
  | tenant (op : TenantOperation)
  | createTenant (c : AdminCall) (freshId : Nat → Uuid) (hash : String → String)
      (tenantCode tenantName : String) (selfOnboardingEnabled : Bool)
      (selfOnboardingToken : Option String)
  | seed (now : Instant) (freshId : Nat → Uuid) (tenantId : Uuid)
  | putCatalog (lower : String → String) (c : AdminCall) (databaseNow : Instant)
      (freshId : Nat → Uuid) (pathModuleKey : String) (catalog : CatalogInput)
  | configurePermission (configuration : PermissionConfiguration)
  | configureSchedule (tenantId : Uuid) (configuration : AccessScheduleConfiguration)
  | createOrReuse (rt : Runtime) (repo : RepositoryClass) (newSessionId : Uuid) (draw : AccessDraw)
      (request : AccessRequest)
  | refresh (rt : Runtime) (repo : RepositoryClass) (denialId : Uuid) (draw : AccessDraw)
      (request : RefreshRequest)
  | revoke (accessSessionId tenantId userId : Uuid)
  | setUserStatus (upper : String → String) (clerk : ClerkAnswers) (c : AdminCall) (userId : Uuid)
      (newStatus : String) (reason : Option String)
  | approvePendingDevice (tenantId userId : Uuid) (a : DeviceApproval)
  | issueMachineToken (rt : MachineRuntime) (draw : MachineTokenDraw) (request : MachineTokenRequest)
  | exchangeUserToken (rt : MachineRuntime) (draw : ExchangeDraw) (request : ExchangeRequest)
  | provision (hashtext : String → Int) (p : ProvisionCall)
  | bootstrapClaim (hashtext : String → Int) (c : ClaimCall)
  | bootstrapIfNeeded (c : LocalBootstrapCall)
  | start (rules : TextRules) (verifyHash : String → String → Bool) (c : StartCall)
  | resendEmailCode (c : ResendCall)
  | verifyEmailCode (c : VerifyCall)

def ServiceCall.program : ServiceCall → Tx Unit
  | tenant op => op.program
  | createTenant c freshId hash tenantCode tenantName selfOnboardingEnabled selfOnboardingToken =>
    discard (VerigenceSecurity.createTenant c freshId hash tenantCode tenantName selfOnboardingEnabled
      selfOnboardingToken)
  | seed now freshId tenantId => discard (VerigenceSecurity.seed now freshId tenantId)
  | putCatalog lower c databaseNow freshId pathModuleKey catalog =>
    discard (VerigenceSecurity.putCatalog lower c databaseNow freshId pathModuleKey catalog)
  | configurePermission configuration => VerigenceSecurity.configurePermission configuration
  | configureSchedule tenantId configuration =>
    discard (VerigenceSecurity.configureSchedule tenantId configuration)
  | createOrReuse rt repo newSessionId draw request =>
    discard (VerigenceSecurity.createOrReuse rt repo newSessionId draw request)
  | refresh rt repo denialId draw request =>
    discard (VerigenceSecurity.refresh rt repo denialId draw request)
  | revoke accessSessionId tenantId userId =>
    discard (VerigenceSecurity.revoke accessSessionId tenantId userId)
  | setUserStatus upper clerk c userId newStatus reason =>
    discard (VerigenceSecurity.setUserStatus upper clerk c userId newStatus reason)
  | approvePendingDevice tenantId userId a =>
    discard (VerigenceSecurity.approvePendingDevice tenantId userId a)
  | issueMachineToken rt draw request =>
    discard (VerigenceSecurity.issueMachineToken rt draw request)
  | exchangeUserToken rt draw request =>
    discard (VerigenceSecurity.exchangeUserToken rt draw request)
  | provision hashtext p => discard (VerigenceSecurity.provision hashtext p)
  | bootstrapClaim hashtext c => discard (VerigenceSecurity.bootstrapClaim hashtext c)
  | bootstrapIfNeeded c => discard (VerigenceSecurity.bootstrapIfNeeded c)
  | start rules verifyHash c => discard (VerigenceSecurity.start rules verifyHash c)
  | resendEmailCode c => discard (VerigenceSecurity.resendEmailCode c)
  | verifyEmailCode c => discard (VerigenceSecurity.verifyEmailCode c)

def serviceCalls (calls : List ServiceCall) (db : Database) : TxState Unit :=
  State.initial db (calls.map ServiceCall.program)

/-- Between any two moments of a run of overlapping calls the rows keep their identity, evidence is
only added, and what is over stays as it is. -/
theorem rows_keep_their_history (calls : List ServiceCall) (db : Database) {s t : TxState Unit}
    (hearlier : State.Reaches RowLock.conflicts (fun _ _ => True) (serviceCalls calls db) s)
    (hlater : State.Reaches RowLock.conflicts (fun _ _ => True) s t) :
    Database.Later s.committed t.committed :=
  database_evolution.reaches (hearlier.confined (State.confined_anything db _)) hlater

theorem badge_lifetime : (0 : Instant) < 10 := by decide

def badge : AccessSession where
  accessSessionId := "session"
  tenantId := "tenant"
  principalId := "user"
  actorType := .user
  membershipId := none
  deviceId := none
  locationId := none
  credentialId := none
  authenticationSource := .clerk
  authorizationVersion := none
  sourceIp := "192.0.2.1"
  vpnStatus := none
  startedAt := 0
  expiresAt := 10
  lastActivityAt := 0
  lastGeoValidatedAt := none
  status := .active
  lifetime := badge_lifetime

def badges : Database :=
  replayAll [.insertAccessSession badge,
      .insertRole ⟨"role", "tenant", "clerk", "Clerk", none, .active, 0, 0⟩,
      .insertUserRoleAssignment
        ⟨"assignment", "tenant", "user", "role", .active, some 0, none, "admin"⟩]
    { (default : Database) with
      tenants := Table.empty.insert ⟨"tenant", "ACME", "Acme", .active, 0, 0⟩
      users := (Table.empty.insert ⟨"admin", "Admin", none, none, none, none, .active, 0, 0⟩).insert
        ⟨"user", "User", none, none, none, none, .active, 0, 0⟩ }

/-- A session is revoked twice while the user loses a role. -/
def badgeCalls : List ServiceCall :=
  [.revoke "session" "tenant" "user", .revoke "session" "tenant" "user",
    .tenant (.removeUserRole ⟨"admin", "remove", 5, "", "removed"⟩ "tenant" "user" "role")]

def Database.badgeStatus (db : Database) : List SessionStatus × List AssignmentStatus :=
  (db.accessSessions.rows.map (·.status), db.userRoleAssignments.rows.map (·.status))

/-- The second revocation and the removal overlap; the first revocation is over before either. -/
theorem revoked_badge_history : ∃ before after : Database, Database.Later before after ∧
    before.badgeStatus = ([.revoked], [.active]) ∧ after.badgeStatus = ([.revoked], [.ended]) := by
  have hrun : (((serviceCalls badgeCalls badges).run RowLock.conflicts [0, 2, 0, 0]).bind fun s =>
      (s.run RowLock.conflicts [1, 2, 1, 2, 2, 2]).map fun t =>
        (s.committed.badgeStatus, t.committed.badgeStatus)) =
      some (([.revoked], [.active]), ([.revoked], [.ended])) := by
    decide +kernel
  obtain ⟨s, hs, hrest⟩ := Option.bind_eq_some_iff.mp hrun
  obtain ⟨t, ht, hstatus⟩ := Option.map_eq_some_iff.mp hrest
  have hfirst : (serviceCalls badgeCalls badges).Meets RowLock.conflicts (fun _ _ => True)
      ([0, 2, 0, 0] ++ []) := State.meets_true _ _
  have hsecond : s.Meets RowLock.conflicts (fun _ _ => True) ([1, 2, 1, 2, 2, 2] ++ []) :=
    State.meets_true _ _
  have hearlier := (State.reaches_of_run hfirst hs).1
  have hlater := (State.reaches_of_run hsecond ht).1
  have hhistory := rows_keep_their_history badgeCalls badges hearlier hlater
  exact ⟨s.committed, t.committed, hhistory, congrArg Prod.fst hstatus, congrArg Prod.snd hstatus⟩

end VerigenceSecurity
