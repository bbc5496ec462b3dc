import VerigenceSecurity.ModuleCatalog

/-! # The standard roles of a tenant

`create_tenant` gives every new tenant the eight reserved roles. The seeder adds those
that a tenant lacks, and it refuses a reserved role that differs from the standard.
-/

namespace VerigenceSecurity
set_option autoImplicit false

open Transaction Relational Program

/-! ## The catalogue of the administration -/

def securityAdminPermissionKeys : List String :=
  ["security.platform_admin.read", "security.platform_admin.manage",
   "security.security_config.read", "security.security_config.manage", "security.tenant.create",
   "security.tenant.read", "security.tenant.update", "security.tenant.suspend",
   "security.tenant.activate", "security.tenant.bootstrap_admin", "security.module.read",
   "security.module.manage", "security.permission.read", "security.audit.read",
   "security.member.read", "security.member.invite", "security.member.update",
   "security.member.suspend", "security.member.end", "security.member.approve",
   "security.group.read", "security.group.create", "security.group.update",
   "security.group.assign", "security.role.read", "security.role.create", "security.role.update",
   "security.role.assign", "security.location.read", "security.location.create",
   "security.location.update", "security.location.assign", "security.schedule.read",
   "security.schedule.create", "security.schedule.update", "security.device.read",
   "security.device.approve", "security.device.block", "security.device.revoke",
   "security.policy.read", "security.policy.update", "security.retention.read",
   "security.retention.update", "security.privileged_access.approve"]

structure StandardTenantAdminRole where
  roleKey : String
  roleName : String
  description : String
  permissionKeys : List String
  deriving DecidableEq, Repr

def tenantOwnerPermissions : List String :=
  ["security.member.read", "security.member.invite", "security.member.update",
   "security.member.suspend", "security.member.end", "security.member.approve",
   "security.group.read", "security.group.create", "security.group.update",
   "security.group.assign", "security.role.read", "security.role.create", "security.role.update",
   "security.role.assign", "security.permission.read", "security.location.read",
   "security.location.create", "security.location.update", "security.location.assign",
   "security.schedule.read", "security.schedule.create", "security.schedule.update",
   "security.device.read", "security.device.approve", "security.device.block",
   "security.device.revoke", "security.policy.read", "security.policy.update",
   "security.retention.read", "security.retention.update", "security.privileged_access.approve",
   "security.audit.read"]

def standardTenantAdminRoles : List StandardTenantAdminRole :=
  [ { roleKey := "tenant.owner", roleName := "Tenant Owner"
      description := "Highest authority inside one Tenant"
      permissionKeys := tenantOwnerPermissions },
    { roleKey := "tenant.admin", roleName := "Tenant Admin"
      description := "Day-to-day Tenant Security administration"
      permissionKeys :=
       ["security.member.read", "security.member.invite", "security.member.update",
        "security.member.suspend", "security.member.end", "security.group.read",
        "security.group.create", "security.group.update", "security.group.assign",
        "security.role.read", "security.role.create", "security.role.update",
        "security.role.assign", "security.permission.read", "security.location.read",
        "security.location.create", "security.location.update", "security.location.assign",
        "security.schedule.read", "security.schedule.create", "security.schedule.update",
        "security.device.read", "security.device.approve", "security.device.block",
        "security.device.revoke", "security.policy.read", "security.retention.read",
        "security.audit.read"] },
    { roleKey := "tenant.user_admin", roleName := "User Admin"
      description := "Member invitation and lifecycle administration"
      permissionKeys :=
       ["security.member.read", "security.member.invite", "security.member.update",
        "security.member.suspend", "security.member.end"] },
    { roleKey := "tenant.rbac_admin", roleName := "Role & Group Admin"
      description := "Roles, Groups and assignment administration"
      permissionKeys :=
       ["security.member.read", "security.group.read", "security.group.create",
        "security.group.update", "security.group.assign", "security.role.read",
        "security.role.create", "security.role.update", "security.role.assign",
        "security.permission.read", "security.audit.read"] },
    { roleKey := "tenant.access_admin", roleName := "Access Admin"
      description := "Locations, schedules and device administration"
      permissionKeys :=
       ["security.member.read", "security.location.read", "security.location.create",
        "security.location.update", "security.location.assign", "security.schedule.read",
        "security.schedule.create", "security.schedule.update", "security.device.read",
        "security.device.approve", "security.device.block", "security.device.revoke",
        "security.audit.read"] },
    { roleKey := "tenant.security_policy_admin", roleName := "Security Policy Admin"
      description := "Tenant Security and retention policy administration"
      permissionKeys :=
       ["security.policy.read", "security.policy.update", "security.retention.read",
        "security.retention.update", "security.audit.read"] },
    { roleKey := "tenant.security_approver", roleName := "Security Approver"
      description := "Maker-checker approval for privileged access"
      permissionKeys :=
       ["security.member.read", "security.group.read", "security.role.read",
        "security.permission.read", "security.privileged_access.approve", "security.audit.read"] },
    { roleKey := "tenant.auditor", roleName := "Tenant Auditor"
      description := "Read-only Tenant Security audit and review"
      permissionKeys :=
       ["security.member.read", "security.group.read", "security.role.read",
        "security.permission.read", "security.location.read", "security.schedule.read",
        "security.device.read", "security.policy.read", "security.retention.read",
        "security.audit.read"] } ]

def StandardTenantAdminRole.row (definition : StandardTenantAdminRole) (now : Instant)
    (roleId tenantId : Uuid) : Role :=
  ⟨roleId, tenantId, definition.roleKey, definition.roleName, some definition.description, .active,
    now, now⟩

def insertStandardRole (now : Instant) (roleId tenantId : Uuid)
    (definition : StandardTenantAdminRole) : Tx Unit := do
  execute .insertRole fun db =>
    let row := definition.row now roleId tenantId
    insertRow db.roles row [db.tenantReference tenantId] (.insertRole row)
  each (insertRolePermission tenantId roleId) (sortedSet definition.permissionKeys)

/-! ## The seeder -/

namespace Database

def tenantRow? (db : Database) (tenantId : Uuid) : Option Tenant :=
  db.tenants.rows.find? fun r => decide (r.tenantId = tenantId)

/-- `sorted(SECURITY_ADMIN_PERMISSION_KEYS - active)`. -/
def missingPermissions (db : Database) : List String :=
  let active := (db.permissions.rows.filter fun r =>
    decide (r.moduleKey = "security" ∧ r.status = .active)).map (·.permissionKey)
  sortedSet (securityAdminPermissionKeys.filter fun key => decide (key ∉ active))

def roleByKey? (db : Database) (tenantId : Uuid) (roleKey : String) : Option Role :=
  db.roles.rows.find? fun r => decide (r.tenantId = tenantId ∧ r.roleKey = roleKey)

def rolePermissionKeys (db : Database) (tenantId roleId : Uuid) : List String :=
  (db.rolePermissions.rows.filter fun r =>
    decide (r.tenantId = tenantId ∧ r.roleId = roleId)).map (·.permissionKey)

end Database

def tenantExists (tenantId : Uuid) : Tx Bool :=
  query .tenantStatus fun db => .ok (db.tenantRow? tenantId).isSome

def catalogueIncomplete (missing : List String) : Failure :=
  .runtimeError ("Security Admin permission catalogue is incomplete: " ++ ", ".intercalate missing)

def assertPermissionCatalogue : Tx Unit := do
  let missing ← query .permissionCatalogue fun db => .ok db.missingPermissions
  if missing = [] then pure () else raise (catalogueIncomplete missing)

def roleDrift (roleKey : String) : Failure :=
  .runtimeError ("Reserved Tenant Admin role drift detected: " ++ roleKey)

/-- The role has the standard metadata, and its keys are the standard ones as a set. -/
def StandardTenantAdminRole.Matches (definition : StandardTenantAdminRole) (role : Role)
    (keys : List String) : Prop :=
  (role.roleName = definition.roleName ∧ role.description = some definition.description ∧
    role.status = .active) ∧ keys ⊆ definition.permissionKeys ∧ definition.permissionKeys ⊆ keys

instance (definition : StandardTenantAdminRole) (role : Role) (keys : List String) :
    Decidable (definition.Matches role keys) :=
  inferInstanceAs (Decidable ((_ ∧ _ ∧ _) ∧ _ ∧ _))

def seedOrValidateRole (now : Instant) (roleId tenantId : Uuid)
    (definition : StandardTenantAdminRole) : Tx Unit := do
  let existing ← execute .reservedRole fun db =>
    match db.roleByKey? tenantId definition.roleKey with
    | none => .ok { value := none }
    | some role => .ok { value := some role, locks := [rowLock .roles [role.roleId] .update] }
  match existing with
  | none => insertStandardRole now roleId tenantId definition
  | some role =>
    let actual ← query .rolePermissionKeys fun db => .ok (db.rolePermissionKeys tenantId role.roleId)
    if definition.Matches role actual then pure () else raise (roleDrift definition.roleKey)

/-- `StandardTenantAdminRoleSeeder.seed`; every role that it adds draws a UUID. -/
def seed (now : Instant) (freshId : Nat → Uuid) (tenantId : Uuid) : Tx Bool :=
  attempt rollbackAndRaise (do
    let found ← tenantExists tenantId
    if !found then
      rollbackNow
      pure false
    else
      assertPermissionCatalogue
      each (fun d => seedOrValidateRole now (freshId d.2) tenantId d.1) standardTenantAdminRoles.zipIdx
      commitNow
      pure true)

/-! ## New tenants -/

def insertTenant (c : AdminCall) (tenantCode tenantName : String) : Tx Unit :=
  execute .insertTenant fun db =>
    let row : Tenant := ⟨c.newId, tenantCode, tenantName, .configuring, c.now, c.now⟩
    insertRow db.tenants row [] (.insertTenant row)

def upsertSelfOnboardingToken (c : AdminCall) (tenantId : Uuid) (tokenHash : String)
    (enabled : Bool) : Tx Unit :=
  execute .upsertSelfOnboardingToken fun db =>
    let status : OnboardingKeyStatus := if enabled then .active else .disabled
    let row : TenantSelfOnboardingSettings :=
      ⟨tenantId, tokenHash, 1, status, c.actorUserId, c.now, c.actorUserId, c.now⟩
    let actor := db.userReference c.actorUserId
    if actor.present = false then .error (.integrityError .foreignKey)
    else (upsertRow db.tenantSelfOnboardingSettings (.primary, [tenantId]) row
      [db.tenantReference tenantId, actor] (.upsertSelfOnboardingToken row)).map fun o =>
        { o with locks := actor.lock :: o.locks }

/-- `if self_onboarding_token is not None`; `hash` salts the token's digest. -/
def storeSelfOnboardingToken (c : AdminCall) (tenantId : Uuid) (hash : String → String)
    (enabled : Bool) : Option String → Tx Unit
  | none => pure ()
  | some token => upsertSelfOnboardingToken c tenantId (hash token) enabled

/-- The tenant's UUID is the call's new id. -/
def createTenant (c : AdminCall) (freshId : Nat → Uuid) (hash : String → String)
    (tenantCode tenantName : String) (selfOnboardingEnabled : Bool)
    (selfOnboardingToken : Option String) : Tx Tenant := do
  attempt rollbackAndRaise (do
    insertTenant c tenantCode tenantName
    each (fun d => insertStandardRole c.now (freshId d.2) c.newId d.1) standardTenantAdminRoles.zipIdx
    storeSelfOnboardingToken c c.newId hash selfOnboardingEnabled selfOnboardingToken
    audit c c.newId "platform.tenant.create" "tenant" c.newId
    commitNow)
  match ← query .tenantById fun db => .ok (db.tenantRow? c.newId) with
  | none => raise (.runtimeError "Created Tenant could not be reloaded")
  | some tenant => pure tenant

end VerigenceSecurity
