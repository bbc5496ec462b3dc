import VerigenceSecurity.TenantRoles
import VerigenceSecurity.PythonText

/-! # The module catalogue

`ModuleCatalogService`: a module submits its permissions and role templates, and
one transaction upserts them all. A trigger on the permissions keeps the grants
of the super admin role equal to the `ACTIVE` permissions.
-/

namespace VerigenceSecurity
set_option autoImplicit false

open Transaction Program

structure PermissionInput where
  key : String
  name : String
  description : Option String := none
  status : String := "ACTIVE"

structure RoleTemplateInput where
  key : String
  name : String
  permissions : List String
  description : Option String := none
  status : String := "ACTIVE"

structure CatalogInput where
  moduleKey : String
  moduleName : String
  catalogVersion : String
  permissions : List PermissionInput
  roleTemplates : List RoleTemplateInput

/-- `_ALLOWED_LIFECYCLE`, and the status each of its texts stands for. -/
def LifecycleStatus.ofText? : String → Option LifecycleStatus
  | "ACTIVE" => some .active
  | "DEPRECATED" => some .deprecated
  | "RETIRED" => some .retired
  | _ => none

/-- `key.startswith(f"{module_key}.")`. -/
def inNamespace (moduleKey key : String) : Bool :=
  (moduleKey ++ ".").toList.isPrefixOf key.toList

def keyParts (key : String) : List String := (key.toList.splitOn '.').map String.ofList

def resourceKey (key : String) : String := ".".intercalate (keyParts key).tail.dropLast

def actionKey (key : String) : String := (keyParts key).getLastD ""

/-! ## Queries -/

namespace Database

def moduleRow? (db : Database) (moduleKey : String) : Option Module :=
  db.modules.rows.find? fun r => decide (r.moduleKey = moduleKey)

def permissionRow? (db : Database) (permissionKey : String) : Option Permission :=
  db.permissions.rows.find? fun r => decide (r.permissionKey = permissionKey)

def templateRow? (db : Database) (moduleKey templateKey : String) : Option ModuleRoleTemplate :=
  db.moduleRoleTemplates.rows.find? fun r =>
    decide (r.moduleKey = moduleKey ∧ r.templateKey = templateKey)

def modulePermissions (db : Database) (moduleKey : String) : List Permission :=
  (db.permissions.rows.filter fun r => decide (r.moduleKey = moduleKey)).insertionSort
    fun a b => a.permissionKey ≤ b.permissionKey

def moduleTemplates (db : Database) (moduleKey : String) : List (ModuleRoleTemplate × List String) :=
  ((db.moduleRoleTemplates.rows.filter fun r => decide (r.moduleKey = moduleKey)).insertionSort
      fun a b => a.templateKey ≤ b.templateKey).map fun t =>
    (t, ((db.moduleRoleTemplatePermissions.rows.filter fun tp =>
      decide (tp.templateId = t.templateId)).map (·.permissionKey)).insertionSort (· ≤ ·))

def roleAssigned (db : Database) (r : Role) (now : Instant) : Bool :=
  db.userRoleAssignments.rows.any fun ura => decide (ura.tenantId = r.tenantId ∧
    ura.roleId = r.roleId ∧ ura.status = .active) && validAt ura.validFrom ura.validTo now

def roleGrouped (db : Database) (r : Role) (now : Instant) : Bool :=
  db.groupRoleAssignments.rows.any fun gra => decide (gra.tenantId = r.tenantId ∧
      gra.roleId = r.roleId ∧ gra.status = .active) &&
    db.groups.rows.any fun g => decide (g.tenantId = gra.tenantId ∧ g.groupId = gra.groupId ∧
        g.status = .active) &&
      db.groupMemberships.rows.any fun gm => decide (gm.tenantId = g.tenantId ∧
        gm.groupId = g.groupId ∧ gm.status = .active) && validAt gm.validFrom gm.validTo now

def effectiveRoleReferences (db : Database) (permissionKey : String) (now : Instant) :
    List RoleReference :=
  let roles := db.roles.rows.filter fun r => decide (r.status = .active) &&
    (db.rolePermissions.rows.any fun rp => decide (rp.tenantId = r.tenantId ∧
      rp.roleId = r.roleId ∧ rp.permissionKey = permissionKey)) &&
    (db.roleAssigned r now || db.roleGrouped r now)
  (roles.map fun r => ⟨r.tenantId, r.roleId, r.roleKey, r.roleName⟩).dedup.insertionSort
    fun a b => a.tenantId < b.tenantId ∨ a.tenantId = b.tenantId ∧ a.roleKey ≤ b.roleKey

end Database

def moduleRow (moduleKey : String) : Tx (Option Module) :=
  query .module fun db => .ok (db.moduleRow? moduleKey)

def permission (permissionKey : String) : Tx (Option Permission) :=
  query .permission fun db => .ok (db.permissionRow? permissionKey)

/-! ## Validation -/

def validatePermission (moduleKey : String) (p : PermissionInput) : Except Failure Unit :=
  if isCanonicalPermission p.key = false then
    .error (.moduleCatalog ("Invalid canonical permission " ++ p.key))
  else if inNamespace moduleKey p.key = false then
    .error (.moduleCatalog ("Permission " ++ p.key ++ " does not belong to module " ++ moduleKey))
  else if strip p.name = "" then
    .error (.moduleCatalog ("Permission " ++ p.key ++ " requires a name"))
  else if LifecycleStatus.ofText? p.status = none then
    .error (.moduleCatalog ("Invalid permission status " ++ p.status))
  else .ok ()

def validateTemplatePermission (moduleKey : String) (catalog : CatalogInput)
    (template : RoleTemplateInput) (permissionKey : String) : Tx Unit :=
  let nonActive := Failure.moduleCatalog
    ("Template " ++ template.key ++ " references non-ACTIVE permission " ++ permissionKey)
  let unregistered := Failure.moduleCatalog
    ("Template " ++ template.key ++ " references unregistered permission " ++ permissionKey)
  if inNamespace moduleKey permissionKey = false then
    raise (.moduleCatalog ("Template " ++ template.key ++ " references another module namespace"))
  else
    match catalog.permissions.find? fun p => decide (p.key = permissionKey) with
    | some submitted => if submitted.status ≠ "ACTIVE" then raise nonActive else pure ()
    | none => do
      match ← permission permissionKey with
      | none => raise unregistered
      | some existing =>
        if existing.moduleKey ≠ moduleKey then raise unregistered
        else if existing.status ≠ .active then raise nonActive
        else pure ()

def validateTemplate (moduleKey : String) (catalog : CatalogInput) (template : RoleTemplateInput) :
    Tx Unit :=
  if inNamespace moduleKey template.key = false then
    raise (.moduleCatalog
      ("Template " ++ template.key ++ " does not belong to module " ++ moduleKey))
  else if LifecycleStatus.ofText? template.status = none then
    raise (.moduleCatalog ("Invalid template status " ++ template.status))
  else if ¬ template.permissions.Nodup then
    raise (.moduleCatalog ("Template " ++ template.key ++ " contains duplicate permissions"))
  else each (validateTemplatePermission moduleKey catalog template) template.permissions

/-- `_validate_catalog`. Python's `str.lower` is the parameter `lower`. -/
def validateCatalog (lower : String → String) (moduleKey : String) (catalog : CatalogInput) :
    Tx Unit :=
  if moduleKey = "" ∨ lower (strip catalog.moduleKey) ≠ moduleKey then
    raise (.moduleCatalog "Path moduleKey must match request moduleKey")
  else if strip catalog.moduleName = "" then raise (.moduleCatalog "moduleName is required")
  else if strip catalog.catalogVersion = "" then
    raise (.moduleCatalog "catalogVersion is required")
  else if ¬ (catalog.permissions.map (·.key)).Nodup then
    raise (.moduleCatalog "Duplicate permission keys are not allowed")
  else do
    each (fun p => done (validatePermission moduleKey p)) catalog.permissions
    if ¬ (catalog.roleTemplates.map (·.key)).Nodup then
      raise (.moduleCatalog "Duplicate module role-template keys are not allowed")
    else each (validateTemplate moduleKey catalog) catalog.roleTemplates

/-! ## The upserts -/

/-- `INSERT ... ON CONFLICT DO UPDATE`: the stored row that owns the entry is updated. -/
def upsertRow {ρ : Type} [Row ρ] (table : Rows ρ) (entry : IndexEntry) (row : ρ)
    (references : List Reference) (write : Write) : Except Failure (Outcome Write RowLock Unit) :=
  if table.rows.any fun r => decide (entry ∈ Row.entries r) then .ok {
    value := ()
    edits := [write]
    locks := [⟨Row.relation ρ, entry, .noKeyUpdate⟩] }
  else insertRow table row references write

def upsertModule (c : AdminCall) (moduleKey : String) (catalog : CatalogInput) : Tx Unit :=
  execute .upsertModule fun db =>
    let row : Module := ⟨moduleKey, strip catalog.moduleName, strip catalog.catalogVersion, .active⟩
    let actor := db.userReference c.actorUserId
    if row.fits = false then .error .dataError
    else if actor.present = false then .error (.integrityError .foreignKey)
    else (upsertRow db.modules (.primary, [moduleKey]) row [actor] (.upsertModule row)).map fun o =>
      { o with locks := actor.lock :: o.locks }

def syncSuperAdminPermission (db : Database) (row : Permission) :
    Except Failure (Outcome Write RowLock Unit) :=
  let grant : PlatformRolePermission := ⟨superAdminRoleKey, row.permissionKey⟩
  match row.status with
  | .active =>
    if grant ∈ db.platformRolePermissions.rows then .ok { value := () }
    else insertRow db.platformRolePermissions grant [db.platformRoleReference superAdminRoleKey]
      (.grantSuperAdminPermission row.permissionKey)
  | .deprecated | .retired => .ok {
      value := ()
      edits := [.revokeSuperAdminPermission row.permissionKey]
      locks := if grant ∈ db.platformRolePermissions.rows then
        [rowLock .platformRolePermissions [superAdminRoleKey, row.permissionKey] .update] else [] }

/-- The stored row is the same permission, so `ON CONFLICT DO UPDATE ... WHERE` applies. -/
def Permission.sameAction (row stored : Permission) : Prop :=
  stored.moduleKey = row.moduleKey ∧ stored.resourceKey = row.resourceKey ∧
    stored.actionKey = row.actionKey

instance (row stored : Permission) : Decidable (row.sameAction stored) :=
  inferInstanceAs (Decidable (_ ∧ _ ∧ _))

/-- The upsert of a permission, and the trigger when a row was inserted or updated. -/
def registerPermission (db : Database) (row : Permission) :
    Except Failure (Outcome Write RowLock Unit) := do
  if ∀ stored ∈ db.permissionRow? row.permissionKey, row.sameAction stored then
    let written ← upsertRow db.permissions (.primary, [row.permissionKey]) row []
      (.upsertPermission row)
    let synced ← syncSuperAdminPermission db row
    .ok {
      value := ()
      edits := written.edits ++ synced.edits
      locks := written.locks ++ synced.locks }
  else .ok {
    value := ()
    locks := [rowLock .permissions [row.permissionKey] .noKeyUpdate] }

def permissionRow (moduleKey catalogVersion : String) (p : PermissionInput)
    (status : LifecycleStatus) : Permission where
  permissionKey := p.key
  moduleKey := moduleKey
  resourceKey := resourceKey p.key
  actionKey := actionKey p.key
  displayName := some (strip p.name)
  description := p.description
  status := status
  catalogVersion := some catalogVersion

/-- A status outside the lifecycle violates the `CHECK` of the column. The texts written are
stripped, so none of them is cut to the width of its column. -/
def upsertPermission (moduleKey catalogVersion : String) (p : PermissionInput) : Tx Unit :=
  execute .upsertPermission fun db =>
    match LifecycleStatus.ofText? p.status with
    | none => .error (.integrityError .check)
    | some status =>
      let row := permissionRow moduleKey catalogVersion p status
      if row.fits = false then .error .dataError else registerPermission db row

/-- The effective roles that a retirement would break. PostgreSQL's `now()` is `databaseNow`. -/
def affectedRoles (databaseNow : Instant) (p : PermissionInput) : Tx (List RoleReference) :=
  if p.status = "RETIRED" then
    query .effectiveRoleReferences fun db => .ok (db.effectiveRoleReferences p.key databaseNow)
  else pure []

def putPermission (moduleKey catalogVersion : String) (databaseNow : Instant) (p : PermissionInput) :
    Tx Unit := do
  let existing ← permission p.key
  if existing.any (fun e => decide (e.moduleKey ≠ moduleKey)) then
    raise (.moduleCatalog ("Permission " ++ p.key ++ " is owned by another module"))
  else
    let affected ← affectedRoles databaseNow p
    if affected ≠ [] then raise (.retirementConflict p.key affected)
    else upsertPermission moduleKey catalogVersion p

def insertTemplatePermission (templateId : Uuid) (permissionKey : String) : Tx Unit :=
  execute .insertTemplatePermission fun db =>
    let row : ModuleRoleTemplatePermission := ⟨templateId, permissionKey⟩
    insertRow db.moduleRoleTemplatePermissions row
      [db.templateReference templateId, db.permissionReference permissionKey]
      (.insertTemplatePermission row)

/-- `upsert_template`; a template that is not stored yet gets the fresh id. -/
def upsertTemplate (freshId : Uuid) (moduleKey catalogVersion : String) (t : RoleTemplateInput) :
    Tx Uuid := do
  let existing ← execute .lockTemplate fun db =>
    let found := (db.templateRow? moduleKey t.key).map (·.templateId)
    .ok {
      value := found
      locks := found.toList.map fun id => rowLock .moduleRoleTemplates [id] .update }
  let templateId := existing.getD freshId
  execute .upsertTemplate fun db =>
    match LifecycleStatus.ofText? t.status with
    | none => .error (.integrityError .check)
    | some status =>
      let row : ModuleRoleTemplate :=
        ⟨templateId, moduleKey, t.key, strip t.name, t.description, catalogVersion, status⟩
      upsertRow db.moduleRoleTemplates (.natural, [moduleKey, t.key]) row
        [db.moduleReference moduleKey] (.upsertTemplate row)
  pure templateId

def putTemplate (freshId : Uuid) (moduleKey catalogVersion : String) (t : RoleTemplateInput) :
    Tx Unit := do
  let templateId ← upsertTemplate freshId moduleKey catalogVersion t
  execute .deleteTemplatePermissions fun db => .ok {
    value := ()
    edits := [.deleteTemplatePermissions templateId]
    locks := (db.moduleRoleTemplatePermissions.rows.filter fun r =>
      decide (r.templateId = templateId)).map fun r =>
        rowLock .moduleRoleTemplatePermissions [r.templateId, r.permissionKey] .update }
  each (insertTemplatePermission templateId) (sortedSet t.permissions)

/-! ## Responses -/

structure CatalogPermission where
  key : String
  name : Option String
  description : Option String
  status : LifecycleStatus
  catalogVersion : Option String
  deriving DecidableEq, Repr

structure CatalogTemplate where
  key : String
  name : String
  description : Option String
  status : LifecycleStatus
  catalogVersion : String
  permissions : List String
  deriving DecidableEq, Repr

structure CatalogResponse where
  moduleKey : String
  moduleName : Option String
  catalogVersion : Option String
  status : Option ActiveStatus
  permissions : List CatalogPermission
  roleTemplates : List CatalogTemplate
  deriving DecidableEq, Repr

def catalogResponse (moduleKey : String) (row : Option Module) : Tx CatalogResponse := do
  let permissions ← query .modulePermissions fun db => .ok (db.modulePermissions moduleKey)
  let templates ← query .moduleTemplates fun db => .ok (db.moduleTemplates moduleKey)
  pure {
    moduleKey := moduleKey
    moduleName := row.map (·.moduleName)
    catalogVersion := row.map (·.catalogVersion)
    status := row.map (·.status)
    permissions := permissions.map fun p =>
      ⟨p.permissionKey, p.displayName, p.description, p.status, p.catalogVersion⟩
    roleTemplates := templates.map fun t =>
      ⟨t.1.templateKey, t.1.templateName, t.1.description, t.1.status, t.1.catalogVersion, t.2⟩ }

def getCatalog (moduleKey : String) : Tx (Option CatalogResponse) := do
  match ← moduleRow moduleKey with
  | none => pure none
  | some row =>
    let response ← catalogResponse moduleKey (some row)
    pure (some response)

/-- `put_catalog`. Each template may draw a UUID of its own. -/
def putCatalog (lower : String → String) (c : AdminCall) (databaseNow : Instant)
    (freshId : Nat → Uuid) (pathModuleKey : String) (catalog : CatalogInput) :
    Tx CatalogResponse := do
  let moduleKey := lower (strip pathModuleKey)
  let catalogVersion := strip catalog.catalogVersion
  validateCatalog lower moduleKey catalog
  attempt rollbackAndRaise (do
    upsertModule c moduleKey catalog
    each (putPermission moduleKey catalogVersion databaseNow) catalog.permissions
    each (fun t => putTemplate (freshId t.2) moduleKey catalogVersion t.1) catalog.roleTemplates.zipIdx
    let row ← moduleRow moduleKey
    let response ← catalogResponse moduleKey row
    platformAudit c "security.module.catalog.put" "MODULE_CATALOG" moduleKey
    commitNow
    pure response)

end VerigenceSecurity
