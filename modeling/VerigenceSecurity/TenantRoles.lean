import VerigenceSecurity.PrivilegedAccess

/-! # Tenant roles made from module templates

The route that creates roles from templates and upgrades them. A trigger on the
template bindings bumps the users that the role reaches.
-/

namespace VerigenceSecurity
set_option autoImplicit false

open Transaction Program

/-- `sorted(...)` of nullable keys, the nulls last. -/
def keyLe : Option String → Option String → Bool
  | some a, some b => decide (a ≤ b)
  | some _, none => true
  | none, some _ => false
  | none, none => true

structure Template where
  templateId : Uuid
  catalogVersion : String
  permissionKeys : List String
  deriving DecidableEq, Repr

structure TemplateRow where
  templateId : Uuid
  catalogVersion : String
  permissionKey : Option String

namespace Database

def templateRows (db : Database) (templateKey : String) : List TemplateRow :=
  ((db.moduleRoleTemplates.rows.filter fun t =>
      decide (t.templateKey = templateKey ∧ t.status = .active)).flatMap fun t =>
    match db.moduleRoleTemplatePermissions.rows.filter fun tp => decide (tp.templateId = t.templateId) with
    | [] => [⟨t.templateId, t.catalogVersion, none⟩]
    | found => found.map fun tp => ⟨t.templateId, t.catalogVersion, some tp.permissionKey⟩)
  |>.insertionSort fun a b => keyLe a.permissionKey b.permissionKey

def template (db : Database) (templateKey : String) : Except Failure Template :=
  match db.templateRows templateKey with
  | [] => .error (.valueError ("Template is not ACTIVE: " ++ templateKey))
  | first :: rest =>
    .ok ⟨first.templateId, first.catalogVersion, (first :: rest).filterMap (·.permissionKey)⟩

/-- The users of `bump_template_authz_state`: no validity bounds, no principal. -/
def templateAuthzUsers (db : Database) (tenantId roleId : Uuid) : List Uuid :=
  let activeUser userId := db.users.rows.any fun u => decide (u.userId = userId ∧ u.status = .active)
  let direct := ((db.userRoleAssignments.rows.filter fun ura => decide (ura.tenantId = tenantId ∧
      ura.roleId = roleId ∧ ura.status = .active)).filter fun ura => activeUser ura.userId).map
    (·.userId)
  let grouped := (db.groupRoleAssignments.rows.filter fun gra => decide (gra.tenantId = tenantId ∧
      gra.roleId = roleId ∧ gra.status = .active)).flatMap fun gra =>
    (db.groups.rows.filter fun g =>
      decide (g.tenantId = gra.tenantId ∧ g.groupId = gra.groupId ∧ g.status = .active)).flatMap
    fun g => ((db.groupMemberships.rows.filter fun gm => decide (gm.tenantId = g.tenantId ∧
        gm.groupId = g.groupId ∧ gm.status = .active)).filter fun gm => activeUser gm.userId).map
      (·.userId)
  (direct ++ grouped).dedup

/-- `_affected_users`, the route's own query; it looks at no user status. -/
def affectedUsers (db : Database) (tenantId roleId : Uuid) (now : Instant) : List Uuid :=
  let direct := (db.userRoleAssignments.rows.filter fun ura => decide (ura.tenantId = tenantId ∧
      ura.roleId = roleId ∧ ura.status = .active) && validAt ura.validFrom ura.validTo now).map
    (·.userId)
  let grouped := (db.groupRoleAssignments.rows.filter fun gra => decide (gra.tenantId = tenantId ∧
      gra.roleId = roleId ∧ gra.status = .active)).flatMap fun gra =>
    (db.groups.rows.filter fun g =>
      decide (g.tenantId = gra.tenantId ∧ g.groupId = gra.groupId ∧ g.status = .active)).flatMap
    fun g => (db.groupMemberships.rows.filter fun gm => decide (gm.tenantId = g.tenantId ∧
      gm.groupId = g.groupId ∧ gm.status = .active) && validAt gm.validFrom gm.validTo now).map
      (·.userId)
  (direct ++ grouped).dedup

end Database

structure RoleDetails where
  role : Role
  permissionKeys : List String
  templates : List (String × String)
  deriving DecidableEq, Repr

def details (tenantId roleId : Uuid) : Tx RoleDetails :=
  query .details fun db =>
    match db.roleRow? tenantId roleId with
    | none => .error (.lookupError "Role not found")
    | some role =>
      let permissions := (db.rolePermissions.rows.filter fun r =>
        decide (r.tenantId = tenantId ∧ r.roleId = roleId)).map (·.permissionKey)
      let bindings := (db.roleTemplateBindings.rows.filter fun b => decide (b.tenantId = tenantId ∧
          b.roleId = roleId ∧ b.status = .current)).flatMap fun b =>
        (db.moduleRoleTemplates.rows.filter fun t => decide (t.templateId = b.templateId)).map
          fun t => (t.templateKey, b.appliedCatalogVersion)
      .ok ⟨role, permissions.insertionSort (· ≤ ·), bindings.insertionSort fun a b => a.1 ≤ b.1⟩

/-- `INSERT INTO role_template_bindings`, and its trigger: every affected user is bumped. -/
def insertBinding (db : Database) (row : RoleTemplateBinding) :
    Except Failure (Outcome Write RowLock Unit) :=
  let affected := db.templateAuthzUsers row.tenantId row.roleId
  (insertRow db.roleTemplateBindings row [db.tenantReference row.tenantId,
    db.roleReference row.tenantId row.roleId, db.templateReference row.templateId,
    db.userReference row.appliedByUserId] (.insertRoleTemplateBinding row)).map fun o => {
      value := ()
      edits := o.edits ++ affected.map (.bumpAuthorizationVersion row.tenantId)
      locks := o.locks ++ affected.map (db.bumpLock row.tenantId) }

theorem insertBinding_ok {db : Database} {row : RoleTemplateBinding}
    {o : Outcome Write RowLock Unit} (h : insertBinding db row = .ok o) :
    o.edits = .insertRoleTemplateBinding row ::
      (db.templateAuthzUsers row.tenantId row.roleId).map (.bumpAuthorizationVersion row.tenantId) := by
  simp only [insertBinding, Except.map] at h
  split at h
  · cases h
  · rename_i inserted hinsert
    cases h
    simp only [(insertRow_ok hinsert).2.2, List.singleton_append]

def bindTemplate (c : AdminCall) (bindingId tenantId roleId : Uuid) (template : Template) : Tx Unit :=
  execute .bind fun db => insertBinding db ⟨bindingId, tenantId, roleId, template.templateId,
    template.catalogVersion, .current, c.actorUserId, none⟩

/-- `except Exception: rollback; raise`. -/
def rollbackAndRaise {α : Type} (error : Failure) : Tx α := do
  rollbackNow
  raise error

/-- A guarded part whose errors are raised again has answered by itself. -/
theorem exec_rollbackAndRaise_ok_iff {α : Type} {p : Tx α} {s t : Session Database} {a : α} :
    (attempt rollbackAndRaise p).exec s = (.ok a, t) ↔ p.exec s = (.ok a, t) := by
  rw [exec_attempt]
  generalize p.exec s = result
  obtain ⟨r, m⟩ := result
  cases r with
  | ok b => exact Iff.rfl
  | error e =>
    constructor
    · intro h
      cases h
    · intro h
      cases h

def templates : List String → Tx (List Template)
  | [] => pure []
  | key :: keys => do
    let first ← query .template fun db => db.template key
    let rest ← templates keys
    pure (first :: rest)

/-- `_create_role`; each template's binding draws a UUID of its own. -/
def createTemplateRole (c : AdminCall) (bindingId : Nat → Uuid) (tenantId : Uuid)
    (roleKey roleName : String) (description : Option String)
    (templateKeys permissionKeys : List String) : Tx RoleDetails := do
  if reservedRoleKey roleKey then raise (.valueError "Reserved role key")
  else
    let found ← templates templateKeys
    let keys := sortedSet (permissionKeys ++ found.flatMap (·.permissionKeys))
    each ensureActivePermission keys
    attempt rollbackAndRaise (do
      insertRole c tenantId roleKey roleName description
      each (insertRolePermission tenantId c.newId) keys
      each (fun t => bindTemplate c (bindingId t.2) tenantId c.newId t.1) found.zipIdx
      audit c tenantId "security.role.create" "ROLE" c.newId
      commitNow)
    details tenantId c.newId

def keepRolePermission (tenantId roleId : Uuid) (permissionKey : String) : Tx Unit :=
  execute .insertRolePermission fun db =>
    let row : RolePermission := ⟨tenantId, roleId, permissionKey⟩
    if row ∈ db.rolePermissions.rows then .ok { value := () }
    else insertRow db.rolePermissions row
      [db.roleReference tenantId roleId, db.permissionReference permissionKey]
      (.insertRolePermission row)

def bumpMembershipVersion (tenantId userId : Uuid) : Tx Unit :=
  execute .bumpMembershipVersion fun db => .ok {
    value := ()
    edits := [.bumpMembershipVersion tenantId userId]
    locks := (db.tenantMemberships.rows.filter fun r => decide (r.tenantId = tenantId ∧
      r.userId = userId ∧ r.status = .active)).map fun r =>
        rowLock .tenantMemberships [r.membershipId] .noKeyUpdate }

/-- `_upgrade`. The binding's UUID is the call's new id. -/
def upgradeTemplate (c : AdminCall) (tenantId roleId : Uuid) (templateKey : String) :
    Tx RoleDetails := do
  let template ← query .template fun db => db.template templateKey
  let keys := sortedSet template.permissionKeys
  each ensureActivePermission keys
  let users ← query .affectedUsers fun db => .ok (db.affectedUsers tenantId roleId c.now)
  attempt rollbackAndRaise (do
    match ← getRole tenantId roleId with
    | none => raise (.lookupError "Role not found")
    | some _ =>
      each (keepRolePermission tenantId roleId) keys
      let _ ← updateWhere .supersedeBindings .roleTemplateBindings .noKeyUpdate
        (fun db => (db.roleTemplateBindings.rows.filter fun r => decide (r.tenantId = tenantId ∧
          r.roleId = roleId ∧ r.templateId = template.templateId ∧ r.status = .current)).map
            (·.bindingId))
        (.supersedeRoleTemplateBindings · tenantId roleId template.templateId c.now)
      bindTemplate c c.newId tenantId roleId template
      each (bumpMembershipVersion tenantId) (sortedSet users)
      audit c tenantId "security.role.template.upgrade" "ROLE" (roleId ++ ":" ++ templateKey)
      commitNow)
  details tenantId roleId

end VerigenceSecurity
