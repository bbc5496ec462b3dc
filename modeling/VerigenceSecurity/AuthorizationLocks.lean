import VerigenceSecurity.TenantOperations
import VerigenceSecurity.Library.LockOrder

/-! # The order of the authorization-state locks

The gate service bumps the versions of its users one by one, sorted by their id. The
trigger of `role_template_bindings` locks the same rows in a single statement, in the
order in which the database finds them.
-/

namespace VerigenceSecurity
set_option autoImplicit false

open Transaction Program Relational

def authorizationUser (l : RowLock) : Option Uuid :=
  if l.relation = .userTenantAuthorizationState then l.entry.2.head? else none

/-- The insertion of a template binding is trusted to lock its users in order. -/
def firesTrigger (name : StatementName) : Bool := decide (name = .bind)

theorem authorizationUser_of_conflicts {l k : RowLock} (h : l.conflicts k = true) :
    authorizationUser l = authorizationUser k := by
  simp only [RowLock.conflicts, Bool.and_eq_true, decide_eq_true_eq] at h
  unfold authorizationUser
  rw [h.1.1, h.1.2]

theorem authorizationUser_elsewhere {l : RowLock} (h : l.relation ≠ .userTenantAuthorizationState) :
    authorizationUser l = none := if_neg h

abbrev Unversioned {α : Type} (p : Tx α) : Prop := p.LocksOnly fun l => authorizationUser l = none

abbrev AscendsFrom {α : Type} (p : Tx α) (seen : List Uuid) : Prop :=
  p.Ascends authorizationUser firesTrigger seen

/-! ## The statements -/

section Statements

variable {α : Type}

theorem authorizationUser_insertRow {ρ : Type} [Row ρ] {table : Rows ρ} {row : ρ}
    {references : List Reference} {write : Write} {o : Outcome Write RowLock Unit}
    (hρ : Row.relation ρ ≠ .userTenantAuthorizationState)
    (hrefs : ∀ r ∈ references, r.relation ≠ .userTenantAuthorizationState)
    (h : insertRow table row references write = .ok o) :
    ∀ l ∈ o.locks, authorizationUser l = none := by
  intro l hl
  apply authorizationUser_elsewhere
  rcases mem_insertRow_locks h hl with ⟨e, _, rfl⟩ | ⟨r, hr, rfl⟩
  · exact hρ
  · exact hrefs r hr

theorem unversioned_insertRow {ρ : Type} [Row ρ] {name : StatementName} {T : Database → Rows ρ}
    {row : ρ} {references : Database → List Reference} {write : Write}
    (hρ : Row.relation ρ ≠ .userTenantAuthorizationState)
    (hrefs : ∀ db, ∀ r ∈ references db, r.relation ≠ .userTenantAuthorizationState) :
    Unversioned (execute name fun db => insertRow (T db) row (references db) write) :=
  locksOnly_execute fun db _ ho => authorizationUser_insertRow hρ (hrefs db) ho

theorem unversioned_updateWhere {name : StatementName} {relation : Relation} {mode : LockMode}
    {find : Database → List Uuid} {write : List Uuid → Write}
    (h : relation ≠ .userTenantAuthorizationState) :
    Unversioned (updateWhere name relation mode find write) := by
  refine locksOnly_bind locksOnly_query fun found => locksOnly_execute fun db o ho l hl => ?_
  cases ho
  obtain ⟨id, _, rfl⟩ := List.mem_map.mp hl
  exact authorizationUser_elsewhere h

theorem unversioned_audit (c : AdminCall) (t : Uuid) (key type id : String) :
    Unversioned (audit c t key type id) :=
  unversioned_insertRow (T := fun db => db.adminChangeRecords) (by decide)
    fun _ => by simp [Database.tenantReference, Database.userReference]

theorem unversioned_insertRole (c : AdminCall) (t : Uuid) (key name : String)
    (description : Option String) : Unversioned (insertRole c t key name description) :=
  unversioned_insertRow (T := fun db => db.roles) (by decide)
    fun _ => by simp [Database.tenantReference]

theorem unversioned_insertRolePermission (t r : Uuid) (key : String) :
    Unversioned (insertRolePermission t r key) :=
  unversioned_insertRow (T := fun db => db.rolePermissions) (by decide)
    fun _ => by simp [Database.roleReference, Database.permissionReference]

theorem unversioned_insertUserRole (c : AdminCall) (t u r assigner : Uuid) :
    Unversioned (insertUserRole c t u r assigner) :=
  unversioned_insertRow (T := fun db => db.userRoleAssignments) (by decide)
    fun _ => by simp [Database.userReference, Database.roleReference]

theorem unversioned_insertRequest (c : AdminCall) (t u r : Uuid) :
    Unversioned (insertRequest c t u r) :=
  locksOnly_bind
    (unversioned_insertRow (T := fun db => db.privilegedAccessRequests) (by decide)
      fun _ => by simp [Database.tenantReference, Database.userReference, Database.roleReference])
    fun _ => locksOnly_bind (unversioned_audit ..) fun _ => locksOnly_commitNow

theorem unversioned_templates (keys : List String) : Unversioned (templates keys) := by
  induction keys with
  | nil => exact locksOnly_pure _
  | cons key keys ih =>
    exact locksOnly_bind locksOnly_query fun _ => locksOnly_bind ih fun _ => locksOnly_pure _

theorem unversioned_ensureActivePermissions (keys : List String) :
    Unversioned (each ensureActivePermission keys) :=
  locksOnly_each (fun _ => locksOnly_query) keys

theorem unversioned_rollbackAndRaise (e : Failure) : Unversioned (rollbackAndRaise e : Tx α) :=
  locksOnly_bind locksOnly_rollbackNow fun _ => locksOnly_raise e

theorem unversioned_onIntegrityError {found : Tx (Option α)} (h : Unversioned found) (e : Failure) :
    Unversioned (onIntegrityError found e) := by
  unfold onIntegrityError
  split
  · refine locksOnly_bind locksOnly_rollbackNow fun _ => locksOnly_bind h fun result => ?_
    cases result with
    | none => exact locksOnly_raise _
    | some result => exact locksOnly_pure result
  · exact locksOnly_raise _

theorem unversioned_lockedRequest (t request : Uuid) : Unversioned (lockedRequest t request) := by
  refine locksOnly_execute fun db o ho l hl => ?_
  split at ho
  · cases ho
  · cases ho
    rw [List.mem_singleton.mp hl]
    rfl

theorem unversioned_recordDecision (c : AdminCall) (t request : Uuid) (roleKey : String)
    (status : RequestStatus) (reason : Option String) (key : String) :
    Unversioned (recordDecision c t request roleKey status reason key) := by
  refine locksOnly_bind (locksOnly_execute fun db o ho l hl => ?_) fun _ =>
    locksOnly_bind (unversioned_audit ..) fun _ => locksOnly_bind locksOnly_commitNow fun _ =>
      locksOnly_bind locksOnly_query fun _ => locksOnly_pure _
  split at ho
  · cases ho
  · cases ho
    rw [List.mem_singleton.mp hl]
    rfl

/-- The versions of sorted users are bumped in their order. -/
theorem ascends_bumpVersions (t : Uuid) (users : List Uuid) :
    AscendsFrom (bumpVersions t users) [] := by
  refine ascends_each (fun u => ⟨_, _, rfl, fun db o ho => ?_⟩) (pairwise_sortedSet users)
  dsimp only at ho
  split at ho
  · cases ho
  · cases ho
    rfl

theorem ascends_of_unversioned {p : Tx α} (h : Unversioned p) : AscendsFrom p [] :=
  h.continues [] .nil

/-- A statement before the bumps locks no authorization-state row. -/
theorem ascends_before {β : Type} {p : Tx α} {k : α → Tx β} (hp : Unversioned p)
    (hk : ∀ a, AscendsFrom (k a) []) : AscendsFrom (p >>= k) [] := hp.ascends_bind hk

/-- Bumps, an audit record and the commit. -/
theorem ascends_ending {c : AdminCall} {t : Uuid} {users : List Uuid} {key type id : String}
    {k : Unit → Tx α} (hk : ∀ u, Unversioned (k u)) :
    AscendsFrom (bumpVersions t users >>= fun _ => audit c t key type id >>= fun _ =>
      commitNow >>= k) [] :=
  (ascends_bumpVersions t users).bind .nil fun _ =>
    (locksOnly_bind (unversioned_audit ..) fun _ => locksOnly_bind locksOnly_commitNow hk).continues

theorem ascends_removeRow {c : AdminCall} {t : Uuid} {ended : Tx (List Uuid)} {affected : List Uuid}
    {key type id : String} (h : Unversioned ended) :
    AscendsFrom (removeRow c t ended affected key type id) [] := by
  refine ascends_before h fun ids => ?_
  split
  · exact ascends_before locksOnly_rollbackNow fun _ => ascends_of_unversioned (locksOnly_pure _)
  · exact ascends_ending fun _ => locksOnly_pure _

/-- The trigger's statement continues the order by assumption. -/
theorem continues_bindTemplate (c : AdminCall) (bindingId t r : Uuid) (template : Template) :
    (bindTemplate c bindingId t r template).Continues authorizationUser firesTrigger :=
  continues_trusted rfl

end Statements

/-! ## The operations -/

section Operations

theorem unversioned_createGroup (c : AdminCall) (t : Uuid) (key name : String)
    (description : Option String) : Unversioned (createGroup c t key name description) := by
  refine locksOnly_bind (unversioned_insertRow (T := fun db => db.groups) (by decide)
    fun _ => by simp [Database.tenantReference, Database.userReference]) fun _ =>
      locksOnly_bind (unversioned_audit ..) fun _ => locksOnly_bind locksOnly_commitNow fun _ =>
        locksOnly_bind locksOnly_query fun group => ?_
  cases group with
  | none => exact locksOnly_raise _
  | some group => exact locksOnly_pure group

theorem ascends_updateGroup (c : AdminCall) (t gid : Uuid) (name description : Option String)
    (status : Option ActiveStatus) :
    AscendsFrom (updateGroup c t gid name description status) [] := by
  refine ascends_before locksOnly_query fun current => ?_
  cases current with
  | none => exact ascends_of_unversioned (locksOnly_pure _)
  | some current =>
    refine ascends_before locksOnly_query fun affected =>
      ascends_before (locksOnly_execute ?_) fun _ => ascends_ending fun _ => locksOnly_query
    intro db o ho l hl
    cases ho
    rw [List.mem_singleton.mp hl]
    rfl

theorem ascends_addGroupMember (c : AdminCall) (t gid u : Uuid) :
    AscendsFrom (addGroupMember c t gid u) [] := by
  refine ascends_before locksOnly_query fun activeGroup => ?_
  split
  · exact ascends_of_unversioned (locksOnly_raise _)
  · refine ascends_before locksOnly_query fun active => ?_
    split
    · exact ascends_of_unversioned (locksOnly_raise _)
    · refine ascends_before locksOnly_query fun existing => ?_
      split
      · exact ascends_of_unversioned (locksOnly_pure _)
      · refine ascends_before (unversioned_insertRow (T := fun db => db.groupMemberships)
          (by decide) fun _ => ?_) fun _ => ascends_ending fun _ => locksOnly_pure _
        simp [Database.tenantReference, Database.groupReference, Database.userReference]

theorem ascends_assignGroupRole (c : AdminCall) (t gid r : Uuid) :
    AscendsFrom (assignGroupRole c t gid r) [] := by
  refine ascends_before locksOnly_query fun activeGroup => ?_
  split
  · exact ascends_of_unversioned (locksOnly_raise _)
  · refine ascends_before locksOnly_query fun activeRole => ?_
    split
    · exact ascends_of_unversioned (locksOnly_raise _)
    · refine ascends_before locksOnly_query fun existing => ?_
      split
      · exact ascends_of_unversioned (locksOnly_pure _)
      · refine ascends_before (unversioned_insertRow (T := fun db => db.groupRoleAssignments)
          (by decide) fun _ => ?_) fun _ => ascends_before locksOnly_query fun _ =>
            ascends_ending fun _ => locksOnly_pure _
        simp [Database.tenantReference, Database.groupReference, Database.roleReference,
          Database.userReference]

theorem unversioned_createRole (c : AdminCall) (t : Uuid) (key name : String)
    (description : Option String) (keys : List String) :
    Unversioned (createRole c t key name description keys) := by
  unfold createRole
  split
  · exact locksOnly_raise _
  · refine locksOnly_bind (unversioned_ensureActivePermissions keys) fun _ =>
      locksOnly_bind (unversioned_insertRole ..) fun _ =>
        locksOnly_bind (locksOnly_each (fun _ => unversioned_insertRolePermission ..) _) fun _ =>
          locksOnly_bind (unversioned_audit ..) fun _ => locksOnly_bind locksOnly_commitNow fun _ =>
            locksOnly_bind locksOnly_query fun role => ?_
    cases role with
    | none => exact locksOnly_raise _
    | some role => exact locksOnly_pure role

theorem ascends_createTemplateRole (c : AdminCall) (bindingId : Nat → Uuid) (t : Uuid)
    (key name : String) (description : Option String) (templateKeys keys : List String) :
    AscendsFrom (createTemplateRole c bindingId t key name description templateKeys keys) [] := by
  unfold createTemplateRole
  split
  · exact ascends_of_unversioned (locksOnly_raise _)
  · refine ascends_before (unversioned_templates _) fun found =>
      ascends_before (unversioned_ensureActivePermissions _) fun _ =>
        Ascends.bind .nil (Ascends.attempt .nil ?_ fun e => (unversioned_rollbackAndRaise e).continues)
          fun _ => LocksOnly.continues locksOnly_query
    refine ascends_before (unversioned_insertRole ..) fun _ =>
      ascends_before (locksOnly_each (fun _ => unversioned_insertRolePermission ..) _) fun _ => ?_
    have hbindings := continues_each
      (fun (b : Template × Nat) => continues_bindTemplate c (bindingId b.2) t c.newId b.1)
    exact (hbindings _).bind (fun _ => (locksOnly_bind (unversioned_audit ..) fun _ =>
      locksOnly_commitNow).continues) [] .nil

theorem ascends_updateRole (c : AdminCall) (t r : Uuid) (name description : Option String)
    (status : Option ActiveStatus) :
    AscendsFrom (updateRole c t r name description status) [] := by
  refine ascends_before locksOnly_query fun current => ?_
  cases current with
  | none => exact ascends_of_unversioned (locksOnly_pure _)
  | some current =>
    refine ascends_before locksOnly_query fun affected =>
      ascends_before (locksOnly_execute ?_) fun _ => ascends_ending fun _ => locksOnly_query
    intro db o ho l hl
    cases ho
    rw [List.mem_singleton.mp hl]
    rfl

theorem ascends_addRolePermission (c : AdminCall) (t r : Uuid) (p : String) :
    AscendsFrom (addRolePermission c t r p) [] := by
  refine ascends_before locksOnly_query fun _ => ascends_before locksOnly_query fun activeRole => ?_
  split
  · exact ascends_of_unversioned (locksOnly_raise _)
  · refine ascends_before locksOnly_query fun existing => ?_
    split
    · exact ascends_of_unversioned (locksOnly_pure _)
    · exact ascends_before (unversioned_insertRolePermission ..) fun _ =>
        ascends_before locksOnly_query fun _ => ascends_ending fun _ => locksOnly_pure _

theorem ascends_removeRolePermission (c : AdminCall) (t r : Uuid) (p : String) :
    AscendsFrom (removeRolePermission c t r p) [] := by
  refine ascends_before locksOnly_query fun _ => ascends_removeRow (locksOnly_execute ?_)
  intro db o ho l hl
  cases ho
  obtain ⟨row, _, rfl⟩ := List.mem_map.mp hl
  rfl

theorem unversioned_keepRolePermission (t r : Uuid) (key : String) :
    Unversioned (keepRolePermission t r key) := by
  refine locksOnly_execute fun db o ho l hl => ?_
  dsimp only at ho
  split at ho
  · cases ho
    cases hl
  · exact authorizationUser_insertRow (by decide)
      (by simp [Database.roleReference, Database.permissionReference]) ho l hl

theorem unversioned_bumpMembershipVersion (t u : Uuid) : Unversioned (bumpMembershipVersion t u) := by
  refine locksOnly_execute fun db o ho l hl => ?_
  cases ho
  obtain ⟨row, _, rfl⟩ := List.mem_map.mp hl
  rfl

theorem ascends_upgradeTemplate (c : AdminCall) (t r : Uuid) (key : String) :
    AscendsFrom (upgradeTemplate c t r key) [] := by
  refine ascends_before locksOnly_query fun template =>
    ascends_before (unversioned_ensureActivePermissions _) fun _ =>
      ascends_before locksOnly_query fun users =>
        Ascends.bind .nil (Ascends.attempt .nil ?_ fun e => (unversioned_rollbackAndRaise e).continues)
          fun _ => LocksOnly.continues locksOnly_query
  refine ascends_before locksOnly_query fun role => ?_
  cases role with
  | none => exact ascends_of_unversioned (locksOnly_raise _)
  | some role =>
    refine ascends_before (locksOnly_each (fun _ => unversioned_keepRolePermission ..) _) fun _ =>
      ascends_before (unversioned_updateWhere (by decide)) fun _ => ?_
    have hafter : Unversioned (each (bumpMembershipVersion t) (sortedSet users) >>= fun _ =>
        audit c t "security.role.template.upgrade" "ROLE" (r ++ ":" ++ key) >>= fun _ => commitNow) :=
      locksOnly_bind (locksOnly_each (fun _ => unversioned_bumpMembershipVersion ..) _) fun _ =>
        locksOnly_bind (unversioned_audit ..) fun _ => locksOnly_commitNow
    exact (continues_bindTemplate c c.newId t r template).bind (fun _ => hafter.continues) [] .nil

theorem ascends_adminAssignUserRole (c : AdminCall) (t u r : Uuid) :
    AscendsFrom (adminAssignUserRole c t u r) [] := by
  refine ascends_before locksOnly_query fun active => ?_
  split
  · exact ascends_of_unversioned (locksOnly_raise _)
  · refine ascends_before locksOnly_query fun activeRole => ?_
    split
    · exact ascends_of_unversioned (locksOnly_raise _)
    · refine ascends_before locksOnly_query fun existing => ?_
      split
      · exact ascends_of_unversioned (locksOnly_pure _)
      · exact ascends_before (unversioned_insertUserRole ..) fun _ =>
          ascends_ending fun _ => locksOnly_pure _

theorem ascends_assignUserRole (c : AdminCall) (innerNow : Instant) (t u r : Uuid) :
    AscendsFrom (assignUserRole c innerNow t u r) [] := by
  refine ascends_before locksOnly_query fun role => ?_
  split
  · exact ascends_of_unversioned (locksOnly_raise _)
  · exact ascends_of_unversioned (locksOnly_raise _)
  · split
    · exact ascends_adminAssignUserRole ..
    · apply ascends_of_unversioned
      refine locksOnly_bind locksOnly_query fun active => ?_
      split
      · exact locksOnly_raise _
      · refine locksOnly_bind locksOnly_query fun assigned => ?_
        split
        · exact locksOnly_bind locksOnly_rollbackNow fun _ => locksOnly_pure _
        · refine locksOnly_bind locksOnly_query fun pending => ?_
          split
          · exact locksOnly_bind locksOnly_rollbackNow fun _ => locksOnly_pure _
          · refine locksOnly_attempt ?_ ?_
            · exact locksOnly_bind (unversioned_insertRequest ..) fun _ => locksOnly_pure _
            · exact unversioned_onIntegrityError
                (locksOnly_bind locksOnly_query fun _ => locksOnly_pure _)

theorem ascends_requestOrAssignUserRole (c : AdminCall) (gateNow innerNow : Instant)
    (t u r : Uuid) : AscendsFrom (requestOrAssignUserRole c gateNow innerNow t u r) [] := by
  refine ascends_before locksOnly_query fun active => ?_
  split
  · exact ascends_of_unversioned (locksOnly_raise _)
  · refine ascends_before locksOnly_query fun role => ?_
    split
    · exact ascends_of_unversioned (locksOnly_raise _)
    · exact ascends_of_unversioned (locksOnly_raise _)
    · split
      · exact (ascends_assignUserRole ..).bind .nil fun _ => (locksOnly_pure _).continues
      · apply ascends_of_unversioned
        refine locksOnly_bind locksOnly_query fun assigned => ?_
        split
        · exact locksOnly_bind locksOnly_rollbackNow fun _ => locksOnly_pure _
        · refine locksOnly_bind locksOnly_query fun pending => ?_
          split
          · exact locksOnly_bind locksOnly_rollbackNow fun _ => locksOnly_pure _
          · refine locksOnly_attempt ?_ ?_
            · exact locksOnly_bind (unversioned_insertRequest ..) fun _ => locksOnly_pure _
            · exact unversioned_onIntegrityError
                (locksOnly_bind locksOnly_query fun _ => locksOnly_pure _)

theorem ascends_approve (c : AdminCall) (t request : Uuid) (reason : Option String) :
    AscendsFrom (approve c t request reason) [] := by
  refine ascends_before (unversioned_lockedRequest ..) fun found => ?_
  split
  · exact ascends_of_unversioned (locksOnly_raise _)
  · refine ascends_before locksOnly_query fun active => ?_
    split
    · exact ascends_of_unversioned (locksOnly_raise _)
    · refine ascends_before locksOnly_query fun activeRole => ?_
      split
      · exact ascends_of_unversioned (locksOnly_raise _)
      · refine ascends_before locksOnly_query fun existing => ?_
        split
        · exact ascends_of_unversioned (unversioned_recordDecision ..)
        · refine ascends_before (unversioned_insertUserRole ..) fun _ => ?_
          exact (ascends_bumpVersions ..).bind .nil fun _ => (unversioned_recordDecision ..).continues

theorem unversioned_reject (c : AdminCall) (t request : Uuid) (reason : Option String) :
    Unversioned (reject c t request reason) := by
  refine locksOnly_bind (unversioned_lockedRequest ..) fun found => ?_
  split
  · exact locksOnly_raise _
  · exact unversioned_recordDecision ..

end Operations

/-- Each operation takes its authorization-state locks by ascending user, if the trigger does. -/
theorem TenantOperation.ascends (op : TenantOperation) : AscendsFrom op.program [] := by
  have hdiscard : ∀ {α : Type} {p : Tx α}, AscendsFrom p [] → AscendsFrom (discard p) [] :=
    fun h => h.bind .nil fun _ => (locksOnly_pure ()).continues
  cases op with
  | assignUserRole => exact hdiscard (ascends_assignUserRole ..)
  | requestOrAssignUserRole => exact hdiscard (ascends_requestOrAssignUserRole ..)
  | approve => exact hdiscard (ascends_approve ..)
  | reject => exact hdiscard (ascends_of_unversioned (unversioned_reject ..))
  | removeUserRole | removeGroupMember =>
    exact hdiscard (ascends_removeRow (unversioned_updateWhere (by decide)))
  | createGroup => exact hdiscard (ascends_of_unversioned (unversioned_createGroup ..))
  | updateGroup => exact hdiscard (ascends_updateGroup ..)
  | addGroupMember => exact hdiscard (ascends_addGroupMember ..)
  | assignGroupRole => exact hdiscard (ascends_assignGroupRole ..)
  | removeGroupRole =>
    exact hdiscard (ascends_before locksOnly_query fun _ =>
      ascends_removeRow (unversioned_updateWhere (by decide)))
  | createRole => exact hdiscard (ascends_of_unversioned (unversioned_createRole ..))
  | createTemplateRole => exact hdiscard (ascends_createTemplateRole ..)
  | updateRole => exact hdiscard (ascends_updateRole ..)
  | addRolePermission => exact hdiscard (ascends_addRolePermission ..)
  | removeRolePermission => exact hdiscard (ascends_removeRolePermission ..)
  | upgradeTemplate => exact hdiscard (ascends_upgradeTemplate ..)

/-! ## Overlapping operations -/

namespace TenantOperation

/-- The operations begin together on these rows, and their statements wait for their locks. -/
def waiting (ops : List TenantOperation) (db : Database) :
    Waiting Database Write RowLock StatementName Failure Unit :=
  .initial db (ops.map program)

abbrev VersionDeadlock (s : Waiting Database Write RowLock StatementName Failure Unit) : Prop :=
  s.Deadlocked RowLock.conflicts fun l => (authorizationUser l).isSome

def twoRoles : Database :=
  replayAll [.insertRole ⟨"clerk", "tenant", "clerk", "Clerk", none, .active, 0, 0⟩,
    .insertRole ⟨"buyer", "tenant", "buyer", "Buyer", none, .active, 0, 0⟩,
    .insertUserRoleAssignment ⟨"ann-clerk", "tenant", "ann", "clerk", .active, none, none, "admin"⟩,
    .insertUserRoleAssignment ⟨"bob-clerk", "tenant", "bob", "clerk", .active, none, none, "admin"⟩,
    .insertUserRoleAssignment ⟨"ann-buyer", "tenant", "ann", "buyer", .active, none, none, "admin"⟩,
    .insertUserRoleAssignment ⟨"bob-buyer", "tenant", "bob", "buyer", .active, none, none, "admin"⟩]
    { (default : Database) with
      tenants := Table.empty.insert ⟨"tenant", "TENANT", "Tenant", .active, 0, 0⟩
      users := ((Table.empty.insert ⟨"admin", "Admin", none, none, none, none, .active, 0, 0⟩).insert
        ⟨"ann", "Ann", none, none, none, none, .active, 0, 0⟩).insert
        ⟨"bob", "Bob", none, none, none, none, .active, 0, 0⟩
      modules := Table.empty.insert ⟨"sales", "Sales", "1", .active⟩
      moduleRoleTemplates := Table.empty.insert
        ⟨"template", "sales", "sales.clerk", "Clerk", none, "1", .active⟩
      userTenantAuthorizationState := (Table.empty.insert ⟨"ann", "tenant", 2⟩).insert
        ⟨"bob", "tenant", 2⟩ }

def upgrades : List TenantOperation :=
  [.upgradeTemplate ⟨"admin", "first", 1, "binding-1", "audit-1"⟩ "tenant" "clerk" "sales.clerk",
    .upgradeTemplate ⟨"admin", "second", 1, "binding-2", "audit-2"⟩ "tenant" "buyer" "sales.clerk"]

def bindLocks (bindingId roleId : Uuid) (users : List Uuid) : List RowLock :=
  rowLock .roleTemplateBindings [bindingId] .update ::
    [rowLock .tenants ["tenant"] .keyShare, rowLock .roles [roleId] .keyShare,
      rowLock .moduleRoleTemplates ["template"] .keyShare, rowLock .users ["admin"] .keyShare] ++
    users.map fun u => rowLock .userTenantAuthorizationState [u, "tenant"] .noKeyUpdate

def upToFirstUser (i : Nat) (bindingId roleId : Uuid) (users : List Uuid) : List (Move RowLock) :=
  List.replicate 5 (.ask i []) ++ .ask i (bindLocks bindingId roleId users) ::
    List.replicate 6 (.take i)

/-- If the trigger meets its users in ascending order, every operation locks authorization-state
rows in ascending order of their users, and no operations wait for them in a circle. -/
theorem authorization_locks_ascend {ops : List TenantOperation} {db : Database}
    {s : Waiting Database Write RowLock StatementName Failure Unit}
    (h : Waiting.Reaches RowLock.conflicts (Waiting.Yields authorizationUser firesTrigger)
      (waiting ops db) s) :
    (∀ i, ((s.held i).reverse.filterMap authorizationUser).Pairwise (· < ·)) ∧
      ¬ VersionDeadlock s := by
  have hordered := h.ordered fun p hp => by
    obtain ⟨op, _, rfl⟩ := List.mem_map.mp hp
    exact op.ascends
  refine ⟨fun i => ?_, hordered.not_deadlocked fun _ _ => authorizationUser_of_conflicts⟩
  have hranks := hordered.ascending i
  rw [Waiting.ranks, List.filterMap_append] at hranks
  exact (List.pairwise_append.mp hranks).1

/-- Two upgrades whose triggers meet their users in ascending order: the second one waits. -/
theorem ordered_upgrades_ascend :
    ∃ s, s.Waits RowLock.conflicts (fun l => (authorizationUser l).isSome) 1 0 ∧
      (∀ i, ((s.held i).reverse.filterMap authorizationUser).Pairwise (· < ·)) ∧
        ¬ VersionDeadlock s := by
  have hyields : (waiting upgrades twoRoles).Meets RowLock.conflicts
      (Waiting.Yields authorizationUser firesTrigger)
      (upToFirstUser 0 "binding-1" "clerk" ["ann", "bob"] ++
        (upToFirstUser 1 "binding-2" "buyer" ["ann", "bob"]).dropLast) := by
    decide +kernel
  have hrun : ∃ s ∈ (waiting upgrades twoRoles).run RowLock.conflicts
      (upToFirstUser 0 "binding-1" "clerk" ["ann", "bob"] ++
        (upToFirstUser 1 "binding-2" "buyer" ["ann", "bob"]).dropLast),
      s.Waits RowLock.conflicts (fun l => (authorizationUser l).isSome) 1 0 := by
    decide +kernel
  obtain ⟨s, hs, hwaits⟩ := hrun
  exact ⟨s, hwaits, authorization_locks_ascend (Waiting.reaches_of_run hyields hs)⟩

/-- The two triggers meet the same two users in opposite orders. -/
theorem not_authorization_locks_ascend :
    ¬ ∀ (ops : List TenantOperation) (db : Database)
      (s : Waiting Database Write RowLock StatementName Failure Unit),
      Waiting.Reaches RowLock.conflicts (fun _ _ => True) (waiting ops db) s →
      (∀ i, ((s.held i).reverse.filterMap authorizationUser).Pairwise (· < ·)) ∧
        ¬ VersionDeadlock s := by
  intro hclaim
  have hrun : ∃ s ∈ (waiting upgrades twoRoles).run RowLock.conflicts
      (upToFirstUser 0 "binding-1" "clerk" ["ann", "bob"] ++
        upToFirstUser 1 "binding-2" "buyer" ["bob", "ann"]),
      s.Waits RowLock.conflicts (fun l => (authorizationUser l).isSome) 0 1 ∧
        s.Waits RowLock.conflicts (fun l => (authorizationUser l).isSome) 1 0 := by
    decide +kernel
  obtain ⟨s, hs, hfirst, hsecond⟩ := hrun
  have hreach := Waiting.reaches_of_run (Waiting.meets_true _ _) hs
  exact (hclaim _ _ s hreach).2 ⟨0, .tail (.single hfirst) hsecond⟩

end TenantOperation

end VerigenceSecurity
