import VerigenceSecurity.ModuleCatalog
import VerigenceSecurity.AuthorizationVersion

/-! # Catalogue changes and the authorization-version law

A put of a module's catalogue changes the status of permissions and the super
admin's grants, and it raises nobody's version. So it keeps the law exactly when
nobody's effective permissions change.
-/

namespace VerigenceSecurity
set_option autoImplicit false

open Transaction Relational Program

namespace Database

variable {db : Database} {t u : Uuid} {now : Instant} {key roleKey : String}

/-! ## Stored permissions -/

theorem permissionEntry_mem_iff {r : Permission} :
    (Index.primary, [key]) ∈ Row.entries r ↔ r.permissionKey = key := by
  simp [Row.entries, eq_comm]

theorem permissionRow?_eq_some_iff {row : Permission} :
    db.permissionRow? key = some row ↔ row ∈ db.permissions.rows ∧ row.permissionKey = key := by
  constructor
  · intro h
    have hkey := List.find?_some h
    exact ⟨List.mem_of_find?_eq_some h, of_decide_eq_true hkey⟩
  · rintro ⟨hrow, hkey⟩
    refine Table.find?_of_mem hrow (decide_eq_true hkey) (.primary, [key]) ?_
    intro r hr
    exact permissionEntry_mem_iff.mpr (of_decide_eq_true hr)

theorem permissionActive_iff :
    db.PermissionActive key ↔ ∃ row ∈ db.permissionRow? key, row.status = .active := by
  constructor
  · rintro ⟨row, hrow, hkey, hactive⟩
    exact ⟨row, permissionRow?_eq_some_iff.mpr ⟨hrow, hkey⟩, hactive⟩
  · rintro ⟨row, hrow, hactive⟩
    obtain ⟨hmem, hkey⟩ := permissionRow?_eq_some_iff.mp hrow
    exact ⟨row, hmem, hkey, hactive⟩

theorem permissionKey_registered (row r : Permission) :
    (row.registered r).permissionKey = r.permissionKey := by
  unfold Permission.registered
  split <;> rfl

theorem permissionRow?_upsert (db : Database) (row : Permission) (key : String) :
    (Write.apply db (.upsertPermission row)).permissionRow? key =
      if key = row.permissionKey then some ((db.permissionRow? key).elim row row.registered)
      else db.permissionRow? key := by
  unfold permissionRow? Write.apply
  rw [Table.find?_upsert (k := (.primary, [key]))]
  · simp only [Prod.mk.injEq, List.cons.injEq, and_true, true_and]
  · intro r
    rw [permissionEntry_mem_iff, decide_eq_true_eq]
  · intro r
    rw [permissionKey_registered]
  · simp [eq_comm]
  · intro r hr
    rw [permissionEntry_mem_iff] at hr ⊢
    simp [hr]
  · intro hnone
    rw [Table.isSome_insert?]
    intro r hr k hk hrow
    rw [List.mem_singleton.mp hrow] at hk
    exact hnone r hr hk

/-! ## Platform grants -/

def PlatformGrant (db : Database) (roleKey key : String) : Prop :=
  ⟨roleKey, key⟩ ∈ db.platformRolePermissions.rows

def PlatformHolds (db : Database) (u : Uuid) (roleKey : String) : Prop :=
  ∃ pura ∈ db.platformUserRoleAssignments.rows, pura.userId = u ∧ pura.status = .active ∧
    pura.roleKey = roleKey ∧ ∃ pr ∈ db.platformRoles.rows, pr.roleKey = roleKey ∧ pr.status = .active

theorem platformPermission_iff : db.PlatformPermission u key ↔
    ∃ roleKey, db.PlatformHolds u roleKey ∧ db.PlatformGrant roleKey key := by
  constructor
  · rintro ⟨pura, hpura, hu, hs, hrole, ⟨_, _⟩, hprp, rfl, rfl⟩
    exact ⟨pura.roleKey, ⟨pura, hpura, hu, hs, rfl, hrole⟩, hprp⟩
  · rintro ⟨_, ⟨pura, hpura, hu, hs, rfl, hrole⟩, hgrant⟩
    exact ⟨pura, hpura, hu, hs, hrole, _, hgrant, rfl, rfl⟩

theorem mem_effective_iff : key ∈ (db.accessGraph t now).effective u ↔
    db.PermissionActive key ∧
      ((∃ r, (db.accessGraph t now).Holds u r ∧ db.RoleHasPermission t r key) ∨
        ∃ roleKey, db.PlatformHolds u roleKey ∧ db.PlatformGrant roleKey key) := by
  rw [← platformPermission_iff]
  constructor
  · rintro (⟨r, hholds, hrole, hactive⟩ | ⟨hplatform, hactive⟩)
    · exact ⟨hactive, Or.inl ⟨r, hholds, hrole⟩⟩
    · exact ⟨hactive, Or.inr hplatform⟩
  · rintro ⟨hactive, ⟨r, hholds, hrole⟩ | hplatform⟩
    · exact Or.inl ⟨r, hholds, hrole, hactive⟩
    · exact Or.inr ⟨hplatform, hactive⟩

theorem platformGrant_grant {granted : String}
    (h : (db.platformRolePermissions.insert? ⟨superAdminRoleKey, granted⟩).isSome = true) :
    (Write.apply db (.grantSuperAdminPermission granted)).PlatformGrant roleKey key ↔
      db.PlatformGrant roleKey key ∨ (roleKey = superAdminRoleKey ∧ key = granted) := by
  obtain ⟨inserted, hinsert⟩ := Option.isSome_iff_exists.mp h
  simp only [PlatformGrant, Write.apply, Table.rows_insert_of_some hinsert, List.mem_append,
    List.mem_singleton, PlatformRolePermission.mk.injEq]

theorem platformGrant_revoke {revoked : String} :
    (Write.apply db (.revokeSuperAdminPermission revoked)).PlatformGrant roleKey key ↔
      db.PlatformGrant roleKey key ∧ ¬ (roleKey = superAdminRoleKey ∧ key = revoked) := by
  simp only [PlatformGrant, Write.apply, Table.mem_delete, decide_eq_false_iff_not]

end Database

/-! ## One permission -/

/-- The put writes the permission's row: it is new, or stored as the same action. -/
def Database.Registers (db : Database) (moduleKey : String) (p : PermissionInput) : Prop :=
  ∀ stored ∈ db.permissionRow? p.key, stored.moduleKey = moduleKey ∧
    stored.resourceKey = resourceKey p.key ∧ stored.actionKey = actionKey p.key

structure Registration (db : Database) (key : String) (status : LifecycleStatus)
    (db' : Database) : Prop where
  rbac : db'.toRbacTables = db.toRbacTables
  platformRoles : db'.platformRoles = db.platformRoles
  platformUserRoleAssignments : db'.platformUserRoleAssignments = db.platformUserRoleAssignments
  versions : db'.userTenantAuthorizationState = db.userTenantAuthorizationState
  rows : ∀ k, k ≠ key → db'.permissionRow? k = db.permissionRow? k
  grants : ∀ roleKey k, ¬ (roleKey = superAdminRoleKey ∧ k = key) →
    (db'.PlatformGrant roleKey k ↔ db.PlatformGrant roleKey k)
  active : db'.PermissionActive key ↔ status = .active
  granted : status = .active → db'.PlatformGrant superAdminRoleKey key

theorem registered_status {row stored : Permission} (h : row.sameAction stored) :
    (row.registered stored).status = row.status := by
  have hsame : stored.moduleKey = row.moduleKey ∧ stored.resourceKey = row.resourceKey ∧
      stored.actionKey = row.actionKey := h
  unfold Permission.registered
  rw [if_pos hsame]

theorem upsertRow_edits {ρ : Type} [Row ρ] {table : Rows ρ} {entry : IndexEntry} {row : ρ}
    {references : List Reference} {write : Write} {o : Outcome Write RowLock Unit}
    (h : upsertRow table entry row references write = .ok o) : o.edits = [write] := by
  unfold upsertRow at h
  split at h
  · cases h
    rfl
  · exact (insertRow_ok h).2.2

/-- The trigger leaves the super admin with the grant exactly when the permission is `ACTIVE`. -/
theorem syncSuperAdminPermission_ok {db : Database} {row : Permission}
    {o : Outcome Write RowLock Unit} (h : syncSuperAdminPermission db row = .ok o) (d : Database)
    (hd : d.platformRolePermissions = db.platformRolePermissions) :
    (replayAll o.edits d).toRbacTables = d.toRbacTables ∧
    (replayAll o.edits d).platformRoles = d.platformRoles ∧
    (replayAll o.edits d).platformUserRoleAssignments = d.platformUserRoleAssignments ∧
    (replayAll o.edits d).userTenantAuthorizationState = d.userTenantAuthorizationState ∧
    (replayAll o.edits d).permissions = d.permissions ∧
    (∀ roleKey k, ¬ (roleKey = superAdminRoleKey ∧ k = row.permissionKey) →
      ((replayAll o.edits d).PlatformGrant roleKey k ↔ d.PlatformGrant roleKey k)) ∧
    (row.status = .active →
      (replayAll o.edits d).PlatformGrant superAdminRoleKey row.permissionKey) := by
  unfold syncSuperAdminPermission at h
  cases hstatus : row.status with
  | active =>
    simp only [hstatus] at h
    split at h
    · rename_i hgranted
      cases h
      refine ⟨rfl, rfl, rfl, rfl, rfl, fun _ _ _ => Iff.rfl, fun _ => ?_⟩
      show _ ∈ d.platformRolePermissions.rows
      rw [hd]
      exact hgranted
    · obtain ⟨hfree, _, hedits⟩ := insertRow_ok h
      rw [← hd] at hfree
      rw [hedits]
      refine ⟨rfl, rfl, rfl, rfl, rfl, ?_, fun _ => ?_⟩
      · intro roleKey k hne
        rw [replayAll_cons, replayAll_nil, replay_eq, Database.platformGrant_grant hfree]
        exact or_iff_left hne
      · rw [replayAll_cons, replayAll_nil, replay_eq, Database.platformGrant_grant hfree]
        exact Or.inr ⟨rfl, rfl⟩
  | deprecated | retired =>
    simp only [hstatus] at h
    cases h
    refine ⟨rfl, rfl, rfl, rfl, rfl, ?_, fun hs => nomatch hs⟩
    intro roleKey k hne
    rw [replayAll_cons, replayAll_nil, replay_eq, Database.platformGrant_revoke]
    exact and_iff_left hne

/-- A registration skips the row of another action, or it writes the row and syncs the grant. -/
theorem registerPermission_cases {db : Database} {row : Permission} {o : Outcome Write RowLock Unit}
    (h : registerPermission db row = .ok o) :
    (∃ stored ∈ db.permissionRow? row.permissionKey, ¬ row.sameAction stored) ∧ o.edits = [] ∨
    (∀ stored ∈ db.permissionRow? row.permissionKey, row.sameAction stored) ∧
      ∃ synced, syncSuperAdminPermission db row = .ok synced ∧
        o.edits = .upsertPermission row :: synced.edits := by
  unfold registerPermission at h
  split at h
  · rename_i hsame
    refine Or.inr ⟨hsame, ?_⟩
    cases hupsert : upsertRow db.permissions (.primary, [row.permissionKey]) row []
        (.upsertPermission row) with
    | error e =>
      rw [hupsert] at h
      cases h
    | ok written =>
      cases hsync : syncSuperAdminPermission db row with
      | error e =>
        rw [hupsert, hsync] at h
        cases h
      | ok synced =>
        rw [hupsert, hsync] at h
        cases h
        refine ⟨synced, rfl, ?_⟩
        rw [upsertRow_edits hupsert, List.singleton_append]
  · rename_i hdiffers
    cases h
    simp only [not_forall] at hdiffers
    obtain ⟨stored, hstored, hne⟩ := hdiffers
    exact Or.inl ⟨⟨stored, hstored, hne⟩, rfl⟩

theorem registerPermission_ok {db : Database} {row : Permission} {o : Outcome Write RowLock Unit}
    (h : registerPermission db row = .ok o) :
    (∃ stored ∈ db.permissionRow? row.permissionKey, ¬ row.sameAction stored) ∧ o.edits = [] ∨
    (∀ stored ∈ db.permissionRow? row.permissionKey, row.sameAction stored) ∧
      Registration db row.permissionKey row.status (replayAll o.edits db) := by
  rcases registerPermission_cases h with hskip | ⟨hsame, synced, hsync, hedits⟩
  · exact Or.inl hskip
  · refine Or.inr ⟨hsame, ?_⟩
    have hrow : ∀ k, (Write.apply db (.upsertPermission row)).permissionRow? k = _ :=
      Database.permissionRow?_upsert db row
    obtain ⟨hrbac, hroles, hassigned, hversions, hpermissions, hgrants, hgranted⟩ :=
      syncSuperAdminPermission_ok hsync (Write.apply db (.upsertPermission row)) rfl
    have hrows : ∀ k, (replayAll synced.edits
        (Write.apply db (.upsertPermission row))).permissionRow? k =
          (Write.apply db (.upsertPermission row)).permissionRow? k := by
      intro k
      unfold Database.permissionRow?
      rw [hpermissions]
    rw [hedits, replayAll_cons, replay_eq]
    refine ⟨hrbac, hroles, hassigned, hversions, ?_, hgrants, ?_, hgranted⟩
    · intro k hne
      rw [hrows, hrow, if_neg hne]
    · rw [Database.permissionActive_iff]
      simp only [hrows, hrow, if_true, Option.mem_some_iff, exists_eq_left']
      cases hstored : db.permissionRow? row.permissionKey with
      | none => rfl
      | some stored => rw [Option.elim_some, registered_status (hsame stored hstored)]

/-- One round of the loop that succeeds. -/
theorem putPermission_run {moduleKey catalogVersion : String} {databaseNow : Instant}
    {p : PermissionInput} {s t : Session Database}
    (h : (putPermission moduleKey catalogVersion databaseNow p).exec s = (.ok (), t)) :
    (∀ stored ∈ s.view.permissionRow? p.key, stored.moduleKey = moduleKey) ∧
      ∃ status o, LifecycleStatus.ofText? p.status = some status ∧
        registerPermission s.view (permissionRow moduleKey catalogVersion p status) = .ok o ∧
        t = ⟨s.committed, replayAll o.edits s.view⟩ := by
  obtain ⟨existing, m, hexisting, hrest⟩ := exec_bind_ok h
  obtain ⟨hread, rfl⟩ := exec_query_ok hexisting
  split at hrest
  · cases hrest
  · rename_i howned
    obtain ⟨affected, m', haffected, hwrite⟩ := exec_bind_ok hrest
    have hm' : m' = m := by
      unfold affectedRoles at haffected
      split at haffected
      · exact (exec_query_ok haffected).2
      · cases haffected
        rfl
    rw [hm'] at hwrite
    split at hwrite
    · cases hwrite
    · obtain ⟨o, ho, _, rfl⟩ := exec_execute_ok hwrite
      constructor
      · intro stored hstored
        rw [← Except.ok.inj hread, hstored] at howned
        simpa using howned
      · split at ho
        · cases ho
        · rename_i status hstatus
          exact ⟨status, o, hstatus, (fits_ok ho).2, rfl⟩

theorem putPermission_ok {moduleKey catalogVersion : String} {databaseNow : Instant}
    {p : PermissionInput} {s t : Session Database}
    (h : (putPermission moduleKey catalogVersion databaseNow p).exec s = (.ok (), t)) :
    t.committed = s.committed ∧ (¬ s.view.Registers moduleKey p ∧ t.view = s.view ∨
      s.view.Registers moduleKey p ∧ ∃ status, LifecycleStatus.ofText? p.status = some status ∧
        Registration s.view p.key status t.view) := by
  obtain ⟨_, status, o, hstatus, ho, rfl⟩ := putPermission_run h
  refine ⟨rfl, ?_⟩
  rcases registerPermission_ok ho with ⟨⟨stored, hstored, hne⟩, hedits⟩ | ⟨hsame, hregistered⟩
  · refine Or.inl ⟨fun hregisters => hne (hregisters stored hstored), ?_⟩
    rw [hedits]
    rfl
  · exact Or.inr ⟨hsame, status, hstatus, hregistered⟩

/-! ## All permissions of a put -/

def Write.BesidePermissions : Write → Prop
  | upsertModule _ | upsertTemplate _ | deleteTemplatePermissions _ | insertTemplatePermission _
  | insertAdminChange _ => True
  | _ => False

structure Catalogued (db : Database) (moduleKey : String) (seen : List PermissionInput)
    (view : Database) : Prop where
  rbac : view.toRbacTables = db.toRbacTables
  platformRoles : view.platformRoles = db.platformRoles
  platformUserRoleAssignments : view.platformUserRoleAssignments = db.platformUserRoleAssignments
  versions : view.userTenantAuthorizationState = db.userTenantAuthorizationState
  roleGrants : ∀ roleKey key, roleKey ≠ superAdminRoleKey →
    (view.PlatformGrant roleKey key ↔ db.PlatformGrant roleKey key)
  others : ∀ key, (∀ p ∈ seen, p.key = key → ¬ db.Registers moduleKey p) →
    view.permissionRow? key = db.permissionRow? key ∧
      (view.PlatformGrant superAdminRoleKey key ↔ db.PlatformGrant superAdminRoleKey key)
  registered : ∀ p ∈ seen, db.Registers moduleKey p →
    (view.PermissionActive p.key ↔ p.status = "ACTIVE") ∧
      (p.status = "ACTIVE" → view.PlatformGrant superAdminRoleKey p.key)

theorem ofText?_active_iff {text : String} {status : LifecycleStatus}
    (h : LifecycleStatus.ofText? text = some status) : status = .active ↔ text = "ACTIVE" := by
  unfold LifecycleStatus.ofText? at h
  split at h
  · cases h
    exact ⟨fun _ => rfl, fun _ => rfl⟩
  · cases h
    exact ⟨fun hs => (nomatch hs), fun ht => absurd ht (by decide)⟩
  · cases h
    exact ⟨fun hs => (nomatch hs), fun ht => absurd ht (by decide)⟩
  · cases h

theorem Database.registers_congr {db view : Database} {moduleKey : String} {p : PermissionInput}
    (h : view.permissionRow? p.key = db.permissionRow? p.key) :
    view.Registers moduleKey p ↔ db.Registers moduleKey p := by
  unfold Registers
  rw [h]

theorem Database.permissionActive_congr {db view : Database} {key : String}
    (h : view.permissionRow? key = db.permissionRow? key) :
    view.PermissionActive key ↔ db.PermissionActive key := by
  rw [permissionActive_iff, permissionActive_iff, h]

namespace Catalogued

variable {db view view' : Database} {moduleKey : String} {seen : List PermissionInput}

theorem start (db : Database) (moduleKey : String) : Catalogued db moduleKey [] db where
  rbac := rfl
  platformRoles := rfl
  platformUserRoleAssignments := rfl
  versions := rfl
  roleGrants _ _ _ := Iff.rfl
  others _ _ := ⟨rfl, Iff.rfl⟩
  registered _ hp := nomatch hp

theorem apply (h : Catalogued db moduleKey seen view) {w : Write} (hw : w.BesidePermissions) :
    Catalogued db moduleKey seen (w.apply view) := by
  cases w with
  | upsertModule | upsertTemplate | deleteTemplatePermissions | insertTemplatePermission
  | insertAdminChange => exact { h with }
  | _ => exact hw.elim

theorem fresh_row (h : Catalogued db moduleKey seen view) {p : PermissionInput}
    (hfresh : ∀ q ∈ seen, q.key ≠ p.key) : view.permissionRow? p.key = db.permissionRow? p.key :=
  (h.others p.key fun q hq heq => absurd heq (hfresh q hq)).1

theorem skip (h : Catalogued db moduleKey seen view) {p : PermissionInput}
    (hp : ¬ db.Registers moduleKey p) : Catalogued db moduleKey (seen ++ [p]) view := by
  refine { h with others := ?_, registered := ?_ }
  · intro key hkey
    exact h.others key fun q hq => hkey q (List.mem_append_left _ hq)
  · intro q hq hregisters
    rcases List.mem_append.mp hq with hq | hq
    · exact h.registered q hq hregisters
    · rw [List.mem_singleton.mp hq] at hregisters
      exact absurd hregisters hp

theorem register (h : Catalogued db moduleKey seen view) {p : PermissionInput}
    {status : LifecycleStatus} (hfresh : ∀ q ∈ seen, q.key ≠ p.key)
    (hp : db.Registers moduleKey p) (hstatus : LifecycleStatus.ofText? p.status = some status)
    (hr : Registration view p.key status view') : Catalogued db moduleKey (seen ++ [p]) view' where
  rbac := hr.rbac.trans h.rbac
  platformRoles := hr.platformRoles.trans h.platformRoles
  platformUserRoleAssignments := hr.platformUserRoleAssignments.trans h.platformUserRoleAssignments
  versions := hr.versions.trans h.versions
  roleGrants roleKey key hne := by
    have hother : ¬ (roleKey = superAdminRoleKey ∧ key = p.key) := fun hc => hne hc.1
    exact (hr.grants roleKey key hother).trans (h.roleGrants roleKey key hne)
  others key hkey := by
    have hne : key ≠ p.key := by
      rintro rfl
      exact hkey p (List.mem_append_right _ List.mem_cons_self) rfl hp
    have hother : ¬ (superAdminRoleKey = superAdminRoleKey ∧ key = p.key) := fun hc => hne hc.2
    obtain ⟨hrow, hgrant⟩ := h.others key fun q hq => hkey q (List.mem_append_left _ hq)
    exact ⟨(hr.rows key hne).trans hrow, (hr.grants _ key hother).trans hgrant⟩
  registered q hq hregisters := by
    rcases List.mem_append.mp hq with hq | hq
    · have hne : q.key ≠ p.key := hfresh q hq
      have hother : ¬ (superAdminRoleKey = superAdminRoleKey ∧ q.key = p.key) := fun hc => hne hc.2
      obtain ⟨hactive, hgranted⟩ := h.registered q hq hregisters
      refine ⟨(Database.permissionActive_congr (hr.rows q.key hne)).trans hactive, ?_⟩
      exact fun hs => (hr.grants _ q.key hother).mpr (hgranted hs)
    · rw [List.mem_singleton.mp hq]
      exact ⟨hr.active.trans (ofText?_active_iff hstatus),
        fun hs => hr.granted ((ofText?_active_iff hstatus).mpr hs)⟩

end Catalogued

/-! ## A successful put -/

theorem within_validateTemplatePermission (moduleKey : String) (catalog : CatalogInput)
    (template : RoleTemplateInput) (key : String) :
    (validateTemplatePermission moduleKey catalog template key).Within fun _ => False := by
  unfold validateTemplatePermission
  dsimp only
  split
  · exact within_raise _
  · split
    · split
      · exact within_raise _
      · exact within_pure _
    · refine within_bind within_query fun existing => ?_
      split
      · exact within_raise _
      · split
        · exact within_raise _
        · split
          · exact within_raise _
          · exact within_pure _

theorem within_validateTemplate (moduleKey : String) (catalog : CatalogInput)
    (template : RoleTemplateInput) :
    (validateTemplate moduleKey catalog template).Within fun _ => False := by
  unfold validateTemplate
  split
  · exact within_raise _
  · split
    · exact within_raise _
    · split
      · exact within_raise _
      · exact within_each fun key _ => within_validateTemplatePermission moduleKey catalog template key

theorem within_validateCatalog (lower : String → String) (moduleKey : String)
    (catalog : CatalogInput) :
    (validateCatalog lower moduleKey catalog).Within fun _ => False := by
  unfold validateCatalog
  split
  · exact within_raise _
  · split
    · exact within_raise _
    · split
      · exact within_raise _
      · split
        · exact within_raise _
        · refine within_bind (within_each fun p _ => within_done _) fun _ => ?_
          split
          · exact within_raise _
          · exact within_each fun template _ => within_validateTemplate moduleKey catalog template

theorem validateCatalog_ok {lower : String → String} {moduleKey : String} {catalog : CatalogInput}
    {s t : Session Database}
    (h : (validateCatalog lower moduleKey catalog).exec s = (.ok (), t)) :
    t = s ∧ (catalog.permissions.map (·.key)).Nodup := by
  have hkeep := (within_validateCatalog lower moduleKey catalog).exec (R := fun db => db = s.view)
    (fun _ _ hf => hf.elim) (s := s) rfl
  rw [h] at hkeep
  obtain ⟨hview, hcommitted⟩ := hkeep
  have hsame : t = s := by
    cases t
    cases s
    exact congrArg₂ Session.mk hcommitted hview
  refine ⟨hsame, ?_⟩
  unfold validateCatalog at h
  split at h
  · cases h
  · split at h
    · cases h
    · split at h
      · cases h
      · split at h
        · cases h
        · rename_i hnodup
          exact not_not.mp hnodup

theorem within_putTemplate (freshId : Uuid) (moduleKey catalogVersion : String)
    (t : RoleTemplateInput) :
    (putTemplate freshId moduleKey catalogVersion t).Within Write.BesidePermissions := by
  have hupsert : (upsertTemplate freshId moduleKey catalogVersion t).Within
      Write.BesidePermissions := by
    refine within_bind (within_execute ?_) fun existing => ?_
    · intro db o ho
      cases ho
      exact fun e he => nomatch he
    · refine within_bind (within_execute ?_) fun _ => within_pure _
      intro db o ho e he
      dsimp only at ho
      split at ho
      · cases ho
      · rw [upsertRow_edits ho, List.mem_singleton] at he
        rw [he]
        trivial
  refine within_bind hupsert fun templateId => within_bind (within_execute ?_) fun _ => ?_
  · intro db o ho e he
    cases ho
    rw [List.mem_singleton.mp he]
    trivial
  · refine within_each fun key _ => within_execute ?_
    intro db o ho e he
    rw [(insertRow_ok ho).2.2, List.mem_singleton] at he
    rw [he]
    trivial

theorem within_upsertModule (c : AdminCall) (moduleKey : String) (catalog : CatalogInput) :
    (upsertModule c moduleKey catalog).Within Write.BesidePermissions := by
  refine within_execute ?_
  intro db o ho e he
  obtain ⟨_, ho⟩ := fits_ok ho
  split at ho
  · cases ho
  · simp only [Except.map] at ho
    split at ho
    · cases ho
    · rename_i written hwritten
      cases ho
      rw [upsertRow_edits hwritten, List.mem_singleton] at he
      rw [he]
      trivial

theorem within_platformAudit (c : AdminCall) (operationKey resourceType resourceId : String) :
    (platformAudit c operationKey resourceType resourceId).Within Write.BesidePermissions := by
  refine within_execute ?_
  intro db o ho e he
  rw [(insertRow_ok ho).2.2, List.mem_singleton] at he
  rw [he]
  trivial

theorem Catalogued.exec {α : Type} {p : Tx α} {db : Database} {moduleKey : String}
    {seen : List PermissionInput} {s t : Session Database} {r : Except Failure α}
    (hp : p.Within Write.BesidePermissions) (hrun : p.exec s = (r, t))
    (h : Catalogued db moduleKey seen s.view) : Catalogued db moduleKey seen t.view := by
  have hkeep := hp.exec (R := Catalogued db moduleKey seen) (fun _ _ hw hd => hd.apply hw) h
  rw [hrun] at hkeep
  exact hkeep.1

/-- The loop over the permissions goes through keys that are all different. -/
theorem Catalogued.permissions {db : Database} {moduleKey catalogVersion : String}
    {databaseNow : Instant} {permissions : List PermissionInput} {s t : Session Database}
    (hnodup : (permissions.map (·.key)).Nodup) (h : Catalogued db moduleKey [] s.view)
    (hrun : (each (putPermission moduleKey catalogVersion databaseNow) permissions).exec s =
      (.ok (), t)) : Catalogued db moduleKey permissions t.view := by
  refine exec_each_ok (fun seen s => Catalogued db moduleKey seen s.view) ?_ hrun h
  intro seen p rest hsplit s t hseen hp
  have hfresh : ∀ q ∈ seen, q.key ≠ p.key := by
    intro q hq
    rw [← hsplit, List.map_append, List.map_cons, List.nodup_append] at hnodup
    exact hnodup.2.2 q.key (List.mem_map_of_mem hq) p.key List.mem_cons_self
  have hregisters := @Database.registers_congr _ _ moduleKey _ (hseen.fresh_row hfresh)
  obtain ⟨_, ⟨hnot, hview⟩ | ⟨hyes, status, hstatus, hregistered⟩⟩ := putPermission_ok hp
  · rw [hview]
    exact hseen.skip fun hc => hnot (hregisters.mpr hc)
  · exact hseen.register hfresh (hregisters.mp hyes) hstatus hregistered

theorem catalogResponse_ok {moduleKey : String} {row : Option Module} {response : CatalogResponse}
    {s t : Session Database} (h : (catalogResponse moduleKey row).exec s = (.ok response, t)) :
    t = s := by
  obtain ⟨permissions, r₁, hpermissions, hrest⟩ := exec_bind_ok h
  obtain ⟨templates, r₂, htemplates, hpure⟩ := exec_bind_ok hrest
  cases hpure
  exact (exec_query_ok htemplates).2.trans (exec_query_ok hpermissions).2

/-- The parts of a put that succeeds, one after another. -/
theorem putCatalog_run {lower : String → String} {c : AdminCall} {databaseNow : Instant}
    {freshId : Nat → Uuid} {pathModuleKey : String} {catalog : CatalogInput} {db : Database}
    {response : CatalogResponse} (h : ((putCatalog lower c databaseNow freshId pathModuleKey
      catalog).alone db).1 = .ok response) :
    ∃ s₁ s₂ s₃ s₄, (validateCatalog lower (lower (strip pathModuleKey)) catalog).exec ⟨db, db⟩ =
        (.ok (), ⟨db, db⟩) ∧
      (upsertModule c (lower (strip pathModuleKey)) catalog).exec ⟨db, db⟩ = (.ok (), s₁) ∧
      (each (putPermission (lower (strip pathModuleKey)) (strip catalog.catalogVersion) databaseNow)
        catalog.permissions).exec s₁ = (.ok (), s₂) ∧
      (each (fun t => putTemplate (freshId t.2) (lower (strip pathModuleKey))
        (strip catalog.catalogVersion) t.1) catalog.roleTemplates.zipIdx).exec s₂ = (.ok (), s₃) ∧
      (platformAudit c "security.module.catalog.put" "MODULE_CATALOG"
        (lower (strip pathModuleKey))).exec s₃ = (.ok (), s₄) ∧
      ((putCatalog lower c databaseNow freshId pathModuleKey catalog).alone db).2 = s₄.view := by
  have hrun : (putCatalog lower c databaseNow freshId pathModuleKey catalog).exec ⟨db, db⟩ =
      (.ok response, ((putCatalog lower c databaseNow freshId pathModuleKey catalog).exec
        ⟨db, db⟩).2) := Prod.ext h rfl
  simp only [alone]
  generalize ((putCatalog lower c databaseNow freshId pathModuleKey catalog).exec ⟨db, db⟩).2 = t
    at hrun
  obtain ⟨_, s₀, hvalid, hbody⟩ := exec_bind_ok hrun
  obtain ⟨rfl, _⟩ := validateCatalog_ok hvalid
  rw [exec_attempt] at hbody
  split at hbody
  · rename_i response' t' hinner
    cases hbody
    obtain ⟨_, s₁, hmodule, hinner₁⟩ := exec_bind_ok hinner
    obtain ⟨_, s₂, hpermissions, hinner₂⟩ := exec_bind_ok hinner₁
    obtain ⟨_, s₃, htemplates, hinner₃⟩ := exec_bind_ok hinner₂
    obtain ⟨row, r₁, hrow, hinner₄⟩ := exec_bind_ok hinner₃
    obtain ⟨response, r₂, hresponse, hinner₅⟩ := exec_bind_ok hinner₄
    have hrows : r₁ = s₃ := (exec_query_ok hrow).2
    have hread : r₂ = r₁ := catalogResponse_ok hresponse
    rw [hread, hrows] at hinner₅
    obtain ⟨_, s₄, haudit, hinner₆⟩ := exec_bind_ok hinner₅
    cases hinner₆
    exact ⟨s₁, s₂, s₃, s₄, hvalid, hmodule, hpermissions, htemplates, haudit, rfl⟩
  · cases hbody

/-- A put that succeeds has changed the permissions it submits and nothing else behind them. -/
theorem putCatalog_ok {lower : String → String} {c : AdminCall} {databaseNow : Instant}
    {freshId : Nat → Uuid} {pathModuleKey : String} {catalog : CatalogInput} {db : Database}
    {response : CatalogResponse} (h : ((putCatalog lower c databaseNow freshId pathModuleKey
      catalog).alone db).1 = .ok response) :
    (catalog.permissions.map (·.key)).Nodup ∧
      Catalogued db (lower (strip pathModuleKey)) catalog.permissions
        ((putCatalog lower c databaseNow freshId pathModuleKey catalog).alone db).2 := by
  obtain ⟨s₁, s₂, s₃, s₄, hvalid, hmodule, hpermissions, htemplates, haudit, hafter⟩ := putCatalog_run h
  obtain ⟨_, hnodup⟩ := validateCatalog_ok hvalid
  refine ⟨hnodup, ?_⟩
  rw [hafter]
  have hstart := Catalogued.start db (lower (strip pathModuleKey))
  have hupserted := hstart.exec (within_upsertModule c _ catalog) hmodule
  have hput := Catalogued.permissions hnodup hupserted hpermissions
  have hreplaced := hput.exec (within_each fun t _ => within_putTemplate (freshId t.2) _ _ t.1)
    htemplates
  exact hreplaced.exec (within_platformAudit c _ _ _) haudit

/-! ## The law -/

/-- The users who have the permission as soon as it is `ACTIVE` and the super admin's. -/
def Database.Carries (db : Database) (t : Uuid) (now : Instant) (u : Uuid) (key : String) : Prop :=
  (∃ r, (db.accessGraph t now).Holds u r ∧ db.RoleHasPermission t r key) ∨
    ∃ roleKey, db.PlatformHolds u roleKey ∧
      (db.PlatformGrant roleKey key ∨ roleKey = superAdminRoleKey)

theorem Database.Carries.effective {db : Database} {t u : Uuid} {now : Instant} {key : String}
    (h : db.Carries t now u key) (hactive : db.PermissionActive key)
    (hgrant : db.PlatformGrant superAdminRoleKey key) :
    key ∈ (db.accessGraph t now).effective u := by
  refine Database.mem_effective_iff.mpr ⟨hactive, ?_⟩
  rcases h with hrole | ⟨roleKey, hholds, hroleGrant | rfl⟩
  · exact Or.inl hrole
  · exact Or.inr ⟨roleKey, hholds, hroleGrant⟩
  · exact Or.inr ⟨superAdminRoleKey, hholds, hgrant⟩

namespace Catalogued

variable {db view : Database} {moduleKey : String} {seen : List PermissionInput}
  {t u : Uuid} {now : Instant} {key : String}

theorem holds_iff (h : Catalogued db moduleKey seen view) (r : Uuid) :
    (view.accessGraph t now).Holds u r ↔ (db.accessGraph t now).Holds u r := by
  unfold AccessGraph.Holds AccessGraph.Reaches Database.accessGraph Database.DirectRole
    Database.GroupMember Database.GroupActive Database.GroupRole Database.RoleActive
  rw [h.rbac]

theorem roleHasPermission_iff (h : Catalogued db moduleKey seen view) (r : Uuid) :
    view.RoleHasPermission t r key ↔ db.RoleHasPermission t r key := by
  unfold Database.RoleHasPermission
  rw [h.rbac]

theorem platformHolds_iff (h : Catalogued db moduleKey seen view) (roleKey : String) :
    view.PlatformHolds u roleKey ↔ db.PlatformHolds u roleKey := by
  unfold Database.PlatformHolds
  rw [h.platformRoles, h.platformUserRoleAssignments]

/-- A permission that the put does not write stays with the users who have it. -/
theorem mem_effective_other (h : Catalogued db moduleKey seen view)
    (hkey : ∀ p ∈ seen, p.key = key → ¬ db.Registers moduleKey p) :
    key ∈ (view.accessGraph t now).effective u ↔ key ∈ (db.accessGraph t now).effective u := by
  obtain ⟨hrow, hsuper⟩ := h.others key hkey
  have hgrant : ∀ roleKey, view.PlatformGrant roleKey key ↔ db.PlatformGrant roleKey key := by
    intro roleKey
    by_cases hs : roleKey = superAdminRoleKey
    · rw [hs]
      exact hsuper
    · exact h.roleGrants roleKey key hs
  simp only [Database.mem_effective_iff, Database.permissionActive_congr hrow, h.holds_iff,
    h.roleHasPermission_iff, h.platformHolds_iff, hgrant]

/-- A permission that the put writes is with those who carry it, if it is now `ACTIVE`. -/
theorem mem_effective_registered (h : Catalogued db moduleKey seen view) {p : PermissionInput}
    (hp : p ∈ seen) (hregisters : db.Registers moduleKey p) :
    p.key ∈ (view.accessGraph t now).effective u ↔
      p.status = "ACTIVE" ∧ db.Carries t now u p.key := by
  obtain ⟨hactive, hgranted⟩ := h.registered p hp hregisters
  rw [Database.mem_effective_iff, hactive]
  refine and_congr_right fun hs => ?_
  have hgrant : ∀ roleKey, view.PlatformGrant roleKey p.key ↔
      db.PlatformGrant roleKey p.key ∨ roleKey = superAdminRoleKey := by
    intro roleKey
    by_cases hsuper : roleKey = superAdminRoleKey
    · simp only [hsuper, hgranted hs, or_true]
    · simp only [h.roleGrants roleKey p.key hsuper, hsuper, or_false]
  simp only [Database.Carries, h.holds_iff, h.roleHasPermission_iff, h.platformHolds_iff, hgrant]

theorem authorizationVersion_eq (h : Catalogued db moduleKey seen view) (t u : Uuid) :
    view.authorizationVersion t u = db.authorizationVersion t u := by
  unfold Database.authorizationVersion
  rw [h.versions]

end Catalogued

/-- No `ACTIVE` user gains or loses a permission that the put writes: those who carry a
permission submitted as `ACTIVE` have it already, and nobody has one submitted otherwise. -/
def ChangesNobody (db : Database) (now : Instant) (moduleKey : String) (catalog : CatalogInput) :
    Prop :=
  ∀ p ∈ catalog.permissions, db.Registers moduleKey p → ∀ t u, db.activeUser u = true →
    (p.status = "ACTIVE" → db.Carries t now u p.key → p.key ∈ effectivePermissions db t u now) ∧
      (p.status ≠ "ACTIVE" → p.key ∉ effectivePermissions db t u now)

/-- A put keeps the authorization-version law exactly when it changes nobody's permissions. -/
theorem putCatalog_keeps_version_law_iff {lower : String → String} {c : AdminCall}
    {databaseNow : Instant} {freshId : Nat → Uuid} {pathModuleKey : String} {catalog : CatalogInput}
    {db : Database} {response : CatalogResponse} (now : Instant)
    (h : ((putCatalog lower c databaseNow freshId pathModuleKey catalog).alone db).1 =
      .ok response) :
    VersionLaw now db ((putCatalog lower c databaseNow freshId pathModuleKey catalog).alone db).2 ↔
      ChangesNobody db now (lower (strip pathModuleKey)) catalog := by
  obtain ⟨_, hput⟩ := putCatalog_ok h
  generalize ((putCatalog lower c databaseNow freshId pathModuleKey catalog).alone db).2 = after
    at hput
  constructor
  · intro hlaw p hp hregisters t u hactive
    have hsame : effectivePermissions db t u now = effectivePermissions after t u now := by
      by_contra hne
      have hlt := hlaw t u hactive hne
      rw [hput.authorizationVersion_eq] at hlt
      omega
    rw [hsame, mem_effectivePermissions, hput.mem_effective_registered hp hregisters]
    exact ⟨fun hs hcarries => ⟨hs, hcarries⟩, fun hs hmem => hs hmem.1⟩
  · intro hnobody t u hactive hne
    refine absurd (effectivePermissions_congr ?_) hne
    ext key
    by_cases hkey : ∀ p ∈ catalog.permissions, p.key = key →
        ¬ db.Registers (lower (strip pathModuleKey)) p
    · exact (hput.mem_effective_other hkey).symm
    · simp only [not_forall, not_not] at hkey
      obtain ⟨p, hp, rfl, hregisters⟩ := hkey
      obtain ⟨hgain, hlose⟩ := hnobody p hp hregisters t u hactive
      rw [mem_effectivePermissions] at hgain hlose
      rw [hput.mem_effective_registered hp hregisters]
      constructor
      · intro hmem
        have hs : p.status = "ACTIVE" := not_not.mp fun hs => hlose hs hmem
        obtain ⟨_, hrole | ⟨roleKey, hholds, hgrant⟩⟩ := Database.mem_effective_iff.mp hmem
        · exact ⟨hs, Or.inl hrole⟩
        · exact ⟨hs, Or.inr ⟨roleKey, hholds, Or.inl hgrant⟩⟩
      · rintro ⟨hs, hcarries⟩
        exact hgain hs hcarries

def clerkDatabase : Database :=
  replayAll [.insertRole ⟨"role", "tenant", "clerk", "Clerk", none, .active, 0, 0⟩,
      .insertRolePermission ⟨"tenant", "role", "sales.order.read"⟩,
      .insertUserRoleAssignment ⟨"assignment", "tenant", "user", "role", .active, none, none, "user"⟩,
      .grantSuperAdminPermission "sales.order.read"]
    { (default : Database) with
      users := Table.empty.insert ⟨"user", "User", none, none, none, none, .active, 0, 0⟩
      securityPrincipals := Table.empty.insert ⟨"user", .user, "user", .active⟩
      platformRoles := Table.empty.insert ⟨superAdminRoleKey, .active⟩
      permissions := Table.empty.insert
        ⟨"sales.order.read", "sales", "order", "read", none, none, .active, none⟩ }

def salesCatalog (status : String) (templatePermissions : List String) : CatalogInput where
  moduleKey := "sales"
  moduleName := "Sales"
  catalogVersion := "2"
  permissions := [⟨"sales.order.read", "Read orders", none, status⟩]
  roleTemplates := [⟨"sales.clerk", "Clerk", templatePermissions, none, "ACTIVE"⟩]

def asciiLower (text : String) : String := String.ofList (text.toList.map Char.toLower)

def salesPut (status : String) (templatePermissions : List String) : Tx CatalogResponse :=
  putCatalog asciiLower ⟨"user", "put", 0, "", "audit"⟩ 0 (fun _ => "template") " Sales "
    (salesCatalog status templatePermissions)

/-- An `ACTIVE` permission that is submitted as `ACTIVE` again changes nobody. -/
theorem resubmission_keeps_version_law :
    ((salesPut "ACTIVE" ["sales.order.read"]).alone clerkDatabase).2.moduleTemplates "sales" =
        [(⟨"template", "sales", "sales.clerk", "Clerk", none, "2", .active⟩, ["sales.order.read"])] ∧
      VersionLaw 0 clerkDatabase ((salesPut "ACTIVE" ["sales.order.read"]).alone clerkDatabase).2 := by
  refine ⟨by decide +kernel, ?_⟩
  have hput : ((salesPut "ACTIVE" ["sales.order.read"]).alone clerkDatabase).1 = .ok
      ⟨"sales", some "Sales", some "2", some .active,
        [⟨"sales.order.read", some "Read orders", none, .active, some "2"⟩],
        [⟨"sales.clerk", "Clerk", none, .active, "2", ["sales.order.read"]⟩]⟩ := by
    decide +kernel
  refine (putCatalog_keeps_version_law_iff 0 hput).mpr ?_
  intro p hp _ t u _
  rw [List.mem_singleton.mp hp]
  refine ⟨fun _ hcarries => ?_, fun hne => absurd rfl hne⟩
  have hactive : clerkDatabase.PermissionActive "sales.order.read" := by
    unfold Database.PermissionActive
    decide +kernel
  have hgrant : clerkDatabase.PlatformGrant superAdminRoleKey "sales.order.read" := by
    unfold Database.PlatformGrant
    decide +kernel
  exact mem_effectivePermissions.mpr (hcarries.effective hactive hgrant)

/-- The put deprecates a permission that an `ACTIVE` user has, and the user's version stays. -/
theorem deprecation_keeps_old_versions : ¬ ∀ (lower : String → String) (c : AdminCall)
    (databaseNow now : Instant) (freshId : Nat → Uuid) (pathModuleKey : String)
    (catalog : CatalogInput) (db : Database) (response : CatalogResponse),
    ((putCatalog lower c databaseNow freshId pathModuleKey catalog).alone db).1 = .ok response →
    VersionLaw now db
      ((putCatalog lower c databaseNow freshId pathModuleKey catalog).alone db).2 := by
  intro hlaw
  have hput : ((salesPut "DEPRECATED" []).alone clerkDatabase).1 = .ok
      ⟨"sales", some "Sales", some "2", some .active,
        [⟨"sales.order.read", some "Read orders", none, .deprecated, some "2"⟩],
        [⟨"sales.clerk", "Clerk", none, .active, "2", []⟩]⟩ := by
    decide +kernel
  have hversion := hlaw _ _ 0 0 _ _ _ clerkDatabase _ hput "tenant" "user" (by decide +kernel)
    (by decide +kernel)
  revert hversion
  decide +kernel

end VerigenceSecurity
