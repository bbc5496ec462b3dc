import VerigenceSecurity.StandardRoles
import VerigenceSecurity.SuperAdminAuthority
import VerigenceSecurity.TenantIsolation

/-! # The reserved roles of a tenant

A new tenant has its eight reserved roles as the standard describes them, and so has
every tenant that the seeder accepts. Only operations that name the id of a reserved role
can make it differ: creating a role refuses its key, but the other operations do not.
-/

namespace VerigenceSecurity
set_option autoImplicit false

open Transaction Relational Program

/-! ## Standard roles -/

/-- The tenant's role with that id is the reserved role of the standard. -/
structure Database.StandardRoleAt (db : Database) (t r : Uuid) (d : StandardTenantAdminRole) :
    Prop where
  role : ∃ role ∈ db.roles.rows, role.tenantId = t ∧ role.roleId = r ∧ role.roleKey = d.roleKey ∧
    role.roleName = d.roleName ∧ role.description = some d.description ∧ role.status = .active
  permissions : ∀ key, (⟨t, r, key⟩ : RolePermission) ∈ db.rolePermissions.rows ↔
    key ∈ d.permissionKeys

/-- The tenant exists and has every reserved role, with its standard metadata and bundle. -/
structure Database.StandardTenant (db : Database) (t : Uuid) : Prop where
  tenant : (db.tenantRow? t).isSome = true
  roles : ∀ d ∈ standardTenantAdminRoles, ∃ r, db.StandardRoleAt t r d

/-! ## Writes that respect a standard role -/

def Write.Respects (t r : Uuid) (d : StandardTenantAdminRole) : Write → Prop
  | updateRole t' r' roleName description status _ => t' = t ∧ r' = r →
    roleName = d.roleName ∧ description = some d.description ∧ status = .active
  | insertRolePermission row => row.tenantId = t ∧ row.roleId = r → row.permissionKey ∈ d.permissionKeys
  | deleteRolePermission t' r' key => t' = t ∧ r' = r → key ∉ d.permissionKeys
  | _ => True

variable {db db' : Database} {t r : Uuid} {d : StandardTenantAdminRole}

theorem rolePermission_mem_insert {table : Rows RolePermission} {row p : RolePermission} :
    p ∈ (table.insert row).rows ↔ p ∈ table.rows ∨ p = row := by
  apply Table.mem_insert_iff
  intro a _ k hk hk'
  simp only [Row.entries, List.mem_singleton] at hk hk'
  rw [hk] at hk'
  simp only [Prod.mk.injEq, true_and, List.cons.injEq, and_true] at hk'
  cases a
  cases row
  simp only [RolePermission.mk.injEq]
  exact hk'

theorem Write.Respects.apply {w : Write} (hw : w.Respects t r d) (h : db.StandardRoleAt t r d) :
    (w.apply db).StandardRoleAt t r d := by
  obtain ⟨⟨role, hrole, ht, hr, hkey, hname, hdescription, hstatus⟩, hpermissions⟩ := h
  cases w with
  | insertRole row =>
    exact ⟨⟨role, Table.mem_insert_of_mem hrole, ht, hr, hkey, hname, hdescription, hstatus⟩,
      hpermissions⟩
  | updateRole t' r' roleName description status now =>
    refine ⟨?_, hpermissions⟩
    simp only [Write.apply, RbacTables.updateRole, Table.rows_update]
    refine ⟨_, List.mem_map_of_mem hrole, ?_⟩
    split
    · rename_i hsame
      rw [decide_eq_true_eq] at hsame
      exact ⟨ht, hr, hkey, hw ⟨hsame.1.symm.trans ht, hsame.2.symm.trans hr⟩⟩
    · exact ⟨ht, hr, hkey, hname, hdescription, hstatus⟩
  | insertRolePermission row =>
    refine ⟨⟨role, hrole, ht, hr, hkey, hname, hdescription, hstatus⟩, fun key => ?_⟩
    simp only [Write.apply, RbacTables.insertRolePermission]
    split
    · rw [rolePermission_mem_insert, hpermissions key]
      refine or_iff_left_of_imp ?_
      rintro rfl
      exact hw ⟨rfl, rfl⟩
    · exact hpermissions key
  | deleteRolePermission t' r' key' =>
    refine ⟨⟨role, hrole, ht, hr, hkey, hname, hdescription, hstatus⟩, fun key => ?_⟩
    simp only [Write.apply, RbacTables.deleteRolePermission, Table.mem_delete, decide_eq_false_iff_not]
    rw [hpermissions key]
    refine and_iff_left_of_imp fun hstandard hdeleted => ?_
    obtain ⟨rfl, rfl, rfl⟩ := hdeleted
    exact hw ⟨rfl, rfl⟩ hstandard
  | _ => exact ⟨⟨role, hrole, ht, hr, hkey, hname, hdescription, hstatus⟩, hpermissions⟩

theorem Database.StandardRoleAt.replayAll {ws : List Write} (h : db.StandardRoleAt t r d)
    (hws : ∀ w ∈ ws, w.Respects t r d) : (replayAll ws db).StandardRoleAt t r d :=
  replayAll_keeps (Q := Write.Respects t r d) (R := fun db : Database => db.StandardRoleAt t r d)
    (fun _ _ hw hdb => hw.apply hdb) hws h

theorem Database.StandardRoleAt.of_sameGraph (h : db.StandardRoleAt t r d) (hsame : SameGraph db db') :
    db'.StandardRoleAt t r d := by
  refine ⟨?_, ?_⟩
  · have hrole := h.role
    rwa [hsame.rbac] at hrole
  · have hpermissions := h.permissions
    rwa [hsame.rbac] at hpermissions

theorem tenantRow?_apply (w : Write) (h : (db.tenantRow? t).isSome = true) :
    ((w.apply db).tenantRow? t).isSome = true := by
  cases w with
  | insertTenant row =>
    unfold Database.tenantRow? at *
    rw [List.find?_isSome] at *
    obtain ⟨found, hfound, hid⟩ := h
    exact ⟨found, Table.mem_insert_of_mem hfound, hid⟩
  | _ => exact h

theorem tenantRow?_replayAll (ws : List Write) (h : (db.tenantRow? t).isSome = true) :
    ((replayAll ws db).tenantRow? t).isSome = true :=
  replayAll_keeps (Q := fun _ => True) (R := fun db : Database => (db.tenantRow? t).isSome = true)
    (fun w _ _ hdb => tenantRow?_apply w hdb) (fun _ _ => trivial) h

/-! ## The roles that a tenant starts with -/

def roleWrites (row : Role) (keys : List String) : List Write :=
  .insertRole row :: keys.map fun key => .insertRolePermission ⟨row.tenantId, row.roleId, key⟩

theorem roleWrites_respects {row : Role} {keys : List String}
    (hfree : (db.roles.insert? row).isSome = true) (h : db.StandardRoleAt t r d) :
    ∀ w ∈ roleWrites row keys, w.Respects t r d := by
  intro w hw
  obtain ⟨role, hrole, _, hr, _⟩ := h.role
  rcases List.mem_cons.mp hw with rfl | hw
  · trivial
  · obtain ⟨key, _, rfl⟩ := List.mem_map.mp hw
    rintro ⟨_, hnew⟩
    exact absurd (hr.trans hnew.symm) (TenantOperation.fresh_of_insert? hfree role hrole)

theorem rolePermission_mem_replayAll {t r : Uuid} {keys : List String} {p : RolePermission}
    (hrole : ∃ role ∈ db.roles.rows, role.tenantId = t ∧ role.roleId = r) :
    p ∈ (replayAll (keys.map fun key => .insertRolePermission ⟨t, r, key⟩) db).rolePermissions.rows ↔
      p ∈ db.rolePermissions.rows ∨ ∃ key ∈ keys, p = ⟨t, r, key⟩ := by
  induction keys generalizing db with
  | nil => simp [replayAll]
  | cons key keys ih =>
    have hkept : ∃ role ∈ (Write.apply db (.insertRolePermission ⟨t, r, key⟩)).roles.rows,
        role.tenantId = t ∧ role.roleId = r := hrole
    rw [List.map_cons, replayAll_cons, replay_eq, ih hkept]
    simp only [Write.apply, RbacTables.insertRolePermission, if_pos hrole,
      rolePermission_mem_insert, List.mem_cons, exists_eq_or_imp, or_assoc]

theorem roles_replayAll {t r : Uuid} {keys : List String} :
    (replayAll (keys.map fun key => .insertRolePermission ⟨t, r, key⟩) db).roles = db.roles := by
  induction keys generalizing db with
  | nil => rfl
  | cons key keys ih => exact ih

/-- The foreign key leaves no permissions behind for a new role. -/
theorem standardRoleAt_roleWrites (d : StandardTenantAdminRole) (now : Instant) (r t : Uuid)
    (hfree : (db.roles.insert? (d.row now r t)).isSome = true) :
    (replayAll (roleWrites (d.row now r t) (sortedSet d.permissionKeys)) db).StandardRoleAt t r d := by
  obtain ⟨inserted, hinsert⟩ := Option.isSome_iff_exists.mp hfree
  have hmem : d.row now r t ∈ (Write.apply db (.insertRole (d.row now r t))).roles.rows := by
    simp only [Write.apply, RbacTables.insertRole, Table.rows_insert_of_some hinsert]
    exact List.mem_append_right _ List.mem_cons_self
  rw [roleWrites, replayAll_cons, replay_eq]
  refine ⟨?_, fun key => ?_⟩
  · rw [roles_replayAll]
    exact ⟨_, hmem, rfl, rfl, rfl, rfl, rfl, rfl⟩
  · rw [rolePermission_mem_replayAll ⟨_, hmem, rfl, rfl⟩]
    have hnone : (⟨t, r, key⟩ : RolePermission) ∉ db.rolePermissions.rows := by
      intro hp
      obtain ⟨role, hrole, _, hid⟩ := db.permission_role _ hp
      exact TenantOperation.fresh_of_insert? hfree role hrole hid
    simp only [Write.apply, RbacTables.insertRole, hnone, false_or, RolePermission.mk.injEq]
    constructor
    · rintro ⟨_, hkey, _, _, rfl⟩
      exact mem_sortedSet.mp hkey
    · exact fun hkey => ⟨key, mem_sortedSet.mpr hkey, rfl, rfl, rfl⟩

theorem insertStandardRole_run {now : Instant} {s u : Session Database}
    (h : (insertStandardRole now r t d).exec s = (.ok (), u)) :
    (s.view.roles.insert? (d.row now r t)).isSome = true ∧
      u.view = replayAll (roleWrites (d.row now r t) (sortedSet d.permissionKeys)) s.view := by
  obtain ⟨_, m, hrole, hkeys⟩ := exec_bind_ok h
  obtain ⟨o, ho, _, rfl⟩ := exec_execute_ok hrole
  obtain ⟨hfree, _, hedits⟩ := insertRow_ok ho
  refine ⟨hfree, ?_⟩
  have hview := exec_each_ok (fun seen v => v.view = replayAll (seen.map fun key =>
    Write.insertRolePermission ⟨t, r, key⟩) (replayAll o.edits s.view)) ?_ hkeys rfl
  · rw [hview, hedits]
    rfl
  · rintro seen key rest - v v' hv hbody
    obtain ⟨o', ho', _, rfl⟩ := exec_execute_ok hbody
    dsimp only
    rw [(insertRow_ok ho').2.2, hv, List.map_append, replayAll_append]
    rfl

def Database.HasRoles (db : Database) (t : Uuid) (ds : List StandardTenantAdminRole) : Prop :=
  (db.tenantRow? t).isSome = true ∧ ∀ d ∈ ds, ∃ r, db.StandardRoleAt t r d

theorem Database.HasRoles.insert {ds : List StandardTenantAdminRole} {now : Instant} {r : Uuid}
    {d : StandardTenantAdminRole} {s u : Session Database} (hs : s.view.HasRoles t ds)
    (h : (insertStandardRole now r t d).exec s = (.ok (), u)) : u.view.HasRoles t (ds ++ [d]) := by
  obtain ⟨hfree, hview⟩ := insertStandardRole_run h
  rw [hview]
  refine ⟨tenantRow?_replayAll _ hs.1, fun d' hd' => ?_⟩
  rcases List.mem_append.mp hd' with hd' | hd'
  · obtain ⟨r', hr'⟩ := hs.2 d' hd'
    exact ⟨r', hr'.replayAll (roleWrites_respects hfree hr')⟩
  · rw [List.mem_singleton.mp hd']
    exact ⟨r, standardRoleAt_roleWrites d now r t hfree⟩

theorem roleByKey?_some {role : Role} {key : String} (h : db.roleByKey? t key = some role) :
    role ∈ db.roles.rows ∧ role.tenantId = t ∧ role.roleKey = key := by
  have hfound := List.find?_some h
  exact ⟨List.mem_of_find?_eq_some h, of_decide_eq_true hfound⟩

theorem mem_rolePermissionKeys {key : String} :
    key ∈ db.rolePermissionKeys t r ↔ (⟨t, r, key⟩ : RolePermission) ∈ db.rolePermissions.rows := by
  simp only [Database.rolePermissionKeys, List.mem_map, List.mem_filter, decide_eq_true_eq]
  constructor
  · rintro ⟨p, ⟨hp, rfl, rfl⟩, rfl⟩
    exact hp
  · exact fun hp => ⟨_, ⟨hp, rfl, rfl⟩, rfl⟩

theorem standardRoleAt_of_matches {role : Role} (hrole : db.roleByKey? t d.roleKey = some role)
    (hmatches : d.Matches role (db.rolePermissionKeys t role.roleId)) :
    db.StandardRoleAt t role.roleId d := by
  obtain ⟨hmem, ht, hkey⟩ := roleByKey?_some hrole
  obtain ⟨⟨hname, hdescription, hstatus⟩, hsub, hsup⟩ := hmatches
  refine ⟨⟨role, hmem, ht, rfl, hkey, hname, hdescription, hstatus⟩, fun key => ?_⟩
  rw [← mem_rolePermissionKeys]
  exact ⟨fun h => hsub h, fun h => hsup h⟩

theorem Database.HasRoles.seed {ds : List StandardTenantAdminRole} {now : Instant} {r : Uuid}
    {d : StandardTenantAdminRole} {s u : Session Database} (hs : s.view.HasRoles t ds)
    (h : (seedOrValidateRole now r t d).exec s = (.ok (), u)) : u.view.HasRoles t (ds ++ [d]) := by
  obtain ⟨existing, m, hexisting, hrest⟩ := exec_bind_ok h
  obtain ⟨o, ho, hvalue, rfl⟩ := exec_execute_ok hexisting
  cases hfound : s.view.roleByKey? t d.roleKey with
  | none =>
    rw [hfound] at ho
    cases ho
    cases hvalue
    exact hs.insert hrest
  | some role =>
    rw [hfound] at ho
    cases ho
    cases hvalue
    obtain ⟨actual, m', hactual, hcheck⟩ := exec_bind_ok hrest
    obtain ⟨hread, rfl⟩ := exec_query_ok hactual
    cases hread
    split at hcheck
    · rename_i hmatches
      cases hcheck
      refine ⟨hs.1, fun d' hd' => ?_⟩
      rcases List.mem_append.mp hd' with hd' | hd'
      · exact hs.2 d' hd'
      · rw [List.mem_singleton.mp hd']
        exact ⟨role.roleId, standardRoleAt_of_matches hfound hmatches⟩
    · cases hcheck

/-- `create_tenant` or the seeder has just committed the roles of the tenant. -/
inductive Produced (t : Uuid) : Database → Prop
  | created (c : AdminCall) (freshId : Nat → Uuid) (hash : String → String)
      (tenantCode tenantName : String) (selfOnboardingEnabled : Bool)
      (selfOnboardingToken : Option String) (db : Database) (tenant : Tenant) (hid : c.newId = t)
      (hcreated : ((createTenant c freshId hash tenantCode tenantName selfOnboardingEnabled
        selfOnboardingToken).alone db).1 = .ok tenant) :
      Produced t ((createTenant c freshId hash tenantCode tenantName selfOnboardingEnabled
        selfOnboardingToken).alone db).2
  | seeded (now : Instant) (freshId : Nat → Uuid) (db : Database)
      (hseeded : ((seed now freshId t).alone db).1 = .ok true) :
      Produced t ((seed now freshId t).alone db).2

theorem standardTenant_of_hasRoles
    (h : db.HasRoles t ((standardTenantAdminRoles.zipIdx).map Prod.fst)) : db.StandardTenant t := by
  rw [List.zipIdx_map_fst] at h
  exact ⟨h.1, h.2⟩

theorem within_storeSelfOnboardingToken (c : AdminCall) (t : Uuid) (hash : String → String)
    (enabled : Bool) (token : Option String) :
    (storeSelfOnboardingToken c t hash enabled token).Within fun w => w.graphic = false := by
  cases token with
  | none => exact within_pure ()
  | some token =>
    apply within_execute
    intro db o ho w hw
    dsimp only at ho
    split at ho
    · cases ho
    · simp only [Except.map] at ho
      split at ho
      · cases ho
      · rename_i written hwritten
        cases ho
        rw [upsertRow_edits hwritten] at hw
        rw [List.mem_singleton.mp hw]
        rfl

theorem standardTenant_keeps {w : Write} (hw : w.graphic = false) (h : db.StandardTenant t) :
    (w.apply db).StandardTenant t := by
  refine ⟨tenantRow?_apply w h.tenant, fun d hd => ?_⟩
  obtain ⟨r, hr⟩ := h.roles d hd
  exact ⟨r, hr.of_sameGraph (SameGraph.apply_of_not_graphic hw db).symm⟩

theorem createTenant_standard {c : AdminCall} {freshId : Nat → Uuid} {hash : String → String}
    {tenantCode tenantName : String} {enabled : Bool} {token : Option String} {tenant : Tenant}
    (h : ((createTenant c freshId hash tenantCode tenantName enabled token).alone db).1 = .ok tenant) :
    ((createTenant c freshId hash tenantCode tenantName enabled token).alone db).2.StandardTenant
      c.newId := by
  have hrun : (createTenant c freshId hash tenantCode tenantName enabled token).exec ⟨db, db⟩ =
      (.ok tenant, ((createTenant c freshId hash tenantCode tenantName enabled token).exec
        ⟨db, db⟩).2) := Prod.ext h rfl
  simp only [alone]
  generalize ((createTenant c freshId hash tenantCode tenantName enabled token).exec
    ⟨db, db⟩).2 = u at hrun
  obtain ⟨_, m, hcreate, hreload⟩ := exec_bind_ok hrun
  obtain ⟨found, m', hquery, hfound⟩ := exec_bind_ok hreload
  obtain ⟨_, rfl⟩ := exec_query_ok hquery
  have hu : u = m' := by
    cases found with
    | none => cases hfound
    | some row =>
      cases hfound
      rfl
  rw [hu]
  rw [exec_attempt] at hcreate
  split at hcreate
  · rename_i hinner
    cases hcreate
    obtain ⟨_, s₁, htenant, h₁⟩ := exec_bind_ok hinner
    obtain ⟨_, s₂, hroles, h₂⟩ := exec_bind_ok h₁
    obtain ⟨_, s₃, htoken, h₃⟩ := exec_bind_ok h₂
    obtain ⟨_, s₄, haudit, hcommit⟩ := exec_bind_ok h₃
    cases hcommit
    have hstart : s₁.view.HasRoles c.newId [] := by
      obtain ⟨o, ho, _, rfl⟩ := exec_execute_ok htenant
      obtain ⟨hfree, _, hedits⟩ := insertRow_ok ho
      obtain ⟨inserted, hinsert⟩ := Option.isSome_iff_exists.mp hfree
      refine ⟨?_, fun d hd => absurd hd List.not_mem_nil⟩
      rw [hedits]
      unfold Database.tenantRow?
      rw [List.find?_isSome]
      refine ⟨⟨c.newId, tenantCode, tenantName, .configuring, c.now, c.now⟩, ?_, decide_eq_true rfl⟩
      simp only [replayAll_cons, replayAll_nil, replay_eq, Write.apply, Table.rows_insert_of_some hinsert]
      exact List.mem_append_right _ List.mem_cons_self
    have hseeded := exec_each_ok (fun seen v => v.view.HasRoles c.newId (seen.map Prod.fst))
      (fun seen d rest _ v v' hv hbody => by
        rw [List.map_append]
        exact hv.insert hbody) hroles hstart
    have hkeeps : ∀ (w : Write) (db : Database), w.graphic = false → db.StandardTenant c.newId →
        (Replay.replay w db).StandardTenant c.newId := fun _ _ hw hdb => standardTenant_keeps hw hdb
    have hsettings := ((within_storeSelfOnboardingToken c c.newId hash enabled token).exec hkeeps
      (standardTenant_of_hasRoles hseeded)).1
    rw [htoken] at hsettings
    obtain ⟨o, ho, _, rfl⟩ := exec_execute_ok haudit
    dsimp only
    rw [(insertRow_ok ho).2.2]
    exact hkeeps (.insertAdminChange _) _ rfl hsettings
  · cases hcreate

theorem within_assertPermissionCatalogue : assertPermissionCatalogue.Within fun _ => False := by
  refine within_bind within_query fun missing => ?_
  split
  · exact within_pure ()
  · exact within_raise _

theorem seed_standardTenant {now : Instant} {freshId : Nat → Uuid}
    (h : ((seed now freshId t).alone db).1 = .ok true) :
    ((seed now freshId t).alone db).2.StandardTenant t := by
  have hrun : (seed now freshId t).exec ⟨db, db⟩ =
      (.ok true, ((seed now freshId t).exec ⟨db, db⟩).2) := Prod.ext h rfl
  simp only [alone]
  generalize ((seed now freshId t).exec ⟨db, db⟩).2 = u at hrun
  unfold seed at hrun
  rw [exec_attempt] at hrun
  split at hrun
  · rename_i hinner
    cases hrun
    obtain ⟨found, s₁, hfound, h₁⟩ := exec_bind_ok hinner
    obtain ⟨hread, rfl⟩ := exec_query_ok hfound
    cases hread
    split at h₁
    · obtain ⟨_, s₂, _, h₂⟩ := exec_bind_ok h₁
      cases h₂
    · rename_i htenant
      have htenant' : (db.tenantRow? t).isSome = true := by simpa [Option.isSome_iff_ne_none] using htenant
      obtain ⟨_, s₂, hcatalogue, h₂⟩ := exec_bind_ok h₁
      obtain ⟨_, s₃, hroles, h₃⟩ := exec_bind_ok h₂
      obtain ⟨_, s₄, hcommit, h₄⟩ := exec_bind_ok h₃
      cases hcommit
      cases h₄
      have hsame : s₂ = ⟨db, db⟩ := within_false_exec within_assertPermissionCatalogue hcatalogue
      rw [hsame] at hroles
      have hseeded := exec_each_ok (fun seen v => v.view.HasRoles t (seen.map Prod.fst))
        (fun seen d rest _ v v' hv hbody => by
          rw [List.map_append]
          exact hv.seed hbody) hroles ⟨htenant', fun d hd => absurd hd List.not_mem_nil⟩
      exact standardTenant_of_hasRoles hseeded
  · cases hrun

theorem Produced.standardTenant (h : Produced t db) : db.StandardTenant t := by
  cases h with
  | created c freshId hash code name enabled token db tenant hid hcreated =>
    rw [← hid]
    exact createTenant_standard hcreated
  | seeded now freshId db hseeded => exact seed_standardTenant hseeded

/-! ## A later seed -/

/-- What the seeder answers when it finds no drift: it may still miss permissions. -/
def Database.seedAnswer (db : Database) : Except Failure Bool :=
  if db.missingPermissions = [] then .ok true
  else .error (catalogueIncomplete db.missingPermissions)

theorem roleByKey?_of_mem {role : Role} (hrole : role ∈ db.roles.rows) :
    db.roleByKey? role.tenantId role.roleKey = some role := by
  refine Table.find?_of_mem hrole (decide_eq_true ⟨rfl, rfl⟩)
    (k := (.natural, [role.tenantId, role.roleKey])) ?_
  intro r hr
  simp only [decide_eq_true_eq] at hr
  simp [Row.entries, hr]

theorem Database.StandardRoleAt.matches (h : db.StandardRoleAt t r d) :
    ∃ role, db.roleByKey? t d.roleKey = some role ∧ role.roleId = r ∧
      d.Matches role (db.rolePermissionKeys t r) := by
  obtain ⟨role, hrole, rfl, hid, hkey, hname, hdescription, hstatus⟩ := h.role
  refine ⟨role, hkey ▸ roleByKey?_of_mem hrole, hid, ⟨hname, hdescription, hstatus⟩, ?_, ?_⟩
  · exact fun key hk => (h.permissions key).mp (mem_rolePermissionKeys.mp hk)
  · exact fun key hk => mem_rolePermissionKeys.mpr ((h.permissions key).mpr hk)

theorem exec_seedOrValidateRole (now : Instant) (freshId : Uuid) (h : db.StandardRoleAt t r d) :
    (seedOrValidateRole now freshId t d).exec ⟨db, db⟩ = (.ok (), ⟨db, db⟩) := by
  obtain ⟨role, hrole, rfl, hmatches⟩ := h.matches
  unfold seedOrValidateRole
  rw [exec_bind, exec_execute]
  simp only [hrole, replayAll_nil]
  rw [exec_bind, exec_query]
  simp only [if_pos hmatches, exec_pure]

theorem seed_standard (h : db.StandardTenant t) (now : Instant) (freshId : Nat → Uuid) :
    (seed now freshId t).alone db = (db.seedAnswer, db) := by
  have hroles : (each (fun d => seedOrValidateRole now (freshId d.2) t d.1)
      standardTenantAdminRoles.zipIdx).exec ⟨db, db⟩ = (.ok (), ⟨db, db⟩) := by
    apply exec_each_same
    intro d hd
    obtain ⟨r, hr⟩ := h.roles d.1 (List.fst_mem_of_mem_zipIdx hd)
    exact exec_seedOrValidateRole now _ hr
  have hfound : (tenantExists t).exec ⟨db, db⟩ = (.ok true, ⟨db, db⟩) := by
    rw [tenantExists, exec_query, h.tenant]
  unfold seed alone Database.seedAnswer
  rw [exec_attempt, exec_bind, hfound]
  simp only [Bool.not_true, Bool.false_eq_true, if_false]
  rw [exec_bind, assertPermissionCatalogue, exec_bind, exec_query]
  by_cases hmissing : db.missingPermissions = []
  · simp only [if_pos hmissing, exec_pure]
    rw [exec_bind, hroles]
    rfl
  · simp only [if_neg hmissing, exec_raise]
    rfl

/-! ## Operations on roles -/

def Database.ReservedRole (db : Database) (t r : Uuid) (d : StandardTenantAdminRole) : Prop :=
  ∃ role ∈ db.roles.rows, role.tenantId = t ∧ role.roleId = r ∧ role.roleKey = d.roleKey

theorem Database.StandardRoleAt.reserved (h : db.StandardRoleAt t r d) : db.ReservedRole t r d := by
  obtain ⟨role, hrole, ht, hr, hkey, _⟩ := h.role
  exact ⟨role, hrole, ht, hr, hkey⟩

/-- Where the operation names a reserved role, it gives it only what the standard says. -/
def TenantOperation.KeepsStandard (db : Database) : TenantOperation → Prop
  | updateRole _ t r roleName description status =>
    ∀ d ∈ standardTenantAdminRoles, db.ReservedRole t r d → (∀ name ∈ roleName, name = d.roleName) ∧
      (∀ text ∈ description, text = d.description) ∧ ∀ s ∈ status, s = .active
  | addRolePermission _ t r key =>
    ∀ d ∈ standardTenantAdminRoles, db.ReservedRole t r d →
      db.permissionStatus key = some .active → key ∈ d.permissionKeys
  | removeRolePermission _ t r key =>
    ∀ d ∈ standardTenantAdminRoles, db.ReservedRole t r d → key ∉ d.permissionKeys
  | upgradeTemplate _ t r templateKey =>
    ∀ d ∈ standardTenantAdminRoles, db.ReservedRole t r d →
      ∀ template, db.template templateKey = .ok template →
        (∀ key ∈ template.permissionKeys, db.permissionStatus key = some .active) →
          ∀ key ∈ template.permissionKeys, key ∈ d.permissionKeys
  | _ => True

namespace TenantOperation

theorem respects_of_effect (op : TenantOperation) {g : TxProgress} (heffect : op.Effect g)
    (hhistory : ∀ e ∈ g.history, e.committed = db) (hd : d ∈ standardTenantAdminRoles)
    (hkeeps : op.KeepsStandard db) (h : db.StandardRoleAt t r d)
    (hactive : ∀ c t key, op = .addRolePermission c t r key → db.permissionStatus key = some .active)
    (htemplate : ∀ c t key, op ≠ .upgradeTemplate c t r key) :
    ∀ w ∈ governing g, w.Respects t r d := by
  intro w hw
  cases op with
  | assignUserRole | requestOrAssignUserRole =>
    rcases heffect with ⟨_, hg⟩ | ⟨hg, _⟩
    · rw [hg] at hw
      rw [List.mem_singleton.mp hw]
      trivial
    · rw [hg] at hw
      rw [List.mem_singleton.mp hw]
      trivial
  | approve =>
    obtain ⟨_, _, _, _, _, _, _, hg | ⟨_, _, hg⟩⟩ := heffect
    · rw [hg] at hw
      rw [List.mem_singleton.mp hw]
      trivial
    · rw [hg] at hw
      rcases List.mem_pair.mp hw with rfl | rfl <;> trivial
  | reject =>
    obtain ⟨_, _, _, _, _, _, _, hg | ⟨hne, _⟩⟩ := heffect
    · rw [hg] at hw
      rw [List.mem_singleton.mp hw]
      trivial
    · exact absurd rfl hne
  | removeUserRole | removeGroupMember | removeGroupRole =>
    obtain ⟨⟨_, hg⟩, _⟩ := heffect
    rw [hg] at hw
    rw [List.mem_singleton.mp hw]
    trivial
  | createGroup =>
    have hg : governing g = _ := heffect
    rw [hg] at hw
    rw [List.mem_singleton.mp hw]
    trivial
  | updateGroup =>
    obtain ⟨_, _, hg, _⟩ := heffect
    rw [hg] at hw
    rw [List.mem_singleton.mp hw]
    trivial
  | addGroupMember | assignGroupRole =>
    rw [heffect.1] at hw
    rw [List.mem_singleton.mp hw]
    trivial
  | createRole c t' key name description keys =>
    obtain ⟨_, ⟨e, he, _, hinsert⟩, hg⟩ := heffect
    rw [hhistory e he] at hinsert
    rw [hg] at hw
    exact roleWrites_respects hinsert h w hw
  | createTemplateRole =>
    obtain ⟨_, ⟨e, he, _, hinsert⟩, keys, hg⟩ := heffect
    rw [hhistory e he] at hinsert
    rw [hg] at hw
    exact roleWrites_respects hinsert h w hw
  | updateRole c t' r' roleName description status =>
    obtain ⟨current, ⟨e, he, _, hcurrent⟩, hg, _⟩ := heffect
    rw [hhistory e he] at hcurrent
    rw [hg] at hw
    rw [List.mem_singleton.mp hw]
    rintro ⟨rfl, rfl⟩
    obtain ⟨role, hrole, ht, hid, _, hname, hdescription, hstatus⟩ := h.role
    rw [roleRow?_of_mem hrole ht hid] at hcurrent
    cases hcurrent
    obtain ⟨hname', hdescription', hstatus'⟩ := hkeeps d hd h.reserved
    refine ⟨?_, ?_, ?_⟩
    · cases roleName with
      | none => exact hname
      | some name => exact hname' name rfl
    · cases description with
      | none => exact hdescription
      | some text => exact congrArg some (hdescription' text rfl)
    · cases status with
      | none => exact hstatus
      | some status => exact hstatus' status rfl
  | addRolePermission c t' r' key =>
    rw [heffect.1] at hw
    rw [List.mem_singleton.mp hw]
    rintro ⟨rfl, rfl⟩
    exact hkeeps d hd h.reserved (hactive c _ key rfl)
  | removeRolePermission c t' r' key =>
    rw [heffect.1] at hw
    rw [List.mem_singleton.mp hw]
    rintro ⟨rfl, rfl⟩
    exact hkeeps d hd h.reserved
  | upgradeTemplate c t' r' key =>
    obtain ⟨⟨keys, hg⟩, _⟩ := heffect
    rw [hg] at hw
    obtain ⟨key, _, rfl⟩ := List.mem_map.mp hw
    rintro ⟨_, rfl⟩
    exact absurd rfl (htemplate c t' _)

/-- A grant of a permission that is not `ACTIVE` is refused before it writes. -/
theorem addRolePermission_inactive {c : AdminCall} {t r : Uuid} {key : String}
    (h : db.permissionStatus key ≠ some .active) :
    (TenantOperation.addRolePermission c t r key).result db = db := by
  simp only [result, program, discard, alone, VerigenceSecurity.addRolePermission,
    ensureActivePermission, exec_bind, exec_query, if_neg h]

theorem alone_discard {α : Type} (p : Tx α) (db : Database) :
    ((discard p).alone db).2 = (p.exec ⟨db, db⟩).2.committed := by
  simp only [discard, alone, exec_bind]
  cases p.exec ⟨db, db⟩ with
  | mk result s => cases result <;> rfl

/-- An upgrade writes permissions of its template only, and none unless all are `ACTIVE`. -/
theorem upgradeTemplate_keeps {c : AdminCall} {t' r' : Uuid} {templateKey : String}
    (hd : d ∈ standardTenantAdminRoles)
    (hkeeps : (TenantOperation.upgradeTemplate c t' r' templateKey).KeepsStandard db)
    (h : db.StandardRoleAt t r d) :
    ((TenantOperation.upgradeTemplate c t' r' templateKey).result db).StandardRoleAt t r d := by
  rw [result, program, alone_discard, VerigenceSecurity.upgradeTemplate, exec_bind, exec_query]
  cases htemplate : db.template templateKey with
  | error e => exact h
  | ok template =>
    dsimp only
    rw [exec_bind]
    cases hensure : (each ensureActivePermission (sortedSet template.permissionKeys)).exec ⟨db, db⟩ with
    | mk result s =>
    have hsame : s = ⟨db, db⟩ := within_false_exec (within_each fun _ _ => within_query) hensure
    subst hsame
    cases result with
    | error e => exact h
    | ok u =>
      have hactive : ∀ key ∈ template.permissionKeys, db.permissionStatus key = some .active := by
        intro key hkey
        have hread := exec_each_reads (fun _ => within_query) hensure key (mem_sortedSet.mpr hkey)
        by_contra hinactive
        simp [exec_query, hinactive] at hread
      have hkeys : ∀ key ∈ template.permissionKeys,
          (Write.insertRolePermission ⟨t', r', key⟩).Respects t r d := by
        rintro key hkey ⟨rfl, rfl⟩
        exact hkeeps d hd h.reserved template htemplate hactive key hkey
      refine (Writes.exec (Q := Write.Respects t r d) (R := fun db : Database => db.StandardRoleAt t r d) ?_
        (fun _ _ hw hdb => hw.apply hdb) h h).2
      refine writes_bind writes_query fun users =>
        writes_bind (writes_attempt ?_ writes_rollbackAndRaise) fun _ => writes_query
      refine writes_bind writes_query fun role => ?_
      split
      · exact writes_raise _
      · refine writes_bind (within_each fun key hkey => within_execute ?_).writes fun _ =>
          writes_bind (writes_updateWhere fun _ => trivial) fun _ =>
            writes_bind (writes_bindTemplate (fun _ _ => trivial) fun _ => trivial) fun _ =>
              writes_bind (writes_each fun u => writes_execute ?_) fun _ =>
                writes_bind (writes_insertRow (T := fun db => db.adminChangeRecords) trivial)
                  fun _ => writes_commitNow
        · intro db o ho w hw
          dsimp only at ho
          split at ho
          · cases ho
            exact absurd hw List.not_mem_nil
          · rw [(insertRow_ok ho).2.2, List.mem_singleton] at hw
            rw [hw]
            exact hkeys key (mem_sortedSet.mp hkey)
        · intro db o ho w hw
          cases ho
          rw [List.mem_singleton.mp hw]
          trivial

theorem standardRoleAt_result (op : TenantOperation) (hd : d ∈ standardTenantAdminRoles)
    (hkeeps : op.KeepsStandard db) (h : db.StandardRoleAt t r d) :
    (op.result db).StandardRoleAt t r d := by
  by_cases hrefused : ∃ c t key, op = .addRolePermission c t r key ∧ db.permissionStatus key ≠ some .active
  · obtain ⟨c, t', key, rfl, hinactive⟩ := hrefused
    rwa [addRolePermission_inactive hinactive]
  by_cases hupgrade : ∃ c t key, op = .upgradeTemplate c t r key
  · obtain ⟨c, t', key, rfl⟩ := hupgrade
    exact upgradeTemplate_keeps hd hkeeps h
  rcases op.result_cases db with hsame | ⟨g, heffect, hhistory, hresult⟩
  · rwa [hsame]
  · have hgraph := SameGraph.replayAll_filter (SameGraph.refl db) (p := Write.governs)
      (fun w hw => (Bool.or_eq_false_iff.mp hw).1) g.pending
    rw [hresult]
    refine Database.StandardRoleAt.of_sameGraph (h.replayAll ?_) hgraph.symm
    refine op.respects_of_effect heffect hhistory hd hkeeps h ?_ ?_
    · intro c t' key hop
      by_contra hinactive
      exact hrefused ⟨c, t', key, hop, hinactive⟩
    · exact fun c t' key hop => hupgrade ⟨c, t', key, hop⟩

/-- One operation: the tenant stays, and so does every reserved role. -/
theorem standardTenant_result (op : TenantOperation) (hkeeps : op.KeepsStandard db)
    (h : db.StandardTenant t) : (op.result db).StandardTenant t := by
  refine ⟨?_, fun d hd => ?_⟩
  · rcases op.result_cases db with hsame | ⟨g, _, _, hresult⟩
    · rw [hsame]
      exact h.tenant
    · rw [hresult]
      exact tenantRow?_replayAll g.pending h.tenant
  · obtain ⟨r, hr⟩ := h.roles d hd
    exact ⟨r, op.standardRoleAt_result hd hkeeps hr⟩

/-! ## Runs -/

def states (db : Database) : List TenantOperation → List Database
  | [] => [db]
  | op :: ops => db :: states (op.result db) ops

def Along (ok : Database → TenantOperation → Prop) (db : Database) : List TenantOperation → Prop
  | [] => True
  | op :: ops => ok db op ∧ Along ok (op.result db) ops

theorem standardTenant_states (ops : List TenantOperation) (h : db.StandardTenant t)
    (hkeeps : Along (fun db op => op.KeepsStandard db) db ops) :
    ∀ s ∈ states db ops, s.StandardTenant t := by
  induction ops generalizing db with
  | nil =>
    intro s hs
    rwa [List.mem_singleton.mp hs]
  | cons op ops ih =>
    intro s hs
    rcases List.mem_cons.mp hs with rfl | hs
    · exact h
    · exact ih (op.standardTenant_result hkeeps.1 h) hkeeps.2 s hs

def OfRoles (t : Uuid) : TenantOperation → Prop
  | createRole _ t' .. | createTemplateRole _ _ t' .. | updateRole _ t' .. | addRolePermission _ t' ..
  | removeRolePermission _ t' .. | upgradeTemplate _ t' .. => t' = t
  | _ => False

end TenantOperation

/-- As long as no operation gives a reserved role anything but the standard, the reserved roles
stay standard, and the seeder finds no drift and changes nothing. -/
theorem reserved_roles_standard (t : Uuid) (db : Database) (hproduced : Produced t db)
    (ops : List TenantOperation)
    (hkeeps : TenantOperation.Along (fun db op => op.KeepsStandard db) db ops) :
    ∀ s ∈ TenantOperation.states db ops, s.StandardTenant t ∧
      ∀ now freshId, (seed now freshId t).alone s = (s.seedAnswer, s) := by
  intro s hs
  have hstandard := TenantOperation.standardTenant_states ops hproduced.standardTenant hkeeps s hs
  exact ⟨hstandard, seed_standard hstandard⟩

/-! ## A new tenant -/

def acmeRoleId (n : Nat) : Uuid :=
  ["owner", "admin", "users", "rbac", "access", "policy", "approver", "auditor"].getD n ""

def createAcme : Tx Tenant :=
  createTenant ⟨"user", "create", 0, "t", "created"⟩ acmeRoleId id "ACME" "Acme" false none

def deactivateOwner : TenantOperation :=
  .updateRole ⟨"user", "update", 1, "", "updated"⟩ "t" "owner" none none (some .inactive)

def Database.ownerActive (db : Database) : Bool :=
  db.roles.rows.any fun r => decide (r.roleKey = "tenant.owner" ∧ r.status = .active)

theorem acme_owner_deactivated : (match createAcme.alone seededDatabase with
    | (.ok _, db) => !(deactivateOwner.result db).ownerActive
    | (.error _, _) => false) = true := by
  decide +kernel

theorem acme_produced : ∃ db, Produced "t" db ∧
    (deactivateOwner.result db).ownerActive = false := by
  have hcheck := acme_owner_deactivated
  cases hrun : createAcme.alone seededDatabase with
  | mk result db =>
    rw [hrun] at hcheck
    cases result with
    | error e => cases hcheck
    | ok tenant =>
      have hinactive : (!(deactivateOwner.result db).ownerActive) = true := hcheck
      refine ⟨db, ?_, (Bool.not_eq_true' _).mp hinactive⟩
      have hcreated : (createAcme.alone seededDatabase).1 = .ok tenant := by rw [hrun]
      have hproduced := Produced.created (t := "t") ⟨"user", "create", 0, "t", "created"⟩ acmeRoleId id
        "ACME" "Acme" false none seededDatabase tenant rfl hcreated
      change Produced "t" (createAcme.alone seededDatabase).2 at hproduced
      rwa [hrun] at hproduced

/-- Nothing happens to the reserved roles when a role of the tenant's own is created and a
permission outside the bundles is taken from the owner. -/
theorem acme_clerk_created : ∃ db, Produced "t" db ∧ ∀ s ∈ TenantOperation.states db
    [.createRole ⟨"user", "role", 1, "clerk", "role"⟩ "t" "clerk" "Clerk" none [],
      .removeRolePermission ⟨"user", "remove", 2, "", "remove"⟩ "t" "owner" "security.tenant.create"],
    s.StandardTenant "t" ∧ ∀ now freshId, (seed now freshId "t").alone s = (s.seedAnswer, s) := by
  obtain ⟨db, hproduced, _⟩ := acme_produced
  refine ⟨db, hproduced, reserved_roles_standard "t" db hproduced _ ⟨trivial, ?_, trivial⟩⟩
  intro d hd _
  exact (by decide +kernel : ∀ d ∈ standardTenantAdminRoles,
    "security.tenant.create" ∉ d.permissionKeys) d hd

/-- An update of the owner role deactivates it. -/
theorem owner_role_deactivated : ¬ ∀ (t : Uuid) (db : Database), Produced t db →
    ∀ ops : List TenantOperation, (∀ op ∈ ops, op.OfRoles t) →
      ∀ s ∈ TenantOperation.states db ops, s.StandardTenant t ∧
        ∀ now freshId, (seed now freshId t).alone s = (s.seedAnswer, s) := by
  intro hstandard
  obtain ⟨db, hproduced, hinactive⟩ := acme_produced
  obtain ⟨hafter, _⟩ := hstandard "t" db hproduced [deactivateOwner]
    (fun op hop => by rw [List.mem_singleton.mp hop]; rfl) (deactivateOwner.result db)
    (List.mem_cons_of_mem db List.mem_cons_self)
  obtain ⟨owner, howner, hownerKey⟩ : ∃ d ∈ standardTenantAdminRoles, d.roleKey = "tenant.owner" :=
    ⟨_, List.mem_cons_self, rfl⟩
  obtain ⟨r, hr⟩ := hafter.roles owner howner
  obtain ⟨role, hrole, _, _, hkey, _, _, hstatus⟩ := hr.role
  rw [hownerKey] at hkey
  have hactive : (deactivateOwner.result db).ownerActive = true :=
    List.any_eq_true.mpr ⟨role, hrole, decide_eq_true ⟨hkey, hstatus⟩⟩
  rw [hinactive] at hactive
  cases hactive

end VerigenceSecurity
