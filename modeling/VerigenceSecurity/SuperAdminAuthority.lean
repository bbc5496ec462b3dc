import VerigenceSecurity.CatalogResponses

/-! # The authority of the super admin

Migration 0005 grants the `ACTIVE` permissions to the super admin role, and its trigger
keeps the two sets equal under every upsert of a permission. Both queries of a user's
permissions then find exactly the `ACTIVE` permissions for a super admin.
-/

namespace VerigenceSecurity
set_option autoImplicit false

open Transaction Relational Program

/-- The super admin role is granted exactly the `ACTIVE` permissions. -/
def SuperAdminSynced (db : Database) : Prop :=
  ∀ key, db.PlatformGrant superAdminRoleKey key ↔ db.PermissionActive key

/-! ## Migration 0005 -/

/-- The backfill of the grants, and the removal of the stale ones. -/
def Database.migration0005 (db : Database) : Database :=
  let active := db.permissions.rows.filter fun p => decide (p.status = .active)
  let granted := active.foldl (fun table p => table.insert ⟨superAdminRoleKey, p.permissionKey⟩)
    db.platformRolePermissions
  { db with
    platformRolePermissions := granted.delete fun r => decide (r.roleKey = superAdminRoleKey) &&
      db.permissions.rows.any fun p => decide (p.permissionKey = r.permissionKey ∧ p.status ≠ .active) }

def Database.PlatformGrantsStored (db : Database) : Prop :=
  ∀ r ∈ db.platformRolePermissions.rows, ∃ p ∈ db.permissions.rows, p.permissionKey = r.permissionKey

theorem platformRolePermission_mem_insert {table : Rows PlatformRolePermission}
    {row r : PlatformRolePermission} : r ∈ (table.insert row).rows ↔ r ∈ table.rows ∨ r = row := by
  apply Table.mem_insert_iff
  intro a _ k hk hk'
  simp only [Row.entries, List.mem_singleton] at hk hk'
  rw [hk] at hk'
  simp only [Prod.mk.injEq, true_and, List.cons.injEq, and_true] at hk'
  cases a
  cases row
  simp only [PlatformRolePermission.mk.injEq]
  exact hk'

theorem mem_foldl_grants {rows : List Permission} {table : Rows PlatformRolePermission}
    {r : PlatformRolePermission} :
    r ∈ (rows.foldl (fun table p => table.insert ⟨superAdminRoleKey, p.permissionKey⟩) table).rows ↔
      r ∈ table.rows ∨ ∃ p ∈ rows, r = ⟨superAdminRoleKey, p.permissionKey⟩ := by
  induction rows generalizing table with
  | nil => simp
  | cons p rows ih =>
    rw [List.foldl_cons, ih, platformRolePermission_mem_insert, or_assoc]
    simp

theorem migration0005_synced {db : Database} (h : db.PlatformGrantsStored) :
    SuperAdminSynced db.migration0005 := by
  intro key
  unfold Database.migration0005 Database.PlatformGrant Database.PermissionActive
  simp only [Table.mem_delete, mem_foldl_grants, decide_true, Bool.true_and, List.mem_filter,
    decide_eq_true_eq, PlatformRolePermission.mk.injEq, true_and, List.any_eq_false]
  constructor
  · rintro ⟨hgranted | ⟨p, ⟨hp, hactive⟩, rfl⟩, hstale⟩
    · obtain ⟨p, hp, hkey⟩ := h _ hgranted
      exact ⟨p, hp, hkey, not_not.mp fun hne => hstale p hp ⟨hkey, hne⟩⟩
    · exact ⟨p, hp, rfl, hactive⟩
  · rintro ⟨p, hp, rfl, hactive⟩
    refine ⟨Or.inr ⟨p, ⟨hp, hactive⟩, rfl⟩, fun q hq hstale => ?_⟩
    have hsame : q = p := Table.shared_entry hq hp
      (Database.permissionEntry_mem_iff.mpr hstale.1) (Database.permissionEntry_mem_iff.mpr rfl)
    exact hstale.2 (hsame ▸ hactive)

/-! ## The trigger -/

/-- The trigger sets the super admin's grant of one permission, and no other grant. -/
theorem syncSuperAdminPermission_grants {db : Database} {row : Permission}
    {o : Outcome Write RowLock Unit} (h : syncSuperAdminPermission db row = .ok o) (d : Database)
    (hd : d.platformRolePermissions = db.platformRolePermissions) (key : String) :
    (replayAll o.edits d).PlatformGrant superAdminRoleKey key ↔
      if key = row.permissionKey then row.status = .active
      else d.PlatformGrant superAdminRoleKey key := by
  obtain ⟨_, _, _, _, _, hothers, hgranted⟩ := syncSuperAdminPermission_ok h d hd
  split
  · rename_i hkey
    rw [hkey]
    refine ⟨fun hgrant => ?_, hgranted⟩
    by_contra hinactive
    unfold syncSuperAdminPermission at h
    cases hstatus : row.status with
    | active => exact hinactive hstatus
    | deprecated | retired =>
      simp only [hstatus] at h
      cases h
      rw [replayAll_cons, replayAll_nil, replay_eq, Database.platformGrant_revoke] at hgrant
      exact hgrant.2 ⟨rfl, rfl⟩
  · rename_i hkey
    exact hothers superAdminRoleKey key fun hsame => hkey hsame.2

/-- An upsert that leaves the row with the status of the trigger keeps the grants synced. -/
theorem SuperAdminSynced.upsert {db d : Database} {row : Permission} {o : Outcome Write RowLock Unit}
    (h : SuperAdminSynced db) (stored : Permission)
    (hsync : syncSuperAdminPermission db row = .ok o)
    (hd : d.platformRolePermissions = db.platformRolePermissions)
    (hrow : ∀ key, d.permissionRow? key =
      if key = row.permissionKey then some stored else db.permissionRow? key)
    (hstored : stored.status = row.status) : SuperAdminSynced (replayAll o.edits d) := by
  intro key
  have hrows : (replayAll o.edits d).permissionRow? key = d.permissionRow? key := by
    unfold Database.permissionRow?
    rw [syncSuperAdminPermission_frame hsync]
  have hgrants : d.PlatformGrant superAdminRoleKey key ↔ db.PlatformGrant superAdminRoleKey key := by
    unfold Database.PlatformGrant
    rw [hd]
  rw [syncSuperAdminPermission_grants hsync d hd, Database.permissionActive_iff, hrows, hrow]
  split
  · simp only [Option.mem_some_iff, exists_eq_left', hstored]
  · rw [hgrants, ← Database.permissionActive_iff]
    exact h key

theorem SuperAdminSynced.register {db : Database} {row : Permission} {o : Outcome Write RowLock Unit}
    (h : SuperAdminSynced db) (ho : registerPermission db row = .ok o) :
    SuperAdminSynced (replayAll o.edits db) := by
  rcases registerPermission_cases ho with ⟨_, hedits⟩ | ⟨hsame, synced, hsync, hedits⟩
  · rw [hedits]
    exact h
  · rw [hedits, replayAll_cons, replay_eq]
    refine h.upsert ((db.permissionRow? row.permissionKey).elim row row.registered) hsync rfl
      (fun key => ?_) ?_
    · rw [Database.permissionRow?_upsert]
      split
      · rename_i hkey
        rw [hkey]
      · rfl
    · cases hstored : db.permissionRow? row.permissionKey with
      | none => rfl
      | some stored => exact registered_status (hsame stored hstored)

theorem SuperAdminSynced.overwrite {db : Database} {row : Permission} {o : Outcome Write RowLock Unit}
    (h : SuperAdminSynced db) (ho : overwritePermission db row = .ok o) :
    SuperAdminSynced (replayAll o.edits db) := by
  obtain ⟨synced, hsync, hedits⟩ := overwritePermission_cases ho
  rw [hedits, replayAll_cons, replay_eq]
  refine h.upsert ((db.permissionRow? row.permissionKey).elim row row.configured) hsync rfl
    (fun key => ?_) ?_
  · rw [Database.permissionRow?_configure]
    split
    · rename_i hkey
      rw [hkey]
    · rfl
  · cases db.permissionRow? row.permissionKey with
    | none => rfl
    | some stored => rfl

/-! ## The operations -/

theorem SuperAdminSynced.apply {db : Database} (h : SuperAdminSynced db) {w : Write}
    (hw : w.BesidePermissions) : SuperAdminSynced (w.apply db) := by
  cases w with
  | upsertModule | upsertTemplate | deleteTemplatePermissions | insertTemplatePermission
  | insertAdminChange => exact h
  | _ => exact hw.elim

theorem SuperAdminSynced.exec {α : Type} {p : Tx α} {s t : Session Database} {r : Except Failure α}
    (hp : p.Within Write.BesidePermissions) (hrun : p.exec s = (r, t)) (h : SuperAdminSynced s.view) :
    SuperAdminSynced t.view := by
  have hkeep := hp.exec (R := SuperAdminSynced) (fun _ _ hw hd => hd.apply hw) h
  rw [hrun] at hkeep
  exact hkeep.1

theorem SuperAdminSynced.putCatalog {lower : String → String} {c : AdminCall} {databaseNow : Instant}
    {freshId : Nat → Uuid} {pathModuleKey : String} {catalog : CatalogInput} {db : Database}
    {response : CatalogResponse} (h : SuperAdminSynced db)
    (hok : ((putCatalog lower c databaseNow freshId pathModuleKey catalog).alone db).1 = .ok response) :
    SuperAdminSynced
      ((VerigenceSecurity.putCatalog lower c databaseNow freshId pathModuleKey catalog).alone db).2 := by
  obtain ⟨s₁, s₂, s₃, s₄, _, hmodule, hpermissions, htemplates, haudit, hafter⟩ := putCatalog_run hok
  have hsynced₁ := h.exec (within_upsertModule c _ catalog) hmodule
  have hsynced₂ : SuperAdminSynced s₂.view := by
    refine exec_each_ok (fun _ s => SuperAdminSynced s.view) ?_ hpermissions hsynced₁
    intro _ p _ _ s t hs hp
    obtain ⟨_, status, o, _, ho, rfl⟩ := putPermission_run hp
    exact hs.register ho
  have hsynced₃ := hsynced₂.exec
    (within_each fun t _ => within_putTemplate (freshId t.2) _ _ t.1) htemplates
  rw [hafter]
  exact hsynced₃.exec (within_platformAudit c _ _ _) haudit

theorem CatalogOperation.keeps_synced (lower : String → String) {db : Database}
    (op : CatalogOperation) (h : SuperAdminSynced db) : SuperAdminSynced (op.alone lower db).2 := by
  cases hresult : (op.alone lower db).1 with
  | error e =>
    rw [op.alone_error lower hresult]
    exact h
  | ok _ =>
    cases op with
    | putCatalog c databaseNow freshId pathModuleKey catalog =>
      obtain ⟨response, hok⟩ := CatalogOperation.put_ok hresult
      exact h.putCatalog hok
    | configurePermission configuration =>
      obtain ⟨_, status, o, _, ho, hafter⟩ := configurePermission_run hresult
      simp only [CatalogOperation.alone]
      rw [hafter]
      exact h.overwrite ho

theorem CatalogOperation.states_synced (lower : String → String) {ops : List CatalogOperation}
    {db : Database} (h : SuperAdminSynced db) : ∀ s ∈ states lower db ops, SuperAdminSynced s := by
  induction ops generalizing db with
  | nil =>
    intro s hs
    rw [List.mem_singleton.mp hs]
    exact h
  | cons op ops ih =>
    intro s hs
    rcases List.mem_cons.mp hs with rfl | hs
    · exact h
    · exact ih (op.keeps_synced lower h) s hs

/-! ## The readers -/

def platformRolesPermissions (db : Database) (userId : Uuid) : List String × List String :=
  let rows := db.platformGrants userId
  (sortedSet (rows.map Prod.fst), sortedSet (rows.map Prod.snd))

def Database.activePermissions (db : Database) : List String :=
  sortedSet ((db.permissions.rows.filter fun p => decide (p.status = .active)).map (·.permissionKey))

theorem mem_activePermissions {db : Database} {key : String} :
    key ∈ db.activePermissions ↔ db.PermissionActive key := by
  unfold Database.activePermissions Database.PermissionActive
  simp only [mem_sortedSet, List.mem_map, List.mem_filter, decide_eq_true_eq]
  constructor
  · rintro ⟨p, ⟨hp, hactive⟩, rfl⟩
    exact ⟨p, hp, rfl, hactive⟩
  · rintro ⟨p, hp, rfl, hactive⟩
    exact ⟨p, ⟨hp, hactive⟩, rfl⟩

section Readers

variable {db : Database} {u : Uuid}

/-- The tenant path finds the `ACTIVE` permissions, whatever other roles the user has. -/
theorem SuperAdminSynced.effectivePermissions_eq (h : SuperAdminSynced db)
    (hu : db.PlatformHolds u superAdminRoleKey) (t : Uuid) (now : Instant) :
    sortedSet ((db.effectiveGrants t u now).map Prod.snd) = db.activePermissions := by
  unfold Database.activePermissions
  apply sortedSet_congr
  intro key
  have heffective : key ∈ effectivePermissions db t u now ↔ key ∈ db.activePermissions := by
    rw [mem_effectivePermissions, Database.mem_effective_iff, mem_activePermissions]
    refine and_iff_left_of_imp fun hactive => Or.inr ?_
    exact ⟨superAdminRoleKey, hu, (h key).mpr hactive⟩
  rw [VerigenceSecurity.effectivePermissions_eq, mem_sortedSet] at heffective
  unfold Database.activePermissions at heffective
  rwa [mem_sortedSet] at heffective

theorem SuperAdminSynced.platformPermissions_eq (h : SuperAdminSynced db)
    (hu : db.PlatformHolds u superAdminRoleKey) :
    (platformRolesPermissions db u).2 = db.activePermissions := by
  unfold platformRolesPermissions Database.activePermissions
  apply sortedSet_congr
  intro key
  have hactive : key ∈ db.activePermissions ↔ db.PermissionActive key := mem_activePermissions
  unfold Database.activePermissions at hactive
  rw [mem_sortedSet] at hactive
  rw [hactive, @Database.mem_platformGrants db "" u 0 key]
  refine and_iff_right_of_imp fun hkey => Database.platformPermission_iff.mpr ?_
  exact ⟨superAdminRoleKey, hu, (h key).mpr hkey⟩

theorem SuperAdminSynced.effective_ok (h : SuperAdminSynced db)
    (hu : db.PlatformHolds u superAdminRoleKey) (t : Uuid) (now : Instant)
    (hsome : db.activePermissions ≠ []) :
    ∃ roles, effectiveUserPermissions db t u now = .ok (roles, db.activePermissions) := by
  unfold effectiveUserPermissions rolesAndPermissions
  rw [h.effectivePermissions_eq hu t now, if_neg hsome]
  exact ⟨_, rfl⟩

theorem SuperAdminSynced.effective_error (h : SuperAdminSynced db)
    (hu : db.PlatformHolds u superAdminRoleKey) (t : Uuid) (now : Instant)
    (hnone : db.activePermissions = []) :
    effectiveUserPermissions db t u now = .error (securityError .roleRequired) := by
  unfold effectiveUserPermissions rolesAndPermissions
  rw [h.effectivePermissions_eq hu t now, if_pos hnone]

end Readers

/-- After any run from the state that migration 0005 left, the super admin is granted the
`ACTIVE` permissions, and both readers return them; none being `ACTIVE`, the tenant path
raises `ROLE_REQUIRED`. The other tables may hold anything. -/
theorem super_admin_authority (lower : String → String) (db : Database)
    (hstored : db.PlatformGrantsStored) (ops : List CatalogOperation) :
    ∀ s ∈ CatalogOperation.states lower db.migration0005 ops, SuperAdminSynced s ∧
      ∀ d : Database, d.permissions = s.permissions →
        d.platformRolePermissions = s.platformRolePermissions → ∀ t u now,
        d.PlatformHolds u superAdminRoleKey →
          (platformRolesPermissions d u).2 = d.activePermissions ∧
          (d.activePermissions ≠ [] →
            ∃ roles, effectiveUserPermissions d t u now = .ok (roles, d.activePermissions)) ∧
          (d.activePermissions = [] →
            effectiveUserPermissions d t u now = .error (securityError .roleRequired)) := by
  intro s hs
  have hsynced := CatalogOperation.states_synced lower (migration0005_synced hstored) s hs
  refine ⟨hsynced, fun d hpermissions hgrants t u now hu => ?_⟩
  have hd : SuperAdminSynced d := by
    intro key
    unfold Database.PlatformGrant Database.PermissionActive
    rw [hpermissions, hgrants]
    exact hsynced key
  exact ⟨hd.platformPermissions_eq hu, hd.effective_ok hu t now, hd.effective_error hu t now⟩

/-! ## A catalogue without `ACTIVE` permissions -/

def retirement (p : Permission) : CatalogOperation :=
  .configurePermission
    ⟨p.permissionKey, p.moduleKey, p.resourceKey, p.actionKey, p.description, "RETIRED"⟩

/-- A stored permission can always be retired: the trigger only removes a grant. -/
theorem retirement_ok (lower : String → String) {db : Database} {p : Permission}
    (hcanonical : isCanonicalPermission p.permissionKey = true) {stored : Permission}
    (hstored : db.permissionRow? p.permissionKey = some stored) :
    ((retirement p).alone lower db).1 = .ok () := by
  obtain ⟨hmem, hkey⟩ := Database.permissionRow?_eq_some_iff.mp hstored
  have hany : db.permissions.rows.any (fun r =>
      decide ((Index.primary, [p.permissionKey]) ∈ Row.entries r)) = true :=
    List.any_eq_true.mpr ⟨stored, hmem, decide_eq_true (Database.permissionEntry_mem_iff.mpr hkey)⟩
  have hwrite : ∃ o, overwritePermission db ⟨p.permissionKey, p.moduleKey, p.resourceKey, p.actionKey,
      none, p.description, .retired, none⟩ = .ok o := by
    unfold overwritePermission upsertRow
    rw [if_pos hany]
    exact ⟨_, rfl⟩
  obtain ⟨o, ho⟩ := hwrite
  have hretired : LifecycleStatus.ofText? "RETIRED" = some .retired := rfl
  simp only [retirement, CatalogOperation.alone, Program.alone]
  unfold configurePermission
  rw [if_neg (by simpa using hcanonical), exec_attempt, exec_bind, exec_execute]
  dsimp only [PermissionConfiguration.row]
  rw [hretired]
  dsimp only
  rw [ho]
  rfl

theorem retirement_row (lower : String → String) {db : Database} {p stored : Permission}
    (hcanonical : isCanonicalPermission p.permissionKey = true)
    (hstored : db.permissionRow? p.permissionKey = some stored) (key : String) :
    ∃ row : Permission, row.status = .retired ∧ ((retirement p).alone lower db).2.permissionRow? key =
      if key = p.permissionKey then some row else db.permissionRow? key := by
  obtain ⟨status, hstatus, hrow⟩ := configurePermission_row (retirement_ok lower hcanonical hstored) key
  cases hstatus
  refine ⟨_, ?_, hrow⟩
  cases db.permissionRow? key with
  | none => rfl
  | some stored => rfl

/-- Every list of stored permissions can be retired in one run. -/
theorem retirements_inactive (lower : String → String) (ps : List Permission) (db : Database)
    (hps : ∀ p ∈ ps, isCanonicalPermission p.permissionKey = true ∧
      ∃ stored, db.permissionRow? p.permissionKey = some stored) :
    ∃ s ∈ CatalogOperation.states lower db (ps.map retirement), ∀ key, s.PermissionActive key →
      db.PermissionActive key ∧ ∀ p ∈ ps, p.permissionKey ≠ key := by
  induction ps generalizing db with
  | nil => exact ⟨db, List.mem_singleton_self db, fun _ h => ⟨h, fun _ hp => absurd hp List.not_mem_nil⟩⟩
  | cons p ps ih =>
    obtain ⟨hcanonical, stored, hstored⟩ := hps p List.mem_cons_self
    have hnext : ∀ q ∈ ps, isCanonicalPermission q.permissionKey = true ∧
        ∃ stored, ((retirement p).alone lower db).2.permissionRow? q.permissionKey = some stored := by
      intro q hq
      obtain ⟨hcanonical', stored', hstored'⟩ := hps q (List.mem_cons_of_mem p hq)
      obtain ⟨row, _, hrow⟩ := retirement_row lower hcanonical hstored q.permissionKey
      refine ⟨hcanonical', ?_⟩
      rw [hrow]
      split
      · exact ⟨row, rfl⟩
      · exact ⟨stored', hstored'⟩
    obtain ⟨s, hs, hinactive⟩ := ih _ hnext
    refine ⟨s, List.mem_cons_of_mem db hs, fun key hkey => ?_⟩
    obtain ⟨hactive, hothers⟩ := hinactive key hkey
    obtain ⟨row, hretired, hrow⟩ := retirement_row lower hcanonical hstored key
    rw [Database.permissionActive_iff, hrow] at hactive
    split at hactive
    · simp [hretired] at hactive
    · rename_i hne
      refine ⟨Database.permissionActive_iff.mpr hactive, fun q hq => ?_⟩
      rcases List.mem_cons.mp hq with rfl | hq
      · exact fun heq => hne heq.symm
      · exact hothers q hq

/-- The permissions that migrations 0002 and 0003 insert, by resource. -/
def securityActions : List (String × List String) :=
  [("platform_admin", ["read", "manage"]), ("security_config", ["read", "manage"]),
    ("tenant", ["create", "read", "update", "suspend", "activate", "bootstrap_admin"]),
    ("module", ["read", "manage"]), ("permission", ["read"]), ("audit", ["read"]),
    ("member", ["read", "invite", "update", "suspend", "end", "approve"]),
    ("group", ["read", "create", "update", "assign"]), ("role", ["read", "create", "update", "assign"]),
    ("location", ["read", "create", "update", "assign"]), ("schedule", ["read", "create", "update"]),
    ("device", ["read", "approve", "block", "revoke"]), ("policy", ["read", "update"]),
    ("retention", ["read", "update"]), ("privileged_access", ["approve"]), ("user", ["read", "manage"]),
    ("user_onboarding", ["read", "manage"])]

def securityPermissions : List Permission :=
  securityActions.flatMap fun resource => resource.2.map fun action =>
    ⟨"security." ++ resource.1 ++ "." ++ action, "security", resource.1, action, none, none, .active,
      some "1.4"⟩

def seededDatabase : Database :=
  { freshDatabase with
    permissions := securityPermissions.foldl Table.insert Table.empty
    platformUserRoleAssignments := Table.empty.insert
      ⟨"assignment", "user", superAdminRoleKey, .active, .bootstrap⟩ }

theorem seeded_canonical : ∀ p ∈ seededDatabase.permissions.rows,
    isCanonicalPermission p.permissionKey = true := by
  have hcanonical : ∀ p ∈ securityPermissions, isCanonicalPermission p.permissionKey = true := by
    decide +kernel
  intro p hp
  rcases Table.mem_foldl_insert hp with hp | hp
  · exact absurd hp List.not_mem_nil
  · exact hcanonical p hp

theorem seeded_holds {d : Database}
    (hassigned : d.platformUserRoleAssignments = seededDatabase.platformUserRoleAssignments)
    (hroles : d.platformRoles = seededDatabase.platformRoles) :
    d.PlatformHolds "user" superAdminRoleKey := by
  refine ⟨⟨"assignment", "user", superAdminRoleKey, .active, .bootstrap⟩, ?_, rfl, rfl, rfl,
    ⟨superAdminRoleKey, .active⟩, ?_, rfl, rfl⟩
  · rw [hassigned]
    decide +kernel
  · rw [hroles]
    decide +kernel

/-- The module takes its permission back, and an administrator configures another one. -/
def salesReplaced : List CatalogOperation :=
  [.putCatalog ⟨"user", "put", 0, "", "audit"⟩ 0 (fun _ => "template") "sales"
      (salesCatalog "DEPRECATED" []),
    .configurePermission ⟨"sales.order.list", "sales", "order", "list", none, "ACTIVE"⟩]

/-- The super admin has the permission of the moment, in every tenant. -/
theorem sales_super_admin_authority : ∃ s ∈ CatalogOperation.states asciiLower
    { clerkDatabase with
      platformUserRoleAssignments := seededDatabase.platformUserRoleAssignments }.migration0005
    salesReplaced, ∃ roles, effectiveUserPermissions s "tenant" "user" 0 =
      .ok (roles, ["sales.order.list"]) := by
  let db : Database := { clerkDatabase with
    platformUserRoleAssignments := seededDatabase.platformUserRoleAssignments }
  have hstored : db.PlatformGrantsStored := by
    unfold Database.PlatformGrantsStored
    decide +kernel
  let s := (CatalogOperation.states asciiLower db.migration0005 salesReplaced).getLast
    (List.cons_ne_nil _ _)
  have hs : s ∈ CatalogOperation.states asciiLower db.migration0005 salesReplaced :=
    List.getLast_mem _
  have hactive : s.activePermissions = ["sales.order.list"] := by
    decide +kernel
  have hassigned : (⟨"assignment", "user", superAdminRoleKey, .active, .bootstrap⟩ :
      PlatformUserRoleAssignment) ∈ s.platformUserRoleAssignments.rows := by
    decide +kernel
  have hrole : (⟨superAdminRoleKey, .active⟩ : PlatformRole) ∈ s.platformRoles.rows := by
    decide +kernel
  have hholds : s.PlatformHolds "user" superAdminRoleKey :=
    ⟨_, hassigned, rfl, rfl, rfl, _, hrole, rfl, rfl⟩
  obtain ⟨_, hreaders⟩ := super_admin_authority asciiLower db hstored salesReplaced s hs
  obtain ⟨_, hsome, _⟩ := hreaders s rfl rfl "tenant" "user" 0 hholds
  rw [hactive] at hsome
  exact ⟨s, hs, hsome (List.cons_ne_nil _ _)⟩

/-- Once every permission is retired, the super admin is refused instead of given the empty set. -/
theorem retired_catalogue_refuses : ¬ ∀ (lower : String → String) (db : Database),
    db.PlatformGrantsStored → ∀ ops, ∀ s ∈ CatalogOperation.states lower db.migration0005 ops,
      ∀ d : Database, d.permissions = s.permissions →
        d.platformRolePermissions = s.platformRolePermissions → ∀ t u now,
        d.PlatformHolds u superAdminRoleKey →
          ∃ roles, effectiveUserPermissions d t u now = .ok (roles, d.activePermissions) := by
  intro hexact
  have hstored : seededDatabase.PlatformGrantsStored := fun r hr => absurd hr List.not_mem_nil
  obtain ⟨s, hs, hinactive⟩ := retirements_inactive asciiLower _ seededDatabase.migration0005
    fun p hp => ⟨seeded_canonical p hp, p, Database.permissionRow?_eq_some_iff.mpr ⟨hp, rfl⟩⟩
  let d : Database := { seededDatabase with
    permissions := s.permissions
    platformRolePermissions := s.platformRolePermissions }
  have hnone : d.activePermissions = [] := by
    refine List.eq_nil_iff_forall_not_mem.mpr fun key hkey => ?_
    obtain ⟨⟨p, hp, hpkey, _⟩, hothers⟩ := hinactive key (mem_activePermissions.mp hkey)
    exact hothers p hp hpkey
  have hsynced : SuperAdminSynced d :=
    CatalogOperation.states_synced asciiLower (migration0005_synced hstored) s hs
  obtain ⟨roles, hroles⟩ := hexact asciiLower seededDatabase hstored _ s hs d rfl rfl "tenant" "user" 0
    (seeded_holds rfl rfl)
  rw [hsynced.effective_error (seeded_holds rfl rfl) "tenant" 0 hnone] at hroles
  cases hroles

end VerigenceSecurity
