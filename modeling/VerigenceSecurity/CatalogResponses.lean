import VerigenceSecurity.TemplateIntegrity

/-! # The full effect of a put

`get_catalog` after a put that succeeds shows the whole submission, unless the put
skipped a permission: a stored row of the same module and another action is left alone.
-/

namespace VerigenceSecurity
set_option autoImplicit false

open Transaction Relational Program

variable {db after : Database} {moduleKey : String} {catalog : CatalogInput}

/-! ## Reading the catalogue -/

def Permission.shown (row : Permission) : CatalogPermission :=
  ⟨row.permissionKey, row.displayName, row.description, row.status, row.catalogVersion⟩

def ModuleRoleTemplate.shown (row : ModuleRoleTemplate) (permissions : List String) : CatalogTemplate :=
  ⟨row.templateKey, row.templateName, row.description, row.status, row.catalogVersion, permissions⟩

def Database.shownCatalog (db : Database) (row : Module) : CatalogResponse where
  moduleKey := row.moduleKey
  moduleName := some row.moduleName
  catalogVersion := some row.catalogVersion
  status := some row.status
  permissions := (db.modulePermissions row.moduleKey).map Permission.shown
  roleTemplates := (db.moduleTemplates row.moduleKey).map fun t => t.1.shown t.2

theorem getCatalog_alone (db : Database) (moduleKey : String) :
    (getCatalog moduleKey).alone db = (.ok ((db.moduleRow? moduleKey).map db.shownCatalog), db) := by
  cases hrow : db.moduleRow? moduleKey with
  | none =>
    have hexec : (getCatalog moduleKey).exec ⟨db, db⟩ = (.ok none, ⟨db, db⟩) := by
      unfold getCatalog moduleRow
      rw [exec_bind, exec_query]
      dsimp only
      rw [hrow]
      rfl
    unfold alone
    rw [hexec]
    rfl
  | some row =>
    obtain ⟨_, rfl⟩ := Database.moduleRow?_eq_some_iff.mp hrow
    have hexec : (getCatalog row.moduleKey).exec ⟨db, db⟩ =
        (.ok (some (db.shownCatalog row)), ⟨db, db⟩) := by
      unfold getCatalog moduleRow
      rw [exec_bind, exec_query]
      dsimp only
      rw [hrow]
      rfl
    unfold alone
    rw [hexec]
    rfl

theorem mem_shownCatalog_permissions {row : Module} {shown : CatalogPermission} :
    shown ∈ (db.shownCatalog row).permissions ↔
      ∃ p ∈ db.permissionRow? shown.key, p.moduleKey = row.moduleKey ∧ p.shown = shown := by
  unfold Database.shownCatalog Database.modulePermissions
  simp only [List.mem_map, List.mem_insertionSort, List.mem_filter, decide_eq_true_eq]
  constructor
  · rintro ⟨p, ⟨hp, hmodule⟩, rfl⟩
    exact ⟨p, Database.permissionRow?_eq_some_iff.mpr ⟨hp, rfl⟩, hmodule, rfl⟩
  · rintro ⟨p, hp, hmodule, hshown⟩
    exact ⟨p, ⟨(Database.permissionRow?_eq_some_iff.mp hp).1, hmodule⟩, hshown⟩

def Database.templateKeys (db : Database) (templateId : Uuid) : List String :=
  ((db.moduleRoleTemplatePermissions.rows.filter fun tp =>
    decide (tp.templateId = templateId)).map (·.permissionKey)).insertionSort (· ≤ ·)

theorem mem_templateKeys {templateId : Uuid} {key : String} :
    key ∈ db.templateKeys templateId ↔ db.TemplatePermission templateId key := by
  unfold Database.templateKeys Database.TemplatePermission
  simp only [List.mem_insertionSort, List.mem_map, List.mem_filter, decide_eq_true_eq]
  constructor
  · rintro ⟨⟨id, k⟩, ⟨hmem, rfl⟩, rfl⟩
    exact hmem
  · exact fun hmem => ⟨_, ⟨hmem, rfl⟩, rfl⟩

theorem mem_shownCatalog_templates {row : Module} {t : ModuleRoleTemplate}
    (ht : db.templateRow? row.moduleKey t.templateKey = some t) :
    t.shown (db.templateKeys t.templateId) ∈ (db.shownCatalog row).roleTemplates := by
  obtain ⟨hmem, hmodule, _⟩ := Database.templateRow?_eq_some_iff.mp ht
  unfold Database.shownCatalog Database.moduleTemplates
  simp only [List.mem_map, List.mem_insertionSort, List.mem_filter, decide_eq_true_eq]
  exact ⟨_, ⟨t, ⟨hmem, hmodule⟩, rfl⟩, rfl⟩

/-! ## The effect of a put -/

/-- The catalogue read after the put shows the submission, and the rest is as before. -/
structure FullEffect (db : Database) (moduleKey : String) (catalog : CatalogInput)
    (after : Database) : Prop where
  shown : ∃ response, ((getCatalog moduleKey).alone after).1 = .ok (some response) ∧
    (∀ p ∈ catalog.permissions, ∃ status ∈ LifecycleStatus.ofText? p.status,
      ⟨p.key, some (strip p.name), p.description, status, some (strip catalog.catalogVersion)⟩ ∈
        response.permissions) ∧
    ∀ t ∈ catalog.roleTemplates, ∃ shown ∈ response.roleTemplates,
      shown.key = t.key ∧ ∀ key, key ∈ shown.permissions ↔ key ∈ t.permissions
  permissions : ∀ row : Permission,
    (row.moduleKey = moduleKey → ∀ p ∈ catalog.permissions, p.key ≠ row.permissionKey) →
      (row ∈ after.permissions.rows ↔ row ∈ db.permissions.rows)
  templates : ∀ row : ModuleRoleTemplate,
    (row.moduleKey = moduleKey → ∀ t ∈ catalog.roleTemplates, t.key ≠ row.templateKey) →
      (row ∈ after.moduleRoleTemplates.rows ↔ row ∈ db.moduleRoleTemplates.rows) ∧
      (row ∈ db.moduleRoleTemplates.rows → ∀ key,
        after.TemplatePermission row.templateId key ↔ db.TemplatePermission row.templateId key)
  modules : ∀ row : Module, row.moduleKey ≠ moduleKey →
    (row ∈ after.modules.rows ↔ row ∈ db.modules.rows)
  tenantRoles : after.toRbacTables = db.toRbacTables

def Permission.Has (row : Permission) (catalogVersion : String) (p : PermissionInput) : Prop :=
  row.displayName = some (strip p.name) ∧ row.description = p.description ∧
    LifecycleStatus.ofText? p.status = some row.status ∧ row.catalogVersion = some catalogVersion

instance (row : Permission) (catalogVersion : String) (p : PermissionInput) :
    Decidable (row.Has catalogVersion p) :=
  inferInstanceAs (Decidable (_ ∧ _ ∧ _ ∧ _))

/-- Every submitted permission is new, stored as the same action of the module, or stored
with the values submitted. -/
def Database.Applies (db : Database) (moduleKey : String) (catalog : CatalogInput) : Prop :=
  ∀ p ∈ catalog.permissions, db.Registers moduleKey p ∨
    ∃ stored ∈ db.permissionRow? p.key, stored.Has (strip catalog.catalogVersion) p

instance (db : Database) (moduleKey : String) (catalog : CatalogInput) :
    Decidable (db.Applies moduleKey catalog) :=
  inferInstanceAs (Decidable (∀ p ∈ catalog.permissions, _ ∨ ∃ stored ∈ db.permissionRow? p.key, _))

theorem permissionRow_has {p : PermissionInput} {catalogVersion : String} {status : LifecycleStatus}
    (h : LifecycleStatus.ofText? p.status = some status) :
    (permissionRow moduleKey catalogVersion p status).Has catalogVersion p :=
  ⟨rfl, rfl, h, rfl⟩

theorem registered_has {p : PermissionInput} {catalogVersion : String} {status : LifecycleStatus}
    {stored : Permission} (h : LifecycleStatus.ofText? p.status = some status)
    (hsame : (permissionRow moduleKey catalogVersion p status).sameAction stored) :
    ((permissionRow moduleKey catalogVersion p status).registered stored).Has catalogVersion p := by
  unfold Permission.registered
  split
  · exact ⟨rfl, rfl, h, rfl⟩
  · rename_i hdiffers
    exact absurd hsame hdiffers

theorem CatalogPut.row_module (h : CatalogPut db moduleKey catalog after) {p : PermissionInput}
    (hp : p ∈ catalog.permissions) : ∀ row ∈ after.permissionRow? p.key, row.moduleKey = moduleKey := by
  intro row hrow
  obtain ⟨status, hstatus⟩ := h.lifecycle p hp
  rw [h.permissions p hp] at hrow
  unfold Database.putRow at hrow
  rw [hstatus] at hrow
  rw [← Option.some.inj hrow]
  cases hstored : db.permissionRow? p.key with
  | none => rfl
  | some stored =>
    rw [Option.elim_some]
    unfold Permission.registered
    split <;> exact h.owned p hp stored hstored

/-- The row of a submitted permission has the submitted values unless it was skipped. -/
theorem CatalogPut.has_iff (h : CatalogPut db moduleKey catalog after) {p : PermissionInput}
    (hp : p ∈ catalog.permissions) :
    (∃ row ∈ after.permissionRow? p.key, row.Has (strip catalog.catalogVersion) p) ↔
      db.Registers moduleKey p ∨
        ∃ stored ∈ db.permissionRow? p.key, stored.Has (strip catalog.catalogVersion) p := by
  obtain ⟨status, hstatus⟩ := h.lifecycle p hp
  rw [h.permissions p hp]
  unfold Database.putRow
  rw [hstatus]
  cases hstored : db.permissionRow? p.key with
  | none =>
    constructor
    · intro _
      refine Or.inl fun stored hs => ?_
      rw [hstored] at hs
      cases hs
    · exact fun _ => ⟨_, rfl, permissionRow_has hstatus⟩
  | some stored =>
    simp only [Option.elim_some, Option.mem_some_iff, exists_eq_left']
    by_cases hsame : (permissionRow moduleKey (strip catalog.catalogVersion) p status).sameAction stored
    · refine iff_of_true (registered_has hstatus hsame) (Or.inl fun r hr => ?_)
      rw [hstored] at hr
      exact Option.some.inj hr ▸ hsame
    · rw [registered_of_not_same hsame]
      refine (or_iff_right fun hregisters => hsame ?_).symm
      exact hregisters stored hstored

theorem CatalogPut.shown_template (h : CatalogPut db moduleKey catalog after) {row : Module}
    (hrow : row.moduleKey = moduleKey) {t : RoleTemplateInput} (ht : t ∈ catalog.roleTemplates) :
    ∃ shown ∈ (after.shownCatalog row).roleTemplates,
      shown.key = t.key ∧ ∀ key, key ∈ shown.permissions ↔ key ∈ t.permissions := by
  obtain ⟨status, freshId, _, hstored⟩ := h.templates t ht
  refine ⟨_, mem_shownCatalog_templates (t := templateRow (db.templateId moduleKey t freshId) moduleKey
    (strip catalog.catalogVersion) t status) ?_, rfl, fun key => ?_⟩
  · rw [hrow]
    exact hstored
  · rw [← h.submitted t ht _ hstored key]
    exact mem_templateKeys

theorem CatalogPut.fullEffect_iff (h : CatalogPut db moduleKey catalog after) :
    FullEffect db moduleKey catalog after ↔ db.Applies moduleKey catalog := by
  have hmodule := h.modules moduleKey
  rw [if_pos rfl] at hmodule
  have hget := getCatalog_alone after moduleKey
  rw [hmodule, Option.map_some] at hget
  constructor
  · rintro ⟨⟨response, hresponse, hshown, _⟩, _, _, _, _⟩ p hp
    rw [hget] at hresponse
    obtain rfl := Option.some.inj (Except.ok.inj hresponse)
    obtain ⟨status, hstatus, hmem⟩ := hshown p hp
    obtain ⟨row, hrow, _, hvalues⟩ := mem_shownCatalog_permissions.mp hmem
    refine (h.has_iff hp).mp ⟨row, hrow, ?_⟩
    unfold Permission.shown at hvalues
    simp only [CatalogPermission.mk.injEq] at hvalues
    obtain ⟨_, hname, hdescription, rfl, hversion⟩ := hvalues
    exact ⟨hname, hdescription, hstatus, hversion⟩
  · intro happlies
    constructor
    · refine ⟨_, congrArg Prod.fst hget, ?_, fun t ht => h.shown_template rfl ht⟩
      intro p hp
      obtain ⟨row, hrow, hname, hdescription, hstatus, hversion⟩ := (h.has_iff hp).mpr (happlies p hp)
      refine ⟨row.status, hstatus, mem_shownCatalog_permissions.mpr ⟨row, hrow, ?_, ?_⟩⟩
      · exact h.row_module hp row hrow
      · unfold Permission.shown
        rw [hname, hdescription, hversion, (Database.permissionRow?_eq_some_iff.mp hrow).2]
    · intro row hother
      by_cases hkey : ∃ p ∈ catalog.permissions, p.key = row.permissionKey
      · obtain ⟨p, hp, hkey⟩ := hkey
        refine iff_of_false (fun hmem => ?_) fun hmem => ?_
        · have hrow := Database.permissionRow?_eq_some_iff.mpr ⟨hmem, hkey.symm⟩
          exact hother (h.row_module hp row hrow) p hp hkey
        · have hrow := Database.permissionRow?_eq_some_iff.mpr ⟨hmem, hkey.symm⟩
          exact hother (h.owned p hp row hrow) p hp hkey
      · simp only [not_exists, not_and] at hkey
        have hsame := h.otherPermissions row.permissionKey hkey
        have hiff : ∀ d : Database, row ∈ d.permissions.rows ↔
            d.permissionRow? row.permissionKey = some row := fun d => by
          rw [Database.permissionRow?_eq_some_iff, and_iff_left rfl]
        rw [hiff after, hiff db, hsame]
    · intro row hother
      have hsame := h.otherTemplates row.moduleKey row.templateKey hother
      have hiff : ∀ d : Database, row ∈ d.moduleRoleTemplates.rows ↔
          d.templateRow? row.moduleKey row.templateKey = some row := fun d => by
        rw [Database.templateRow?_eq_some_iff, and_iff_left ⟨rfl, rfl⟩]
      refine ⟨by rw [hiff after, hiff db, hsame], fun hmem key => ?_⟩
      exact h.kept _ _ hother row (hsame.trans ((hiff db).mp hmem)) key
    · intro row hother
      have hsame := h.modules row.moduleKey
      rw [if_neg hother] at hsame
      have hiff : ∀ d : Database, row ∈ d.modules.rows ↔
          d.moduleRow? row.moduleKey = some row := fun d => by
        rw [Database.moduleRow?_eq_some_iff, and_iff_left rfl]
      rw [hiff after, hiff db, hsame]
    · rw [h.frame]

/-- A put that raises changes nothing, and one that succeeds takes full effect exactly when
no stored permission makes it skip a submitted one. -/
theorem putCatalog_full_effect_iff (lower : String → String) (c : AdminCall) (databaseNow : Instant)
    (freshId : Nat → Uuid) (pathModuleKey : String) (catalog : CatalogInput) (db : Database) :
    (∀ e, ((putCatalog lower c databaseNow freshId pathModuleKey catalog).alone db).1 = .error e →
      ((putCatalog lower c databaseNow freshId pathModuleKey catalog).alone db).2 = db) ∧
    ∀ response, ((putCatalog lower c databaseNow freshId pathModuleKey catalog).alone db).1 =
      .ok response →
        (FullEffect db (lower (strip pathModuleKey)) catalog
            ((putCatalog lower c databaseNow freshId pathModuleKey catalog).alone db).2 ↔
          db.Applies (lower (strip pathModuleKey)) catalog) := by
  constructor
  · intro e he
    exact (endsAtCommit_putCatalog lower c databaseNow freshId pathModuleKey catalog).alone_error he
  · intro response hresponse
    exact (putCatalog_put hresponse).fullEffect_iff

/-- The permission is stored as the same action, so the put shows it as it submits it. -/
theorem sales_put_full_effect : FullEffect clerkDatabase (asciiLower (strip " Sales "))
    (salesCatalog "ACTIVE" ["sales.order.read"])
    ((salesPut "ACTIVE" ["sales.order.read"]).alone clerkDatabase).2 := by
  have hput : ((salesPut "ACTIVE" ["sales.order.read"]).alone clerkDatabase).1 = .ok
      ⟨"sales", some "Sales", some "2", some .active,
        [⟨"sales.order.read", some "Read orders", none, .active, some "2"⟩],
        [⟨"sales.clerk", "Clerk", none, .active, "2", ["sales.order.read"]⟩]⟩ := by
    decide +kernel
  exact ((putCatalog_full_effect_iff asciiLower _ _ _ _ _ clerkDatabase).2 _ hput).mpr
    (by decide +kernel)

def configuredDatabase : Database :=
  ((configurePermission ⟨"sales.order.read", "sales", "orders", "list", none, "ACTIVE"⟩).alone
    freshDatabase).2

/-- The put succeeds and leaves the configured permission as it is. -/
theorem configured_permission_skipped : ¬ ∀ (lower : String → String) (c : AdminCall)
    (databaseNow : Instant) (freshId : Nat → Uuid) (pathModuleKey : String) (catalog : CatalogInput)
    (db : Database),
    (∀ e, ((putCatalog lower c databaseNow freshId pathModuleKey catalog).alone db).1 = .error e →
      ((putCatalog lower c databaseNow freshId pathModuleKey catalog).alone db).2 = db) ∧
    ∀ response, ((putCatalog lower c databaseNow freshId pathModuleKey catalog).alone db).1 =
      .ok response → FullEffect db (lower (strip pathModuleKey)) catalog
        ((putCatalog lower c databaseNow freshId pathModuleKey catalog).alone db).2 := by
  intro hfull
  have hput : ((salesPut "DEPRECATED" []).alone configuredDatabase).1 = .ok
      ⟨"sales", some "Sales", some "2", some .active,
        [⟨"sales.order.read", none, none, .active, none⟩],
        [⟨"sales.clerk", "Clerk", none, .active, "2", []⟩]⟩ := by
    decide +kernel
  have heffect := (hfull _ _ _ _ _ _ configuredDatabase).2 _ hput
  have happlies := (putCatalog_put hput).fullEffect_iff.mp heffect
  revert happlies
  decide +kernel

end VerigenceSecurity
