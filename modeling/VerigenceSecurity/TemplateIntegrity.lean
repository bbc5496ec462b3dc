import VerigenceSecurity.CatalogRuns

/-! # The permissions of `ACTIVE` templates

A put validates the templates that it submits, not those that the module submitted
before. An `ACTIVE` template keeps to `ACTIVE` permissions of its module as long as no
put gives another status to a permission of a template that it does not submit again.
-/

namespace VerigenceSecurity
set_option autoImplicit false

open Transaction Relational Program

/-- Every permission of an `ACTIVE` template is stored, `ACTIVE` and of the template's module. -/
def Database.TemplatesWellFormed (db : Database) : Prop :=
  ∀ r ∈ db.moduleRoleTemplates.rows, r.status = .active → ∀ key,
    db.TemplatePermission r.templateId key →
      ∃ p ∈ db.permissionRow? key, p.moduleKey = r.moduleKey ∧ p.status = .active

/-- A stored permission acts on what its key says. -/
def Database.ActionsOfKeys (db : Database) : Prop :=
  ∀ key, ∀ p ∈ db.permissionRow? key, p.resourceKey = resourceKey key ∧ p.actionKey = actionKey key

structure Database.EmptyCatalogue (db : Database) : Prop where
  modules : db.modules.rows = []
  permissions : db.permissions.rows = []
  templates : db.moduleRoleTemplates.rows = []
  templatePermissions : db.moduleRoleTemplatePermissions.rows = []

/-- The put gives no other status than `ACTIVE` to a permission of an `ACTIVE` template that
the module has and does not submit again. -/
def Database.KeepsTemplates (db : Database) (moduleKey : String) (catalog : CatalogInput) : Prop :=
  ∀ r ∈ db.moduleRoleTemplates.rows, r.moduleKey = moduleKey → r.status = .active →
    (∀ t ∈ catalog.roleTemplates, t.key ≠ r.templateKey) → ∀ p ∈ catalog.permissions,
      ⟨r.templateId, p.key⟩ ∈ db.moduleRoleTemplatePermissions.rows → p.status = "ACTIVE"

instance (db : Database) (moduleKey : String) (catalog : CatalogInput) :
    Decidable (db.KeepsTemplates moduleKey catalog) :=
  inferInstanceAs (Decidable (∀ r ∈ db.moduleRoleTemplates.rows, _ → _ → _ → _))

/-! ## One put -/

section Put

variable {db after : Database} {moduleKey : String} {catalog : CatalogInput}

/-- Where actions are those of the keys, a put writes every permission of its module. -/
theorem CatalogPut.registers (h : CatalogPut db moduleKey catalog after) (hdb : db.ActionsOfKeys)
    {p : PermissionInput} (hp : p ∈ catalog.permissions) : db.Registers moduleKey p := by
  intro stored hstored
  exact ⟨h.owned p hp stored hstored, hdb p.key stored hstored⟩

/-- The row of a submitted permission is of the module and has the status submitted. -/
theorem CatalogPut.submitted_row (h : CatalogPut db moduleKey catalog after) (hdb : db.ActionsOfKeys)
    {p : PermissionInput} (hp : p ∈ catalog.permissions) :
    ∃ row ∈ after.permissionRow? p.key, row.moduleKey = moduleKey ∧
      LifecycleStatus.ofText? p.status = some row.status := by
  obtain ⟨status, hstatus⟩ := h.lifecycle p hp
  rw [h.permissions p hp]
  unfold Database.putRow
  rw [hstatus]
  refine ⟨_, rfl, ?_⟩
  cases hstored : db.permissionRow? p.key with
  | none => exact ⟨rfl, rfl⟩
  | some stored =>
    have hsame : (permissionRow moduleKey (strip catalog.catalogVersion) p status).sameAction stored :=
      h.registers hdb hp stored hstored
    rw [Option.elim_some]
    constructor
    · unfold Permission.registered
      split <;> exact h.owned p hp stored hstored
    · rw [registered_status hsame]
      rfl

theorem CatalogPut.actionsOfKeys (h : CatalogPut db moduleKey catalog after)
    (hdb : db.ActionsOfKeys) : after.ActionsOfKeys := by
  intro key row hrow
  by_cases hkey : ∃ p ∈ catalog.permissions, p.key = key
  · obtain ⟨p, hp, rfl⟩ := hkey
    obtain ⟨status, hstatus⟩ := h.lifecycle p hp
    rw [h.permissions p hp] at hrow
    unfold Database.putRow at hrow
    rw [hstatus] at hrow
    rw [← Option.some.inj hrow]
    cases hstored : db.permissionRow? p.key with
    | none => exact ⟨rfl, rfl⟩
    | some stored =>
      rw [Option.elim_some]
      unfold Permission.registered
      split <;> exact hdb p.key stored hstored
  · simp only [not_exists, not_and] at hkey
    rw [h.otherPermissions key hkey] at hrow
    exact hdb key row hrow

/-- A permission that a submitted template names is `ACTIVE` and of the module after the put. -/
theorem CatalogPut.reference_active (h : CatalogPut db moduleKey catalog after)
    (hdb : db.ActionsOfKeys) {key : String} (hkey : db.ValidReference moduleKey catalog key) :
    ∃ p ∈ after.permissionRow? key, p.moduleKey = moduleKey ∧ p.status = .active := by
  obtain ⟨_, hreference⟩ := hkey
  cases hfind : catalog.permissions.find? fun p => decide (p.key = key) with
  | some p =>
    have hpkey := List.find?_some hfind
    have hactive : p.status = "ACTIVE" := by
      rw [hfind] at hreference
      exact hreference
    obtain ⟨row, hrow, hmodule, hstatus⟩ := h.submitted_row hdb (List.mem_of_find?_eq_some hfind)
    rw [of_decide_eq_true hpkey] at hrow
    exact ⟨row, hrow, hmodule, (ofText?_active_iff hstatus).mpr hactive⟩
  | none =>
    have hother : ∀ p ∈ catalog.permissions, p.key ≠ key := by
      intro p hp heq
      have hnone := List.find?_eq_none.mp hfind p hp
      exact hnone (decide_eq_true heq)
    rw [hfind] at hreference
    rw [h.otherPermissions key hother]
    exact hreference

/-- A put leaves the `ACTIVE` templates well-formed exactly when it keeps the stored ones so. -/
theorem CatalogPut.templatesWellFormed_iff (h : CatalogPut db moduleKey catalog after)
    (hvalid : ValidCatalog db moduleKey catalog) (hdb : db.ActionsOfKeys)
    (hwell : db.TemplatesWellFormed) :
    after.TemplatesWellFormed ↔ db.KeepsTemplates moduleKey catalog := by
  constructor
  · intro hafter r hr hmodule hactive hother p hp hreference
    have hstored : db.templateRow? r.moduleKey r.templateKey = some r :=
      Database.templateRow?_eq_some_iff.mpr ⟨hr, rfl, rfl⟩
    have hkept : after.templateRow? r.moduleKey r.templateKey = some r := by
      rw [h.otherTemplates _ _ fun _ => hother, hstored]
    obtain ⟨hmem, _⟩ := Database.templateRow?_eq_some_iff.mp hkept
    have hstill := (h.kept _ _ (fun _ => hother) r hkept p.key).mpr hreference
    obtain ⟨row, hrow, _, hrowActive⟩ := hafter r hmem hactive p.key hstill
    obtain ⟨row', hrow', _, hstatus⟩ := h.submitted_row hdb hp
    rw [Option.mem_unique hrow' hrow] at hstatus
    exact (ofText?_active_iff hstatus).mp hrowActive
  · intro hkeeps r hr hactive key hreference
    have hrow : after.templateRow? r.moduleKey r.templateKey = some r :=
      Database.templateRow?_eq_some_iff.mpr ⟨hr, rfl, rfl⟩
    by_cases hsubmitted : r.moduleKey = moduleKey ∧ ∃ t ∈ catalog.roleTemplates, t.key = r.templateKey
    · obtain ⟨hmodule, t, ht, hkey⟩ := hsubmitted
      rw [hmodule, ← hkey] at hrow
      rw [hmodule]
      have hnamed := (h.submitted t ht r hrow key).mp hreference
      exact h.reference_active hdb (hvalid.references t ht key hnamed)
    · have hother : r.moduleKey = moduleKey → ∀ t ∈ catalog.roleTemplates, t.key ≠ r.templateKey :=
        fun hmodule t ht hkey => hsubmitted ⟨hmodule, t, ht, hkey⟩
      have hbefore := (h.kept _ _ hother r hrow key).mp hreference
      rw [h.otherTemplates _ _ hother] at hrow
      obtain ⟨hmem, _⟩ := Database.templateRow?_eq_some_iff.mp hrow
      obtain ⟨stored, hstored, hmodule, hstoredActive⟩ := hwell r hmem hactive key hbefore
      by_cases hkey : ∃ p ∈ catalog.permissions, p.key = key
      · -- The permission is submitted, so it and the template are of the module.
        obtain ⟨p, hp, rfl⟩ := hkey
        have howned := h.owned p hp stored hstored
        obtain ⟨row, hnew, hnewModule, hstatus⟩ := h.submitted_row hdb hp
        refine ⟨row, hnew, ?_, (ofText?_active_iff hstatus).mpr ?_⟩
        · rw [hnewModule, ← howned, hmodule]
        · have hown : r.moduleKey = moduleKey := hmodule.symm.trans howned
          exact hkeeps r hmem hown hactive (hother hown) p hp hbefore
      · simp only [not_exists, not_and] at hkey
        rw [h.otherPermissions key hkey]
        exact ⟨stored, hstored, hmodule, hstoredActive⟩

end Put

/-! ## Histories of puts -/

def CatalogOperation.IsPut : CatalogOperation → Prop
  | putCatalog .. => True
  | configurePermission _ => False

/-- A put that passes the validation keeps the templates that it does not submit. -/
def CatalogOperation.PutKeepsTemplates (lower : String → String) (db : Database) :
    CatalogOperation → Prop
  | putCatalog _ _ _ pathModuleKey catalog =>
    ((validateCatalog lower (lower (strip pathModuleKey)) catalog).alone db).1 = .ok () →
      db.KeepsTemplates (lower (strip pathModuleKey)) catalog
  | configurePermission _ => True

instance (lower : String → String) (db : Database) :
    (op : CatalogOperation) → Decidable (op.PutKeepsTemplates lower db)
  | .putCatalog _ _ _ pathModuleKey catalog =>
    inferInstanceAs (Decidable (((validateCatalog lower (lower (strip pathModuleKey)) catalog).alone
      db).1 = .ok () → db.KeepsTemplates (lower (strip pathModuleKey)) catalog))
  | .configurePermission _ => .isTrue trivial

theorem CatalogOperation.put_templates {lower : String → String} {db : Database}
    {op : CatalogOperation} (hput : op.IsPut) (hkeeps : op.PutKeepsTemplates lower db)
    (hdb : db.ActionsOfKeys) (hwell : db.TemplatesWellFormed) :
    (op.alone lower db).2.ActionsOfKeys ∧ (op.alone lower db).2.TemplatesWellFormed := by
  cases hresult : (op.alone lower db).1 with
  | error e =>
    rw [op.alone_error lower hresult]
    exact ⟨hdb, hwell⟩
  | ok _ =>
    cases op with
    | putCatalog c databaseNow freshId pathModuleKey catalog =>
      obtain ⟨response, hok⟩ := CatalogOperation.put_ok hresult
      obtain ⟨s₁, s₂, s₃, s₄, hvalid, _⟩ := putCatalog_run hok
      have hafter := putCatalog_put hok
      refine ⟨hafter.actionsOfKeys hdb, ?_⟩
      refine (hafter.templatesWellFormed_iff (validateCatalog_valid hvalid) hdb hwell).mpr ?_
      exact hkeeps (congrArg Prod.fst hvalid)
    | configurePermission configuration => exact hput.elim

/-- From an empty catalogue, `ACTIVE` templates stay well-formed under puts that keep them. -/
theorem active_templates_wellFormed (lower : String → String) (db : Database)
    (puts : List CatalogOperation) (hempty : db.EmptyCatalogue) (hputs : ∀ op ∈ puts, op.IsPut)
    (hkeeps : CatalogOperation.Along lower (CatalogOperation.PutKeepsTemplates lower) db puts) :
    ∀ s ∈ CatalogOperation.states lower db puts, s.TemplatesWellFormed := by
  have hactions : db.ActionsOfKeys := by
    intro key p hp
    have hmem := List.mem_of_find?_eq_some hp
    rw [hempty.permissions] at hmem
    cases hmem
  have hwell : db.TemplatesWellFormed := by
    intro r hr
    rw [hempty.templates] at hr
    cases hr
  clear hempty
  induction puts generalizing db with
  | nil =>
    intro s hs
    rw [List.mem_singleton.mp hs]
    exact hwell
  | cons op ops ih =>
    intro s hs
    rcases List.mem_cons.mp hs with rfl | hs
    · exact hwell
    · obtain ⟨hactions', hwell'⟩ := CatalogOperation.put_templates
        (hputs op List.mem_cons_self) hkeeps.1 hactions hwell
      exact ih _ (fun o ho => hputs o (List.mem_cons_of_mem op ho)) hkeeps.2 hactions' hwell' s hs

def freshDatabase : Database :=
  { (default : Database) with
    users := clerkDatabase.users
    securityPrincipals := clerkDatabase.securityPrincipals
    platformRoles := clerkDatabase.platformRoles }

def salesTemplates (status : String) (roleTemplates : List RoleTemplateInput) : CatalogOperation :=
  .putCatalog ⟨"user", "put", 0, "", status⟩ 0 (fun _ => "template") "sales"
    { salesCatalog status [] with roleTemplates := roleTemplates }

def clerkTemplate (permissions : List String) : RoleTemplateInput :=
  ⟨"sales.clerk", "Clerk", permissions, none, "ACTIVE"⟩

/-- The permission leaves the template in the put that deprecates it. -/
theorem clerk_template_resubmitted : List.Forall Database.TemplatesWellFormed
    (CatalogOperation.states asciiLower freshDatabase
      [salesTemplates "ACTIVE" [clerkTemplate ["sales.order.read"]],
        salesTemplates "DEPRECATED" [clerkTemplate []]]) := by
  rw [List.forall_iff_forall_mem]
  refine active_templates_wellFormed asciiLower freshDatabase _ ⟨rfl, rfl, rfl, rfl⟩ ?_
    (by decide +kernel)
  intro op hop
  rcases List.mem_pair.mp hop with rfl | rfl <;> trivial

/-- The template stays behind when its permission is deprecated. -/
theorem deprecated_permission_in_template : ¬ ∀ (lower : String → String) (db : Database)
    (puts : List CatalogOperation), db.EmptyCatalogue → (∀ op ∈ puts, op.IsPut) →
      ∀ s ∈ CatalogOperation.states lower db puts, s.TemplatesWellFormed := by
  intro hwell
  have hlast := hwell asciiLower freshDatabase
    [salesTemplates "ACTIVE" [clerkTemplate ["sales.order.read"]], salesTemplates "DEPRECATED" []]
    ⟨rfl, rfl, rfl, rfl⟩ (by
      intro op hop
      rcases List.mem_pair.mp hop with rfl | rfl <;> trivial)
    _ (List.mem_cons_of_mem _ (List.mem_cons_of_mem _ List.mem_cons_self))
  have hactive := hlast ⟨"template", "sales", "sales.clerk", "Clerk", none, "2", .active⟩
    (by decide +kernel) rfl "sales.order.read" (by unfold Database.TemplatePermission; decide +kernel)
  revert hactive
  decide +kernel

end VerigenceSecurity
