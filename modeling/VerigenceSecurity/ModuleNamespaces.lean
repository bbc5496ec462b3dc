import VerigenceSecurity.TemplateIntegrity

/-! # The namespaces of modules

Keys are divided at their dots, and a module owns the keys that begin with its own key and
a dot. The module key may contain dots itself; the division names the module only if it
does not.
-/

namespace VerigenceSecurity
set_option autoImplicit false

open Transaction Relational Program

def Dotless (moduleKey : String) : Prop := '.' ∉ moduleKey.toList

instance (moduleKey : String) : Decidable (Dotless moduleKey) :=
  inferInstanceAs (Decidable (¬ _))

/-! ## Keys and their parts -/

theorem inNamespace_iff {moduleKey key : String} :
    inNamespace moduleKey key = true ↔ ∃ rest, key = moduleKey ++ "." ++ rest := by
  rw [inNamespace, List.isPrefixOf_iff_prefix]
  constructor
  · rintro ⟨rest, hrest⟩
    refine ⟨String.ofList rest, String.toList_injective ?_⟩
    simp [← hrest]
  · rintro ⟨rest, rfl⟩
    exact ⟨rest.toList, by simp⟩

theorem keyParts_append {moduleKey : String} (h : Dotless moduleKey) (rest : String) :
    keyParts (moduleKey ++ "." ++ rest) = moduleKey :: keyParts rest := by
  have hparts : (moduleKey ++ "." ++ rest).toList.splitOn '.' =
      moduleKey.toList :: rest.toList.splitOn '.' := by
    simpa using List.splitOn_append_cons_self_of_not_mem h rest.toList
  rw [keyParts, hparts]
  simp [keyParts]

theorem intercalate_keyParts (key : String) : ".".intercalate (keyParts key) = key := by
  apply String.toList_injective
  rw [String.toList_intercalate]
  have hmap : (keyParts key).map String.toList = key.toList.splitOn '.' := by
    simp [keyParts, Function.comp_def]
  rw [hmap]
  exact List.intercalate_splitOn '.'

/-- The parts of a canonical key: one before the first dot, one after the last, and others
in between. -/
theorem keyParts_of_isCanonicalPermission {key : String} (h : isCanonicalPermission key = true) :
    ∃ first middle action, middle ≠ [] ∧ keyParts key = first :: (middle ++ [action]) := by
  unfold isCanonicalPermission at h
  unfold keyParts
  split at h
  · cases h
  · rename_i first rest hsplit
    rw [hsplit]
    simp only [Bool.and_eq_true, decide_eq_true_eq] at h
    obtain ⟨⟨-, hlength⟩, -⟩ := h
    obtain ⟨middle, action, rfl⟩ : ∃ middle action, rest = middle ++ [action] :=
      ⟨rest.dropLast, rest.getLast (by rintro rfl; simp at hlength),
        (List.dropLast_append_getLast _).symm⟩
    refine ⟨String.ofList first, middle.map String.ofList, String.ofList action, ?_, by simp⟩
    rintro hnil
    rw [List.map_eq_nil_iff.mp hnil] at hlength
    simp at hlength

/-- A canonical key is its first part, its resource and its action. -/
theorem first_resource_action {key : String} (h : isCanonicalPermission key = true) :
    ∃ first, (keyParts key).head? = some first ∧
      key = first ++ "." ++ resourceKey key ++ "." ++ actionKey key := by
  obtain ⟨first, middle, action, hmiddle, hparts⟩ := keyParts_of_isCanonicalPermission h
  refine ⟨first, by rw [hparts]; rfl, ?_⟩
  have hresource : resourceKey key = ".".intercalate middle := by
    rw [resourceKey, hparts]
    simp
  have haction : actionKey key = action := by
    rw [actionKey, hparts, List.getLastD_eq_getLast?, ← List.cons_append, List.getLast?_concat]
    rfl
  conv_lhs => rw [← intercalate_keyParts key, hparts]
  rw [hresource, haction, String.intercalate_cons_of_ne_nil (by simp),
    String.intercalate_append_of_ne_nil hmiddle (by simp), String.intercalate_singleton]
  simp [String.append_assoc]

/-- The module, the resource and the action make up the key of the permission. -/
theorem composed_of_dotless {moduleKey key : String} (hdotless : Dotless moduleKey)
    (hnamespace : inNamespace moduleKey key = true) (hcanonical : isCanonicalPermission key = true) :
    moduleKey ++ "." ++ resourceKey key ++ "." ++ actionKey key = key := by
  obtain ⟨first, hfirst, hkey⟩ := first_resource_action hcanonical
  obtain ⟨rest, hrest⟩ := inNamespace_iff.mp hnamespace
  rw [hrest, keyParts_append hdotless, List.head?_cons, Option.some.injEq] at hfirst
  rw [hfirst, ← hkey]

/-- No key is in the namespaces of two modules. -/
theorem namespaces_disjoint {moduleKey other key : String} (hdotless : Dotless moduleKey)
    (hother : Dotless other) (h : inNamespace moduleKey key = true)
    (ho : inNamespace other key = true) : moduleKey = other := by
  obtain ⟨rest, hrest⟩ := inNamespace_iff.mp h
  obtain ⟨rest', hrest'⟩ := inNamespace_iff.mp ho
  have hparts := keyParts_append hdotless rest
  rw [← hrest, hrest', keyParts_append hother] at hparts
  exact (List.cons.inj hparts).1.symm

/-! ## One put -/

def CatalogInput.keys (catalog : CatalogInput) : List String :=
  catalog.permissions.map (·.key) ++ catalog.roleTemplates.map (·.key)

def CatalogInput.Accepted (lower : String → String) (db : Database) (moduleKey : String)
    (catalog : CatalogInput) : Prop :=
  ((validateCatalog lower moduleKey catalog).alone db).1 = .ok ()

theorem validatePermission_ok {moduleKey : String} {p : PermissionInput}
    (h : validatePermission moduleKey p = .ok ()) :
    isCanonicalPermission p.key = true ∧ inNamespace moduleKey p.key = true := by
  unfold validatePermission at h
  split at h
  · cases h
  · rename_i hcanonical
    split at h
    · cases h
    · rename_i hnamespace
      exact ⟨by simpa using hcanonical, by simpa using hnamespace⟩

theorem validateTemplate_ok {moduleKey : String} {catalog : CatalogInput} {t : RoleTemplateInput}
    {s u : Session Database}
    (h : (validateTemplate moduleKey catalog t).exec s = (.ok (), u)) :
    inNamespace moduleKey t.key = true := by
  unfold validateTemplate at h
  split at h
  · cases h
  · rename_i hnamespace
    simpa using hnamespace

/-- Every key that the validation accepts is in the namespace of the module. -/
theorem validateCatalog_keys {lower : String → String} {moduleKey : String}
    {catalog : CatalogInput} {s t : Session Database}
    (h : (validateCatalog lower moduleKey catalog).exec s = (.ok (), t)) {key : String}
    (hkey : key ∈ catalog.keys) : inNamespace moduleKey key = true := by
  rcases List.mem_append.mp hkey with hkey | hkey
  · obtain ⟨p, hp, rfl⟩ := List.mem_map.mp hkey
    exact (validatePermission_ok ((validateCatalog_valid h).namespaces p hp)).2
  · obtain ⟨template, htemplate, rfl⟩ := List.mem_map.mp hkey
    unfold validateCatalog at h
    split at h
    · cases h
    · split at h
      · cases h
      · split at h
        · cases h
        · split at h
          · cases h
          · obtain ⟨_, r, -, htemplates⟩ := exec_bind_ok h
            split at htemplates
            · cases htemplates
            · exact validateTemplate_ok (exec_each_reads
                (within_validateTemplate moduleKey catalog) htemplates template htemplate)

theorem CatalogInput.Accepted.inNamespace {lower : String → String} {db : Database}
    {moduleKey : String} {catalog : CatalogInput} (h : catalog.Accepted lower db moduleKey)
    {key : String} (hkey : key ∈ catalog.keys) : inNamespace moduleKey key = true :=
  validateCatalog_keys (Prod.ext h rfl) hkey

/-- The row is in the namespace of its module, and its resource and action are those of its
key. -/
structure Permission.Namespaced (p : Permission) : Prop where
  dotless : Dotless p.moduleKey
  inNamespace : VerigenceSecurity.inNamespace p.moduleKey p.permissionKey = true
  canonical : isCanonicalPermission p.permissionKey = true
  resource : p.resourceKey = VerigenceSecurity.resourceKey p.permissionKey
  action : p.actionKey = VerigenceSecurity.actionKey p.permissionKey

structure Database.Namespaced (db : Database) : Prop where
  permissions : ∀ p ∈ db.permissions.rows, p.Namespaced
  templates : ∀ r ∈ db.moduleRoleTemplates.rows,
    Dotless r.moduleKey ∧ inNamespace r.moduleKey r.templateKey = true

theorem Permission.Namespaced.registered {row stored : Permission} (h : stored.Namespaced) :
    (row.registered stored).Namespaced := by
  unfold Permission.registered
  split
  · exact ⟨h.dotless, h.inNamespace, h.canonical, h.resource, h.action⟩
  · exact h

theorem CatalogPut.namespaced {db after : Database} {moduleKey : String} {catalog : CatalogInput}
    (h : CatalogPut db moduleKey catalog after) (hdotless : Dotless moduleKey)
    (hvalid : ValidCatalog db moduleKey catalog)
    (hkeys : ∀ key ∈ catalog.keys, inNamespace moduleKey key = true) (hdb : db.Namespaced) :
    after.Namespaced := by
  constructor
  · intro row hrow
    have hfound := Database.permissionRow?_eq_some_iff.mpr ⟨hrow, rfl⟩
    by_cases hkey : ∃ p ∈ catalog.permissions, p.key = row.permissionKey
    · obtain ⟨p, hp, hpkey⟩ := hkey
      obtain ⟨status, hstatus⟩ := h.lifecycle p hp
      rw [← hpkey, h.permissions p hp, Database.putRow, hstatus] at hfound
      rw [← Option.some.inj hfound]
      cases hstored : db.permissionRow? p.key with
      | none =>
        obtain ⟨hcanonical, hnamespace⟩ := validatePermission_ok (hvalid.namespaces p hp)
        exact ⟨hdotless, hnamespace, hcanonical, rfl, rfl⟩
      | some stored =>
        exact (hdb.permissions stored (List.mem_of_find?_eq_some hstored)).registered
    · rw [h.otherPermissions _ fun p hp heq => hkey ⟨p, hp, heq⟩] at hfound
      exact hdb.permissions row (List.mem_of_find?_eq_some hfound)
  · intro r hr
    have hfound := Database.templateRow?_eq_some_iff.mpr ⟨hr, rfl, rfl⟩
    by_cases hkey : r.moduleKey = moduleKey ∧ ∃ t ∈ catalog.roleTemplates, t.key = r.templateKey
    · obtain ⟨hmodule, t, ht, htkey⟩ := hkey
      rw [hmodule, ← htkey]
      exact ⟨hdotless, hkeys t.key (List.mem_append_right _ (List.mem_map_of_mem ht))⟩
    · rw [h.otherTemplates _ _ fun hmodule t ht htkey => hkey ⟨hmodule, t, ht, htkey⟩] at hfound
      exact hdb.templates r (Database.templateRow?_eq_some_iff.mp hfound).1

/-- A put of one module leaves the entries in the namespace of another one as they are. -/
theorem CatalogPut.foreign {db after : Database} {moduleKey other key : String}
    {catalog : CatalogInput} (h : CatalogPut db moduleKey catalog after)
    (hdotless : Dotless moduleKey) (hother : Dotless other) (hne : other ≠ moduleKey)
    (hkeys : ∀ key ∈ catalog.keys, inNamespace moduleKey key = true)
    (hkey : inNamespace other key = true) : after.permissionRow? key = db.permissionRow? key ∧
      ∀ mk, after.templateRow? mk key = db.templateRow? mk key := by
  have hsubmitted : key ∉ catalog.keys := fun hmem =>
    hne (namespaces_disjoint hother hdotless hkey (hkeys key hmem))
  constructor
  · apply h.otherPermissions
    rintro p hp rfl
    exact hsubmitted (List.mem_append_left _ (List.mem_map_of_mem hp))
  · intro mk
    apply h.otherTemplates
    rintro - t ht rfl
    exact hsubmitted (List.mem_append_right _ (List.mem_map_of_mem ht))

/-! ## Runs of puts -/

def CatalogOperation.moduleKey (lower : String → String) : CatalogOperation → String
  | putCatalog _ _ _ pathModuleKey _ => lower (strip pathModuleKey)
  | configurePermission configuration => configuration.moduleKey

/-- Modules, resources and actions make up the keys, and whatever is stored in the namespace
of a module is of that module. -/
structure Database.NamespacesOwned (db : Database) : Prop where
  composed : ∀ p ∈ db.permissions.rows,
    p.moduleKey ++ "." ++ p.resourceKey ++ "." ++ p.actionKey = p.permissionKey
  permissions : ∀ p ∈ db.permissions.rows, ∀ moduleKey, Dotless moduleKey →
    inNamespace moduleKey p.permissionKey = true → p.moduleKey = moduleKey
  templates : ∀ r ∈ db.moduleRoleTemplates.rows, ∀ moduleKey, Dotless moduleKey →
    inNamespace moduleKey r.templateKey = true → r.moduleKey = moduleKey

theorem Database.Namespaced.owned {db : Database} (h : db.Namespaced) : db.NamespacesOwned := by
  constructor
  · intro p hp
    have hp' := h.permissions p hp
    rw [hp'.resource, hp'.action]
    exact composed_of_dotless hp'.dotless hp'.inNamespace hp'.canonical
  · intro p hp moduleKey hdotless hkey
    have hp' := h.permissions p hp
    exact namespaces_disjoint hp'.dotless hdotless hp'.inNamespace hkey
  · intro r hr moduleKey hdotless hkey
    obtain ⟨hr', hrkey⟩ := h.templates r hr
    exact namespaces_disjoint hr' hdotless hrkey hkey

/-- What a put does to the namespaces, whether it is accepted or not. -/
theorem CatalogOperation.put_namespaces {lower : String → String} {op : CatalogOperation}
    (hput : op.IsPut) (hdotless : Dotless (op.moduleKey lower)) (db : Database) :
    (db.Namespaced → (op.alone lower db).2.Namespaced) ∧
      ∀ other key, Dotless other → other ≠ op.moduleKey lower → inNamespace other key = true →
        (op.alone lower db).2.permissionRow? key = db.permissionRow? key ∧
          ∀ mk, (op.alone lower db).2.templateRow? mk key = db.templateRow? mk key := by
  cases hresult : (op.alone lower db).1 with
  | error e =>
    rw [op.alone_error lower hresult]
    exact ⟨id, fun _ _ _ _ _ => ⟨rfl, fun _ => rfl⟩⟩
  | ok _ =>
    cases op with
    | putCatalog c databaseNow freshId pathModuleKey catalog =>
      obtain ⟨response, hok⟩ := CatalogOperation.put_ok hresult
      obtain ⟨s₁, s₂, s₃, s₄, hvalid, _⟩ := putCatalog_run hok
      have hafter := putCatalog_put hok
      have hkeys : ∀ key ∈ catalog.keys, inNamespace (lower (strip pathModuleKey)) key = true :=
        fun key => validateCatalog_keys hvalid
      constructor
      · exact hafter.namespaced hdotless (validateCatalog_valid hvalid) hkeys
      · intro other key hother hne hkey
        exact hafter.foreign hdotless hother hne hkeys hkey
    | configurePermission configuration => exact hput.elim

theorem CatalogOperation.namespaced_states {lower : String → String} {db : Database}
    {puts : List CatalogOperation} (hputs : ∀ op ∈ puts, op.IsPut)
    (hdotless : ∀ op ∈ puts, Dotless (op.moduleKey lower)) (hdb : db.Namespaced) :
    ∀ s ∈ CatalogOperation.states lower db puts, s.Namespaced := by
  induction puts generalizing db with
  | nil =>
    intro s hs
    rw [List.mem_singleton.mp hs]
    exact hdb
  | cons op ops ih =>
    intro s hs
    rcases List.mem_cons.mp hs with rfl | hs
    · exact hdb
    · have hnext := (CatalogOperation.put_namespaces (hputs op List.mem_cons_self)
        (hdotless op List.mem_cons_self) db).1 hdb
      exact ih (fun o ho => hputs o (List.mem_cons_of_mem op ho))
        (fun o ho => hdotless o (List.mem_cons_of_mem op ho)) hnext s hs

/-- As long as no module key contains a dot, modules own disjoint namespaces. -/
theorem modules_own_namespaces (lower : String → String) {db : Database} (hdb : db.Namespaced)
    {puts : List CatalogOperation} (hputs : ∀ op ∈ puts, op.IsPut)
    (hdotless : ∀ op ∈ puts, Dotless (op.moduleKey lower)) :
    (∀ s ∈ CatalogOperation.states lower db puts, s.NamespacesOwned) ∧
    (∀ s, ∀ op ∈ puts, ∀ other key, Dotless other → other ≠ op.moduleKey lower →
      inNamespace other key = true →
        (op.alone lower s).2.permissionRow? key = s.permissionRow? key ∧
          ∀ mk, (op.alone lower s).2.templateRow? mk key = s.templateRow? mk key) ∧
    ∀ (s t : Database) (moduleKey other : String) (catalog submission : CatalogInput),
      Dotless moduleKey → Dotless other → catalog.Accepted lower s moduleKey →
      submission.Accepted lower t other → ∀ key ∈ catalog.keys, key ∈ submission.keys →
        moduleKey = other := by
  refine ⟨?_, ?_, ?_⟩
  · intro s hs
    exact (CatalogOperation.namespaced_states hputs hdotless hdb s hs).owned
  · intro s op hop
    exact (CatalogOperation.put_namespaces (hputs op hop) (hdotless op hop) s).2
  · intro s t moduleKey other catalog submission hmodule hother haccepted haccepted' key hkey hkey'
    exact namespaces_disjoint hmodule hother (haccepted.inNamespace hkey)
      (haccepted'.inNamespace hkey')

theorem Database.EmptyCatalogue.namespaced {db : Database} (h : db.EmptyCatalogue) :
    db.Namespaced := by
  constructor
  · intro p hp
    rw [h.permissions] at hp
    cases hp
  · intro r hr
    rw [h.templates] at hr
    cases hr

def itemCatalog (moduleKey : String) : CatalogInput where
  moduleKey := moduleKey
  moduleName := "Order items"
  catalogVersion := "1"
  permissions := [⟨"sales.order.item.read", "Read items", none, "ACTIVE"⟩]
  roleTemplates := []

def itemPut (moduleKey : String) : CatalogOperation :=
  .putCatalog ⟨"user", "put", 0, "", "audit"⟩ 0 (fun _ => "template") moduleKey
    (itemCatalog moduleKey)

def stockPut : CatalogOperation :=
  .putCatalog ⟨"user", "put", 0, "", "audit"⟩ 0 (fun _ => "template") "stock"
    { moduleKey := "stock"
      moduleName := "Stock"
      catalogVersion := "1"
      permissions := [⟨"stock.item.count", "Count items", none, "ACTIVE"⟩]
      roleTemplates := [⟨"stock.clerk", "Stock clerk", ["stock.item.count"], none, "ACTIVE"⟩] }

/-- Sales leaves the permission and the template of stock as they are. -/
theorem sales_leaves_stock_alone :
    (∀ s ∈ CatalogOperation.states asciiLower freshDatabase [stockPut, itemPut "sales"],
      s.NamespacesOwned) ∧
    (stockPut.alone asciiLower freshDatabase).2.permissions.rows.map (·.permissionKey) =
      ["stock.item.count"] ∧
    ((itemPut "sales").alone asciiLower (stockPut.alone asciiLower freshDatabase).2).2.permissionRow?
      "stock.item.count" =
        (stockPut.alone asciiLower freshDatabase).2.permissionRow? "stock.item.count" := by
  have hempty : freshDatabase.EmptyCatalogue := ⟨rfl, rfl, rfl, rfl⟩
  have hputs : ∀ op ∈ [stockPut, itemPut "sales"], op.IsPut := by
    intro op hop
    rcases List.mem_pair.mp hop with rfl | rfl <;> trivial
  have hdotless : ∀ op ∈ [stockPut, itemPut "sales"], Dotless (op.moduleKey asciiLower) := by
    decide +kernel
  obtain ⟨howned, hothers, _⟩ :=
    modules_own_namespaces asciiLower hempty.namespaced hputs hdotless
  refine ⟨howned, by decide +kernel, ?_⟩
  exact (hothers _ (itemPut "sales") (by simp) "stock" "stock.item.count" (by decide +kernel)
    (by decide +kernel) (by decide +kernel)).1

/-- The module `sales.order` has a permission that is not made up of its parts, and both it
and the module `sales` may submit it. -/
theorem dotted_module_keys_overlap :
    (¬ ∀ (lower : String → String) (db : Database) (puts : List CatalogOperation),
      db.EmptyCatalogue → (∀ op ∈ puts, op.IsPut) → ∀ s ∈ CatalogOperation.states lower db puts,
        ∀ p ∈ s.permissions.rows,
          p.moduleKey ++ "." ++ p.resourceKey ++ "." ++ p.actionKey = p.permissionKey) ∧
    ¬ ∀ (lower : String → String) (s t : Database) (moduleKey other : String)
      (catalog submission : CatalogInput), catalog.Accepted lower s moduleKey →
      submission.Accepted lower t other → ∀ key ∈ catalog.keys, key ∈ submission.keys →
        moduleKey = other := by
  constructor
  · intro h
    have hlast := h asciiLower freshDatabase [itemPut "sales.order"] ⟨rfl, rfl, rfl, rfl⟩ (by
        intro op hop
        rw [List.mem_singleton.mp hop]
        trivial)
      _ (List.mem_cons_of_mem _ List.mem_cons_self)
      ⟨"sales.order.item.read", "sales.order", "order.item", "read", some "Read items", none,
        .active, some "1"⟩ (by decide +kernel)
    revert hlast
    decide
  · intro h
    have hsame := h asciiLower freshDatabase freshDatabase "sales.order" "sales"
      (itemCatalog "sales.order") (itemCatalog "sales") (by unfold CatalogInput.Accepted; decide +kernel)
      (by unfold CatalogInput.Accepted; decide +kernel) "sales.order.item.read" (by decide) (by decide)
    revert hsame
    decide

end VerigenceSecurity
