import VerigenceSecurity.PermissionRetirement
import VerigenceSecurity.TenantIsolation

/-! # The templates that roles are bound to

A role creation binds every template key of its request. An upgrade supersedes the bindings
that it finds and inserts a new one. No index stands behind the two statements, so that one
`CURRENT` binding per template depends on the request and on what is committed in between.
-/

namespace VerigenceSecurity
set_option autoImplicit false

open Transaction Relational Program

inductive BindingCall
  | create (c : AdminCall) (bindingId : Nat → Uuid) (tenantId : Uuid) (roleKey roleName : String)
      (description : Option String) (templateKeys permissionKeys : List String)
  | upgrade (c : AdminCall) (tenantId roleId : Uuid) (templateKey : String)
  | put (put : ModulePut)

def BindingCall.program (lower : String → String) : BindingCall → Tx Unit
  | create c bindingId t key name description templateKeys keys =>
    discard (createTemplateRole c bindingId t key name description templateKeys keys)
  | upgrade c t r key => discard (upgradeTemplate c t r key)
  | put p => discard (p.program lower)

def RoleTemplateBinding.Replaces (b b' : RoleTemplateBinding) : Prop :=
  b.tenantId = b'.tenantId ∧ b.roleId = b'.roleId ∧ b.templateId = b'.templateId

instance (b b' : RoleTemplateBinding) : Decidable (b.Replaces b') :=
  inferInstanceAs (Decidable (_ ∧ _ ∧ _))

namespace Database

/-- A role has at most one `CURRENT` binding of a template. -/
def OneCurrent (db : Database) : Prop :=
  ∀ b ∈ db.roleTemplateBindings.rows, ∀ b' ∈ db.roleTemplateBindings.rows,
    b.status = .current → b'.status = .current → b.Replaces b' → b = b'

instance (db : Database) : Decidable db.OneCurrent :=
  inferInstanceAs (Decidable (∀ b ∈ db.roleTemplateBindings.rows,
    ∀ b' ∈ db.roleTemplateBindings.rows, _))

def HasRole (db : Database) (t r : Uuid) : Prop :=
  ∃ role ∈ db.roles.rows, role.tenantId = t ∧ role.roleId = r

def BindingsOwned (db : Database) : Prop :=
  ∀ b ∈ db.roleTemplateBindings.rows, db.HasRole b.tenantId b.roleId

instance (db : Database) : Decidable db.BindingsOwned :=
  inferInstanceAs (Decidable (∀ b ∈ db.roleTemplateBindings.rows, ∃ role ∈ db.roles.rows, _))

end Database

/-- The catalogue had the template under the version of the binding, and the role carries
every permission that the template had then. -/
def RoleTemplateBinding.Truthful (b : RoleTemplateBinding) (catalogue after : Database) : Prop :=
  ∃ template ∈ catalogue.moduleRoleTemplates.rows, template.templateId = b.templateId ∧
    template.catalogVersion = b.appliedCatalogVersion ∧
      ∀ p ∈ catalogue.moduleRoleTemplatePermissions.rows, p.templateId = b.templateId →
        ⟨b.tenantId, b.roleId, p.permissionKey⟩ ∈ after.rolePermissions.rows

/-! ## What the calls write -/

def Write.OfBindings : Write → Prop
  | insertRole _ | insertRolePermission _ | insertRoleTemplateBinding _
  | supersedeRoleTemplateBindings .. | bumpAuthorizationVersion .. | bumpMembershipVersion ..
  | insertAdminChange _ | upsertModule _ | upsertPermission _ | grantSuperAdminPermission _
  | revokeSuperAdminPermission _ | upsertTemplate _ | deleteTemplatePermissions _
  | insertTemplatePermission _ => True
  | _ => False

structure Grows (before after : Database) : Prop where
  permissions : ∀ row ∈ before.rolePermissions.rows, row ∈ after.rolePermissions.rows
  roles : ∀ t r, before.HasRole t r → after.HasRole t r
  templates : ∀ row ∈ before.moduleRoleTemplates.rows, ∃ row' ∈ after.moduleRoleTemplates.rows,
    row'.templateId = row.templateId ∧ row'.templateKey = row.templateKey

theorem Grows.refl (db : Database) : Grows db db :=
  ⟨fun _ h => h, fun _ _ h => h, fun row h => ⟨row, h, rfl, rfl⟩⟩

theorem Grows.trans {a b c : Database} (h : Grows a b) (k : Grows b c) : Grows a c := by
  refine ⟨fun row hrow => k.permissions row (h.permissions row hrow),
    fun t r hr => k.roles t r (h.roles t r hr), fun row hrow => ?_⟩
  obtain ⟨row', hrow', hid, hkey⟩ := h.templates row hrow
  obtain ⟨row'', hrow'', hid', hkey'⟩ := k.templates row' hrow'
  exact ⟨row'', hrow'', hid'.trans hid, hkey'.trans hkey⟩

theorem grows_apply {w : Write} (h : w.OfBindings) (db : Database) : Grows db (w.apply db) := by
  cases w with
  | insertRole row =>
    refine ⟨fun _ hp => hp, ?_, fun row h => ⟨row, h, rfl, rfl⟩⟩
    rintro t r ⟨role, hrole, hids⟩
    exact ⟨role, Table.mem_insert_of_mem hrole, hids⟩
  | insertRolePermission row =>
    refine ⟨fun p hp => ?_, fun _ _ hr => hr, fun row h => ⟨row, h, rfl, rfl⟩⟩
    simp only [Write.apply, RbacTables.insertRolePermission]
    split
    · exact Table.mem_insert_of_mem hp
    · exact hp
  | upsertTemplate row =>
    refine ⟨fun _ hp => hp, fun _ _ hr => hr, fun old hold => ?_⟩
    simp only [Write.apply, Table.upsert]
    split
    · by_cases hentry : (Index.natural, [row.moduleKey, row.templateKey]) ∈ Row.entries old
      · exact ⟨_, Table.mem_update_set hold (by simpa using hentry), rfl, rfl⟩
      · exact ⟨old, Table.mem_update_of_not hold (by simpa using hentry), rfl, rfl⟩
    · exact ⟨old, Table.mem_insert_of_mem hold, rfl, rfl⟩
  | insertRoleTemplateBinding | supersedeRoleTemplateBindings | bumpAuthorizationVersion
  | bumpMembershipVersion | insertAdminChange | upsertModule | upsertPermission
  | grantSuperAdminPermission | revokeSuperAdminPermission | deleteTemplatePermissions
  | insertTemplatePermission =>
    exact ⟨fun _ hp => hp, fun _ _ hr => hr, fun row h => ⟨row, h, rfl, rfl⟩⟩
  | _ => exact h.elim

theorem grows_replayAll {ws : List Write} (h : ∀ w ∈ ws, w.OfBindings) (db : Database) :
    Grows db (replayAll ws db) :=
  replayAll_keeps (R := Grows db) (fun _ view hw hview => hview.trans (grows_apply hw view)) h
    (Grows.refl db)

/-! ## The bindings after a commit -/

def boundRow? : Write → Option RoleTemplateBinding
  | .insertRoleTemplateBinding row => some row
  | _ => none

def Write.Supersedes (b : RoleTemplateBinding) : Write → Prop
  | supersedeRoleTemplateBindings ids t r template _ =>
    b.bindingId ∈ ids ∧ b.tenantId = t ∧ b.roleId = r ∧ b.templateId = template
  | _ => False

instance (b : RoleTemplateBinding) : DecidablePred (Write.Supersedes b) := by
  intro w
  cases w <;> unfold Write.Supersedes <;> infer_instance

/-- What one `UPDATE` of the bindings leaves. -/
theorem mem_supersede {ids : List Uuid} {t r template : Uuid} {now : Instant} {db : Database}
    {b : RoleTemplateBinding} : b ∈ ((Write.supersedeRoleTemplateBindings ids t r template now).apply
      db).roleTemplateBindings.rows ↔ ∃ o ∈ db.roleTemplateBindings.rows,
        let w := Write.supersedeRoleTemplateBindings ids t r template now
        (w.Supersedes o ∧ o.status = .current ∧
          b = { o with status := .superseded, supersededAt := some now }) ∨
        (¬ (w.Supersedes o ∧ o.status = .current) ∧ b = o) := by
  simp only [Write.apply, Table.mem_update, decide_eq_true_eq, decide_eq_false_iff_not,
    Write.Supersedes, and_assoc]

/-- A binding that is found after a commit was inserted, or it was there, `CURRENT` if it is now. -/
theorem mem_bindings_replayAll {ws : List Write} {db : Database} {b : RoleTemplateBinding}
    (h : b ∈ (replayAll ws db).roleTemplateBindings.rows) :
    ∃ o, (o ∈ ws.filterMap boundRow? ∨ o ∈ db.roleTemplateBindings.rows) ∧
      o.tenantId = b.tenantId ∧ o.roleId = b.roleId ∧ (b.status = .current → b = o) := by
  induction ws generalizing db with
  | nil => exact ⟨b, Or.inr h, rfl, rfl, fun _ => rfl⟩
  | cons w ws ih =>
    obtain ⟨o, ho, ht, hr, hcurrent⟩ := ih h
    rcases ho with ho | ho
    · obtain ⟨w', hw', hrow⟩ := List.mem_filterMap.mp ho
      have hlater := List.mem_filterMap.mpr ⟨w', List.mem_cons_of_mem w hw', hrow⟩
      exact ⟨o, Or.inl hlater, ht, hr, hcurrent⟩
    · cases w with
      | insertRoleTemplateBinding row =>
        rcases Table.mem_insert ho with ho | rfl
        · exact ⟨o, Or.inr ho, ht, hr, hcurrent⟩
        · exact ⟨o, Or.inl List.mem_cons_self, ht, hr, hcurrent⟩
      | supersedeRoleTemplateBindings ids t r template now =>
        obtain ⟨old, hold, ⟨-, -, rfl⟩ | ⟨-, rfl⟩⟩ := mem_supersede.mp ho
        · refine ⟨old, Or.inr hold, ht, hr, fun hb => ?_⟩
          have heq := hcurrent hb
          rw [heq] at hb
          cases hb
        · exact ⟨o, Or.inr hold, ht, hr, hcurrent⟩
      | _ => exact ⟨o, Or.inr ho, ht, hr, hcurrent⟩

def Database.HasSuperseded (db : Database) (b : RoleTemplateBinding) : Prop :=
  ∃ o ∈ db.roleTemplateBindings.rows, o.bindingId = b.bindingId ∧ o.status = .superseded

theorem Database.HasSuperseded.apply {db : Database} {b : RoleTemplateBinding}
    (h : db.HasSuperseded b) (w : Write) : (w.apply db).HasSuperseded b := by
  obtain ⟨o, ho, hid, hstatus⟩ := h
  cases w with
  | insertRoleTemplateBinding row => exact ⟨o, Table.mem_insert_of_mem ho, hid, hstatus⟩
  | supersedeRoleTemplateBindings ids t r template now =>
    refine ⟨o, mem_supersede.mpr ⟨o, ho, Or.inr ⟨?_, rfl⟩⟩, hid, hstatus⟩
    rintro ⟨-, hcurrent⟩
    rw [hcurrent] at hstatus
    cases hstatus
  | _ => exact ⟨o, ho, hid, hstatus⟩

theorem hasSuperseded_replayAll {ws : List Write} {db : Database} {b : RoleTemplateBinding}
    (hb : b ∈ db.roleTemplateBindings.rows) (hcurrent : b.status = .current)
    (h : ∃ w ∈ ws, w.Supersedes b) : (replayAll ws db).HasSuperseded b := by
  have stays : ∀ (ws : List Write) (db : Database), db.HasSuperseded b →
      (replayAll ws db).HasSuperseded b := by
    intro ws
    induction ws with
    | nil => exact fun _ h => h
    | cons w ws ih => exact fun db h => ih _ (h.apply w)
  induction ws generalizing db with
  | nil => exact absurd h.choose_spec.1 List.not_mem_nil
  | cons w ws ih =>
    by_cases hw : w.Supersedes b
    · refine stays ws _ ?_
      cases w with
      | supersedeRoleTemplateBindings ids t r template now =>
        exact ⟨{ b with status := .superseded, supersededAt := some now },
          mem_supersede.mpr ⟨b, hb, Or.inl ⟨hw, hcurrent, rfl⟩⟩, rfl, rfl⟩
      | _ => exact hw.elim
    · have hrest : ∃ w ∈ ws, w.Supersedes b := by
        obtain ⟨w', hw', hsupersedes⟩ := h
        rcases List.mem_cons.mp hw' with rfl | hw'
        · exact absurd hsupersedes hw
        · exact ⟨w', hw', hsupersedes⟩
      refine ih ?_ hrest
      cases w with
      | insertRoleTemplateBinding row => exact Table.mem_insert_of_mem hb
      | supersedeRoleTemplateBindings ids t r template now =>
        exact mem_supersede.mpr ⟨b, hb, Or.inr ⟨fun hboth => hw hboth.1, rfl⟩⟩
      | _ => exact hb

/-- Bindings that differ among themselves, and supersede what they replace, leave one `CURRENT`. -/
theorem oneCurrent_replayAll {ws : List Write} {db : Database} (hdb : db.OneCurrent)
    (hdistinct : ∀ b ∈ ws.filterMap boundRow?, ∀ b' ∈ ws.filterMap boundRow?, b.Replaces b' → b = b')
    (hreplaced : ∀ b ∈ ws.filterMap boundRow?, ∀ b' ∈ db.roleTemplateBindings.rows,
      b'.status = .current → b.Replaces b' → ∃ w ∈ ws, w.Supersedes b') :
    (replayAll ws db).OneCurrent := by
  have gone : ∀ b ∈ ws.filterMap boundRow?, ∀ b' ∈ (replayAll ws db).roleTemplateBindings.rows,
      b' ∈ db.roleTemplateBindings.rows → b'.status = .current → b.Replaces b' → False := by
    intro b hb b' hb' hold hcurrent hsame
    obtain ⟨o, ho, hid, hstatus⟩ :=
      hasSuperseded_replayAll hold hcurrent (hreplaced b hb b' hold hcurrent hsame)
    have heq : o = b' := Table.shared_entry ho hb' (k := (.primary, [b'.bindingId]))
      (by rw [← hid]; exact List.mem_cons_self) List.mem_cons_self
    rw [heq, hcurrent] at hstatus
    cases hstatus
  intro b hb b' hb' hcurrent hcurrent' hsame
  obtain ⟨o, ho, -, -, heq⟩ := mem_bindings_replayAll hb
  obtain ⟨o', ho', -, -, heq'⟩ := mem_bindings_replayAll hb'
  obtain rfl := heq hcurrent
  obtain rfl := heq' hcurrent'
  rcases ho with ho | ho
  · rcases ho' with ho' | ho'
    · exact hdistinct b ho b' ho' hsame
    · exact absurd (gone b ho b' hb' ho' hcurrent' hsame) not_false
  · rcases ho' with ho' | ho'
    · have hsame' : b'.Replaces b := ⟨hsame.1.symm, hsame.2.1.symm, hsame.2.2.symm⟩
      exact absurd (gone b' ho' b hb ho hcurrent hsame') not_false
    · exact hdb b ho b' ho' hcurrent hcurrent' hsame

/-! ## Index entries of new roles -/

/-- A new role locks its index entries and claims that nobody else owns them. -/
def bindingProtocol : Protocol Database Write RowLock where
  needs
    | .insertRole row => (Row.entries row).map fun e => ⟨.roles, e, .update⟩
    | _ => []
  claim
    | .insertRole row, db => (db.roles.insert? row).isSome = true
    | _, _ => True

theorem roleEntries_apply {w : Write} (h : ∀ row, w ≠ .insertRole row) (db : Database) :
    (w.apply db).roles.rows.map Row.entries = db.roles.rows.map Row.entries := by
  cases w with
  | insertRole row => exact absurd rfl (h row)
  | updateRole tenantId roleId name description status now =>
    simp only [Write.apply, RbacTables.updateRole, Table.rows_update, List.map_map]
    apply List.map_congr_left
    intro r _
    simp only [Function.comp]
    split <;> rfl
  | _ => rfl

theorem insertable_apply {w : Write} (h : ∀ row, w ≠ .insertRole row) (db : Database) (row : Role) :
    ((w.apply db).roles.insert? row).isSome = true ↔ (db.roles.insert? row).isSome = true := by
  have hentries : ∀ rows : List Role, (∀ r ∈ rows, ∀ k ∈ Row.entries r, k ∉ Row.entries row) ↔
      ∀ es ∈ rows.map Row.entries, ∀ k ∈ es, k ∉ Row.entries row :=
    fun rows => by rw [List.forall_mem_map]
  rw [Table.isSome_insert?, Table.isSome_insert?, hentries, hentries, roleEntries_apply h]

theorem insertable_of_replayAll {ws : List Write} {db : Database} {row : Role}
    (h : ((replayAll ws db).roles.insert? row).isSome = true) :
    (db.roles.insert? row).isSome = true := by
  induction ws generalizing db with
  | nil => exact h
  | cons w ws ih =>
    have hw := ih h
    by_cases hrole : ∃ row', w = .insertRole row'
    · obtain ⟨row', rfl⟩ := hrole
      rw [Table.isSome_insert?] at hw ⊢
      exact fun r hr => hw r (Table.mem_insert_of_mem hr)
    · exact (insertable_apply (fun row' hrow => hrole ⟨row', hrow⟩) db row).mp hw

theorem bindingProtocol_stable : bindingProtocol.Stable RowLock.conflicts := by
  intro e e' db hlocks hclaim
  cases e with
  | insertRole row =>
    by_cases hrole : ∃ row', e' = .insertRole row'
    · obtain ⟨row', rfl⟩ := hrole
      refine Table.isSome_insert?.mpr fun r hr k hk hk' => ?_
      rcases Table.mem_insert hr with hr | rfl
      · exact Table.isSome_insert?.mp hclaim r hr k hk hk'
      · have hfree := hlocks _ (List.mem_map_of_mem hk') _ (List.mem_map_of_mem hk)
        simp [RowLock.conflicts, LockMode.conflicts] at hfree
    · exact (insertable_apply (fun row' hrow => hrole ⟨row', hrow⟩) db row).mpr hclaim
  | _ => trivial

theorem follows_newRole (c : AdminCall) (t : Uuid) (key name : String)
    (description : Option String) : (insertRole c t key name description).Follows bindingProtocol := by
  apply follows_execute
  intro pending db o ho w hw
  obtain ⟨hunique, -, hedits⟩ := insertRow_ok ho
  rw [hedits, List.mem_singleton] at hw
  rw [hw]
  refine ⟨fun l hl => ?_, insertable_of_replayAll hunique⟩
  obtain ⟨e, he, rfl⟩ := List.mem_map.mp hl
  exact insertRow_locks ho he

def Write.KeepsRoles (w : Write) : Prop := ∀ row, w ≠ .insertRole row

theorem follows_of_keepsRoles {α : Type} {p : Tx α} (h : p.Writes Write.KeepsRoles) :
    p.Follows bindingProtocol := by
  refine h.follows fun w hw => ?_
  cases w with
  | insertRole row => exact absurd rfl (hw row)
  | _ => exact ⟨rfl, fun _ => trivial⟩

/-! ## Writes of the programs -/

section Writes

variable {Q : Write → Prop}

theorem writes_boundRows (c : AdminCall) (bindingId : Nat → Uuid) (t r : Uuid) (found : List Template)
    (hQ : ∀ w : Write, w.OfBindings → w.KeepsRoles → Q w) :
    (each (fun x => bindTemplate c (bindingId x.2) t r x.1) found.zipIdx).Writes Q :=
  writes_each fun _ => writes_bindTemplate
    (fun _ _ => hQ _ trivial fun _ h => nomatch h) fun _ => hQ _ trivial fun _ h => nomatch h

theorem writes_templateAudit (c : AdminCall) (t : Uuid) (key type id : String)
    (hQ : ∀ w : Write, w.OfBindings → w.KeepsRoles → Q w) : (audit c t key type id).Writes Q :=
  writes_insertRow (T := fun db => db.adminChangeRecords) (hQ _ trivial fun _ h => nomatch h)

theorem writes_upgradeTemplate (c : AdminCall) (t r : Uuid) (key : String)
    (hQ : ∀ w : Write, w.OfBindings → w.KeepsRoles → Q w) : (upgradeTemplate c t r key).Writes Q := by
  refine writes_bind writes_query fun template => writes_bind (writes_ensureActivePermissions _)
    fun _ => writes_bind writes_query fun users => writes_bind
      (writes_attempt ?_ writes_rollbackAndRaise) fun _ => writes_query
  refine writes_bind writes_query fun role => ?_
  split
  · exact writes_raise _
  · refine writes_bind (writes_each fun key => writes_execute ?_) fun _ =>
      writes_bind (writes_updateWhere fun _ => hQ _ trivial fun _ h => nomatch h) fun _ =>
        writes_bind (writes_bindTemplate (fun _ _ => hQ _ trivial fun _ h => nomatch h)
          fun _ => hQ _ trivial fun _ h => nomatch h) fun _ =>
            writes_bind (writes_each fun u => writes_execute ?_) fun _ =>
              writes_bind (writes_templateAudit c t _ _ _ hQ) fun _ => writes_commitNow
    · intro db o ho w hw
      dsimp only at ho
      split at ho
      · cases ho
        cases hw
      · rw [(insertRow_ok ho).2.2, List.mem_singleton] at hw
        rw [hw]
        exact hQ _ trivial fun _ h => nomatch h
    · intro db o ho w hw
      cases ho
      rw [List.mem_singleton.mp hw]
      exact hQ _ trivial fun _ h => nomatch h

theorem writes_putPermission (moduleKey catalogVersion : String) (databaseNow : Instant)
    (p : PermissionInput) (hQ : ∀ w : Write, w.OfBindings → w.KeepsRoles → Q w) :
    (putPermission moduleKey catalogVersion databaseNow p).Writes Q := by
  refine writes_bind writes_query fun existing => ?_
  split
  · exact writes_raise _
  · refine writes_bind ?_ fun affected => ?_
    · unfold affectedRoles
      split
      · exact writes_query
      · exact writes_pure _
    · split
      · exact writes_raise _
      · refine writes_execute fun db o ho w hw => ?_
        split at ho
        · cases ho
        · have hcatalog : w.OfCatalog [p.key] :=
            registerPermission_ofCatalog (fits_ok ho).2 (fun _ => List.mem_singleton.mpr rfl) w hw
          cases w with
          | upsertPermission | grantSuperAdminPermission | revokeSuperAdminPermission | upsertModule
          | upsertTemplate | deleteTemplatePermissions | insertTemplatePermission
          | insertAdminChange => exact hQ _ trivial fun _ h => nomatch h
          | _ => exact hcatalog.elim

theorem writes_putCatalog (lower : String → String) (put : ModulePut)
    (hQ : ∀ w : Write, w.OfBindings → w.KeepsRoles → Q w) : (put.program lower).Writes Q := by
  have beside : ∀ {α : Type} {p : Tx α}, p.Within Write.BesidePermissions → p.Writes Q := by
    intro α p hp
    refine Within.writes (hp.weaken fun w hw => ?_)
    cases w with
    | upsertModule | upsertTemplate | deleteTemplatePermissions | insertTemplatePermission
    | insertAdminChange => exact hQ _ trivial fun _ h => nomatch h
    | _ => exact hw.elim
  have nothing : ∀ {α : Type} {p : Tx α}, p.Within (fun _ => False) → p.Writes Q :=
    fun hp => Within.writes (hp.weaken fun _ hw => hw.elim)
  refine writes_bind (nothing (within_validateCatalog lower _ put.catalog)) fun _ => ?_
  refine writes_attempt ?_ writes_rollbackAndRaise
  refine writes_bind (beside (within_upsertModule put.c _ put.catalog)) fun _ =>
    writes_bind (writes_each fun p => writes_putPermission _ _ _ p hQ) fun _ =>
      writes_bind (beside (within_each fun t _ => within_putTemplate (put.freshId t.2) _ _ t.1))
        fun _ => writes_bind writes_query fun row =>
          writes_bind (nothing (within_catalogResponse _ row)) fun response =>
            writes_bind (beside (within_platformAudit put.c _ _ _)) fun _ =>
              writes_bind writes_commitNow fun _ => writes_pure response

end Writes

theorem writes_program (lower : String → String) (call : BindingCall) :
    (call.program lower).Writes Write.OfBindings := by
  cases call with
  | create c bindingId t key name description templateKeys keys =>
    refine TenantOperation.writes_discard ?_
    unfold createTemplateRole
    split
    · exact writes_raise _
    · refine writes_bind (writes_templates templateKeys) fun found =>
        writes_bind (writes_ensureActivePermissions _) fun _ => writes_bind ?_ fun _ => writes_query
      refine writes_attempt ?_ writes_rollbackAndRaise
      refine writes_bind (writes_insertRow (T := fun db => db.roles) trivial) fun _ =>
        writes_bind (writes_each fun _ => writes_insertRow (T := fun db => db.rolePermissions) trivial)
          fun _ => writes_bind (writes_boundRows c bindingId t _ found fun _ hw _ => hw) fun _ =>
            writes_bind (writes_templateAudit c t _ _ _ fun _ hw _ => hw) fun _ => writes_commitNow
  | upgrade c t r key => exact TenantOperation.writes_discard (writes_upgradeTemplate c t r key fun _ hw _ => hw)
  | put p => exact TenantOperation.writes_discard (writes_putCatalog lower p fun _ hw _ => hw)

theorem follows_program (lower : String → String) (call : BindingCall) :
    (call.program lower).Follows bindingProtocol := by
  cases call with
  | create c bindingId t key name description templateKeys keys =>
    refine follows_bind ?_ fun _ => follows_pure _
    unfold createTemplateRole
    split
    · exact follows_raise _
    · refine follows_bind (follows_of_keepsRoles (writes_templates templateKeys)) fun found =>
        follows_bind (follows_of_keepsRoles (writes_ensureActivePermissions _)) fun _ =>
          follows_bind (follows_attempt ?_ fun _ => trivial) fun _ => follows_query
      refine follows_bind (follows_newRole c t key name description) fun _ =>
        follows_of_keepsRoles ?_
      refine writes_bind (writes_each fun _ => writes_insertRow (T := fun db => db.rolePermissions)
          fun _ h => nomatch h) fun _ =>
        writes_bind (writes_boundRows c bindingId t _ found fun _ _ hw => hw) fun _ =>
          writes_bind (writes_templateAudit c t _ _ _ fun _ _ hw => hw) fun _ => writes_commitNow
  | upgrade c t r key =>
    exact follows_of_keepsRoles (TenantOperation.writes_discard (writes_upgradeTemplate c t r key fun _ _ hw => hw))
  | put p => exact follows_of_keepsRoles (TenantOperation.writes_discard (writes_putCatalog lower p fun _ _ hw => hw))

/-! ## What the calls commit -/

def ReadTemplate (g : TxProgress) (key : String) (template : Template) : Prop :=
  Saw g .template fun db => db.template key = .ok template

def Carried (g : TxProgress) (row : RolePermission) : Prop :=
  .insertRolePermission row ∈ g.pending ∨ ∃ e ∈ g.history, row ∈ e.committed.rolePermissions.rows

def BoundTo (t r : Uuid) (g : TxProgress) (key : String) (row : RoleTemplateBinding) : Prop :=
  ∃ template, ReadTemplate g key template ∧ row.tenantId = t ∧ row.roleId = r ∧
    row.templateId = template.templateId ∧ row.appliedCatalogVersion = template.catalogVersion ∧
      ∀ k ∈ template.permissionKeys, Carried g ⟨t, r, k⟩

def Binds (t r : Uuid) (templateKeys : List String) (g : TxProgress) : Prop :=
  List.Forall₂ (BoundTo t r g) templateKeys (g.pending.filterMap boundRow?)

/-- The call supersedes the `CURRENT` bindings that it has found of the role and the template which it
binds. Only permissions of the role were pending then. -/
def SupersedesFound (t r : Uuid) (g : TxProgress) : Prop :=
  ∀ b ∈ g.pending.filterMap boundRow?, ∃ earlier ids now,
    (∀ w ∈ earlier, ∃ row, w = .insertRolePermission row) ∧
    FoundTwice g earlier .supersedeBindings (fun db =>
      (db.roleTemplateBindings.rows.filter fun o => decide (o.tenantId = t ∧ o.roleId = r ∧
        o.templateId = b.templateId ∧ o.status = .current)).map (·.bindingId)) ids ∧
    .supersedeRoleTemplateBindings ids t r b.templateId now ∈ g.pending

def BindingCall.Effect : BindingCall → TxProgress → Prop
  | create c _ t _ _ _ templateKeys _, g =>
    (∃ role rest, role.tenantId = t ∧ role.roleId = c.newId ∧
      g.pending = .insertRole role :: rest) ∧ Binds t c.newId templateKeys g
  | upgrade _ t r key, g =>
    (Saw g .getRole fun db => db.HasRole t r) ∧ Binds t r [key] g ∧ SupersedesFound t r g
  | put _, g => g.pending.filterMap boundRow? = []

theorem mem_templateRows {db : Database} {key : String} {found : TemplateRow} :
    found ∈ db.templateRows key ↔ ∃ row ∈ db.moduleRoleTemplates.rows, row.templateKey = key ∧
      row.status = .active ∧ found.templateId = row.templateId ∧
        found.catalogVersion = row.catalogVersion ∧
          ((found.permissionKey = none ∧
              ∀ p ∈ db.moduleRoleTemplatePermissions.rows, p.templateId ≠ row.templateId) ∨
            ∃ p ∈ db.moduleRoleTemplatePermissions.rows, p.templateId = row.templateId ∧
              found.permissionKey = some p.permissionKey) := by
  simp only [Database.templateRows, List.mem_insertionSort, List.mem_flatMap, List.mem_filter,
    decide_eq_true_eq, and_assoc]
  refine exists_congr fun row => and_congr_right fun _ => and_congr_right fun _ =>
    and_congr_right fun _ => ?_
  obtain ⟨id, version, permissionKey⟩ := found
  split
  · rename_i hnone
    have hfree : ∀ p ∈ db.moduleRoleTemplatePermissions.rows, p.templateId ≠ row.templateId := by
      simpa using hnone
    rw [List.mem_singleton, TemplateRow.mk.injEq]
    constructor
    · rintro ⟨rfl, rfl, rfl⟩
      exact ⟨rfl, rfl, Or.inl ⟨rfl, hfree⟩⟩
    · rintro ⟨rfl, rfl, ⟨rfl, -⟩ | ⟨p, hp, hid, -⟩⟩
      · exact ⟨rfl, rfl, rfl⟩
      · exact absurd hid (hfree p hp)
  · rename_i hsome
    obtain ⟨p₀, hp₀⟩ := List.exists_mem_of_ne_nil _ hsome
    simp only [List.mem_map, List.mem_filter, decide_eq_true_eq, TemplateRow.mk.injEq] at hp₀ ⊢
    constructor
    · rintro ⟨p, ⟨hp, hid⟩, rfl, rfl, rfl⟩
      exact ⟨rfl, rfl, Or.inr ⟨p, hp, hid, rfl⟩⟩
    · rintro ⟨rfl, rfl, ⟨-, hfree⟩ | ⟨p, hp, hid, rfl⟩⟩
      · exact absurd hp₀.2 (hfree p₀ hp₀.1)
      · exact ⟨p, ⟨hp, hid⟩, rfl, rfl, rfl⟩

theorem template_ok {db : Database} {key : String} {template : Template}
    (h : db.template key = .ok template) :
    ∃ row ∈ db.moduleRoleTemplates.rows, row.templateKey = key ∧
      row.templateId = template.templateId ∧ row.catalogVersion = template.catalogVersion ∧
        ∀ p ∈ db.moduleRoleTemplatePermissions.rows, p.templateId = template.templateId →
          p.permissionKey ∈ template.permissionKeys := by
  unfold Database.template at h
  split at h
  · cases h
  · rename_i first rest hrows
    have hfirst : first ∈ db.templateRows key := by
      rw [hrows]
      exact List.mem_cons_self
    obtain ⟨row, hrow, hkey, hactive, hid, hversion, -⟩ := mem_templateRows.mp hfirst
    cases h
    refine ⟨row, hrow, hkey, hid.symm, hversion.symm, fun p hp hp' => ?_⟩
    have hjoined : (⟨row.templateId, row.catalogVersion, some p.permissionKey⟩ : TemplateRow) ∈
        db.templateRows key :=
      mem_templateRows.mpr ⟨row, hrow, hkey, hactive, rfl, rfl, Or.inr ⟨p, hp, hp'.trans hid, rfl⟩⟩
    rw [hrows] at hjoined
    exact List.mem_filterMap.mpr ⟨_, hjoined, rfl⟩

theorem Carried.of_extends {g g' : TxProgress} {es : List Write} {row : RolePermission}
    (h : Carried g row) (hext : g.Extends es g') : Carried g' row := by
  rcases h with h | ⟨e, he, hrow⟩
  · refine Or.inl ?_
    rw [hext.pending]
    exact List.mem_append_left _ h
  · exact Or.inr ⟨e, hext.history e he, hrow⟩

theorem BoundTo.of_extends {t r : Uuid} {g g' : TxProgress} {es : List Write} {key : String}
    {row : RoleTemplateBinding} (h : BoundTo t r g key row) (hext : g.Extends es g') :
    BoundTo t r g' key row := by
  obtain ⟨template, hread, ht, hr, hid, hversion, hcarried⟩ := h
  exact ⟨template, Saw.of_extends hread hext, ht, hr, hid, hversion,
    fun k hk => (hcarried k hk).of_extends hext⟩

theorem templates_reads {keys : List String} {g : TxProgress} (hg : g.pending = []) :
    (templates keys).Upholds ⟨fun _ => True, fun _ => False, fun r g' => ∀ found, r = .ok found →
      g.Extends [] g' ∧ List.Forall₂ (ReadTemplate g') keys found⟩ g := by
  induction keys generalizing g with
  | nil =>
    refine upholds_pure trivial fun found hfound => ?_
    cases hfound
    exact ⟨Progress.Extends.refl g, List.Forall₂.nil⟩
  | cons key keys ih =>
    apply upholds_query_bind trivial
    · intro db first hfirst
      rw [hg] at hfirst
      apply upholds_bind
      refine Upholds.weaken (ih (g := g.failed .template db) hg) (fun _ h => h) (fun _ _ h => h) ?_
      intro r g' _ hr
      cases r with
      | error e => exact fun _ h => nomatch h
      | ok rest =>
        obtain ⟨hext, hreads⟩ := hr rest rfl
        refine upholds_pure trivial fun found hfound => ?_
        cases hfound
        refine ⟨(Progress.Extends.failed .template db g).trans hext, List.Forall₂.cons ?_ hreads⟩
        exact ⟨_, hext.history _ List.mem_cons_self, rfl, hfirst⟩
    · exact fun _ _ _ => ⟨trivial, fun _ h => nomatch h⟩

/-- The rows that the rounds of the binding loop insert. -/
theorem boundRows_flatten {γ : Type} {row : γ → RoleTemplateBinding} {xs : List γ}
    {rounds : List (List Write)}
    (h : List.Forall₂ (fun x ws => ws.filterMap boundRow? = [row x]) xs rounds) :
    rounds.flatten.filterMap boundRow? = xs.map row := by
  induction h with
  | nil => rfl
  | cons hround _ ih => rw [List.flatten_cons, List.filterMap_append, hround, ih]; rfl

theorem boundRow?_bumps (t : Uuid) (users : List Uuid) :
    (users.map (Write.bumpAuthorizationVersion t)).filterMap boundRow? = [] := by
  simp [List.filterMap_map, boundRow?, Function.comp_def]

theorem boundRow?_ending (t : Uuid) (row : AdminChangeRecord) :
    (ending t [] row).filterMap boundRow? = [] := rfl

theorem boundRow?_permissions (t r : Uuid) (keys : List String) :
    (keys.map fun key => Write.insertRolePermission ⟨t, r, key⟩).filterMap boundRow? = [] := by
  simp [List.filterMap_map, boundRow?, Function.comp_def]

theorem commits_create (c : AdminCall) (bindingId : Nat → Uuid) (t : Uuid)
    (key name : String) (description : Option String) (templateKeys keys : List String) :
    (createTemplateRole c bindingId t key name description templateKeys keys).Commits
      (BindingCall.create c bindingId t key name description templateKeys keys).Effect
      Progress.start := by
  unfold createTemplateRole
  split
  · exact commits_raise _
  · apply upholds_bind
    refine Upholds.weaken (templates_reads rfl) (fun _ h => h) (fun _ _ h => h) ?_
    intro result g₀ _ hresult
    cases result with
    | error e => trivial
    | ok found =>
      obtain ⟨hext₀, hreads⟩ := hresult found rfl
      apply commits_ensureActivePermissions_bind
      intro g₁ hext₁
      refine commits_bind_closed (commits_attempt ?_ ?_) fun _ _ => commits_query
      · apply commits_insertRow_bind (T := fun db => db.roles)
        intro db g₂ _ _ hext₂
        apply commits_insertRolePermissions_bind
        intro g₃ hext₃
        refine commits_each_execute_bind (fun x ws => ws.filterMap boundRow? =
          [⟨bindingId x.2, t, c.newId, x.1.templateId, x.1.catalogVersion, .current, c.actorUserId,
            none⟩]) ?_ ?_
        · intro x db' o ho
          rw [insertBinding_ok ho, List.filterMap_cons, boundRow?_bumps]
          rfl
        · intro rounds g₄ hrounds hext₄
          apply commits_audit_bind
          intro g₅ hext₅
          apply commits_commitNow
          have hstart : g₁.pending = [] := by
            rw [(hext₀.trans hext₁).pending]
            rfl
          have hall := ((hext₂.trans hext₃).trans hext₄).trans hext₅
          have hpending := hall.pending
          rw [hstart] at hpending
          refine ⟨⟨_, _, rfl, rfl, hpending⟩, ?_⟩
          have hrows : g₅.pending.filterMap boundRow? = found.zipIdx.map fun x =>
              ⟨bindingId x.2, t, c.newId, x.1.templateId, x.1.catalogVersion, .current,
                c.actorUserId, none⟩ := by
            rw [hpending, List.nil_append, List.filterMap_append, List.filterMap_append,
              List.filterMap_append, boundRow?_permissions, boundRows_flatten hrounds,
              boundRow?_ending, List.append_nil]
            rfl
          have hcarried : ∀ template ∈ found, ∀ k ∈ template.permissionKeys,
              Carried g₅ ⟨t, c.newId, k⟩ := by
            intro template htemplate k hk
            refine Or.inl ?_
            rw [hpending]
            simp only [List.nil_append, List.mem_append, List.mem_map]
            refine Or.inl (Or.inl (Or.inr ⟨k, mem_sortedSet.mpr ?_, rfl⟩))
            exact List.mem_append_right _ (List.mem_flatMap.mpr ⟨template, htemplate, hk⟩)
          have hfound : List.Forall₂ (fun key x => ReadTemplate g₀ key x.1) templateKeys
              found.zipIdx := by
            rw [← List.forall₂_map_right_iff (f := Prod.fst) (R := ReadTemplate g₀),
              List.zipIdx_map_fst]
            exact hreads
          obtain ⟨hlength, hpairs⟩ := List.forall₂_iff_zip.mp hfound
          unfold Binds
          rw [hrows, List.forall₂_map_right_iff]
          refine List.forall₂_iff_zip.mpr ⟨hlength, fun {key x} hzip => ?_⟩
          refine ⟨x.1, Saw.of_extends (hpairs hzip) (hext₁.trans hall), rfl, rfl, rfl, rfl, ?_⟩
          exact hcarried x.1 (List.fst_mem_of_mem_zipIdx (List.of_mem_zip hzip).2)
      · exact fun e _ => commits_rollbackNow_bind (commits_raise e)

theorem mem_rolePermissions_replayAll {ws : List Write} {db : Database} {row : RolePermission}
    (h : row ∈ (replayAll ws db).rolePermissions.rows) :
    .insertRolePermission row ∈ ws ∨ row ∈ db.rolePermissions.rows := by
  induction ws generalizing db with
  | nil => exact Or.inr h
  | cons w ws ih =>
    rcases ih h with h | h
    · exact Or.inl (List.mem_cons_of_mem w h)
    · cases w with
      | insertRolePermission added =>
        simp only [replay_eq, Write.apply, RbacTables.insertRolePermission] at h
        split at h
        · rcases Table.mem_insert h with h | rfl
          · exact Or.inr h
          · exact Or.inl List.mem_cons_self
        · exact Or.inr h
      | deleteRolePermission => exact Or.inr (Table.mem_delete.mp h).1
      | _ => exact Or.inr h

/-- The loop of an upgrade carries the keys that it has gone through, and writes nothing else. -/
theorem commits_keepRolePermissions_bind {α : Type} {P : TxProgress → Prop} {g : TxProgress}
    {t r : Uuid} {keys : List String} {k : Unit → Tx α}
    (h : ∀ es g', g.Extends es g' → (∀ w ∈ es, ∃ row, w = .insertRolePermission row) →
      (∀ key ∈ keys, Carried g' ⟨t, r, key⟩) → (k ()).Commits P g') :
    (each (keepRolePermission t r) keys >>= k).Commits P g := by
  refine commits_each_bind (fun seen g' =>
    (∃ es, g.Extends es g' ∧ ∀ w ∈ es, ∃ row, w = .insertRolePermission row) ∧
      ∀ key ∈ seen, Carried g' ⟨t, r, key⟩) ?_ ?_
        ⟨⟨[], Progress.Extends.refl g, List.forall_mem_nil _⟩, fun _ h => nomatch h⟩
  · rintro seen key g' - ⟨⟨es, hext, hes⟩, hcarried⟩
    refine upholds_execute trivial ?_ fun _ _ _ => ⟨trivial, fun _ hu => nomatch hu⟩
    intro db o ho
    have hran := Progress.Extends.ran .insertRolePermission db o g'
    have hround : (∀ w ∈ o.edits, ∃ row, w = .insertRolePermission row) ∧
        Carried (g'.ran .insertRolePermission db o) ⟨t, r, key⟩ := by
      dsimp only at ho
      split at ho
      · rename_i hfound
        cases ho
        refine ⟨List.forall_mem_nil _, ?_⟩
        rcases mem_rolePermissions_replayAll hfound with hpending | hcommitted
        · exact Carried.of_extends (Or.inl hpending) hran
        · exact Or.inr ⟨_, List.mem_cons_self, hcommitted⟩
      · have hedits := (insertRow_ok ho).2.2
        constructor
        · rw [hedits]
          exact List.forall_mem_singleton.mpr ⟨_, rfl⟩
        · left
          rw [hran.pending, hedits]
          exact List.mem_append_right _ List.mem_cons_self
    refine ⟨trivial, fun _ _ => ⟨⟨_, hext.trans hran, ?_⟩, fun key' hkey' => ?_⟩⟩
    · exact List.forall_mem_append.mpr ⟨hes, hround.1⟩
    · rcases List.mem_append.mp hkey' with hkey' | hkey'
      · exact (hcarried key' hkey').of_extends hran
      · rw [List.mem_singleton.mp hkey']
        exact hround.2
  · rintro g' ⟨⟨es, hext, hes⟩, hcarried⟩
    exact h es g' hext hes hcarried

theorem commits_upgrade (c : AdminCall) (t r : Uuid) (key : String) :
    (upgradeTemplate c t r key).Commits (BindingCall.upgrade c t r key).Effect Progress.start := by
  apply commits_query_bind
  intro db₀ template htemplate
  apply commits_ensureActivePermissions_bind
  intro g₁ hext₁
  apply commits_query_bind
  intro db₁ users _
  refine commits_bind_closed (commits_attempt ?_ ?_) fun _ _ => commits_query
  · apply commits_query_bind
    intro db₂ role hrole
    cases role with
    | none => exact commits_raise _
    | some role =>
      apply commits_keepRolePermissions_bind
      intro es g₂ hext₂ hes hcarried
      apply commits_foundTwice_bind
      intro ids g₃ hfound hext₃
      apply commits_execute_bind
      intro db₃ o ho
      have hext₄ := Progress.Extends.ran .bind db₃ o g₃
      refine commits_each_writes_bind (fun u => [.bumpMembershipVersion t u]) ?_ ?_
      · intro u db o ho
        cases ho
        rfl
      · intro g₅ hext₅
        apply commits_audit_bind
        intro g₆ hext₆
        apply commits_commitNow
        have hstart : g₁.pending = [] := by
          rw [hext₁.pending]
          rfl
        have hlater := ((hext₃.trans hext₄).trans hext₅).trans hext₆
        have hqueries := (Progress.Extends.failed .affectedUsers db₁ g₁).trans
          (Progress.Extends.failed .getRole db₂ _)
        have hall := hqueries.trans (hext₂.trans hlater)
        have hearlier : g₂.pending = es := by
          rw [hext₂.pending]
          exact congrArg (· ++ es) hstart
        have hkept : es.filterMap boundRow? = [] := by
          refine List.filterMap_eq_nil_iff.mpr fun w hw => ?_
          obtain ⟨row, rfl⟩ := hes w hw
          rfl
        have hmembers : ((sortedSet users).flatMap fun u =>
            [Write.bumpMembershipVersion t u]).filterMap boundRow? = [] := by
          simp [List.filterMap_flatMap, boundRow?]
        have hrows : g₆.pending.filterMap boundRow? = [⟨c.newId, t, r, template.templateId,
            template.catalogVersion, .current, c.actorUserId, none⟩] := by
          rw [hall.pending, hstart, insertBinding_ok ho]
          simp only [List.filterMap_append, hkept, hmembers, boundRow?_ending, boundRow?_bumps,
            List.filterMap_cons, List.filterMap_nil, List.append_nil, List.nil_append, boundRow?]
        refine ⟨Saw.of_extends ⟨_, List.mem_cons_self, rfl, ?_⟩ (hext₂.trans hlater), ?_, ?_⟩
        · have hfound : db₂.roleRow? t r = some role := by
            have hview := Except.ok.inj hrole
            change (replayAll g₁.pending db₂).roleRow? t r = some role at hview
            rwa [hstart] at hview
          have hids := List.find?_some hfound
          exact ⟨role, List.mem_of_find?_eq_some hfound, of_decide_eq_true hids⟩
        · unfold Binds
          rw [hrows]
          refine List.Forall₂.cons ⟨template, ?_, rfl, rfl, rfl, rfl, ?_⟩ List.Forall₂.nil
          · exact Saw.of_extends ⟨_, List.mem_cons_self, rfl, htemplate⟩ (hext₁.trans hall)
          · intro k hk
            exact (hcarried k (mem_sortedSet.mpr hk)).of_extends hlater
        · unfold SupersedesFound
          rw [hrows]
          refine List.forall_mem_singleton.mpr ⟨es, ids, c.now, hes, ?_, ?_⟩
          · rw [hearlier] at hfound
            exact hfound.extends ((hext₄.trans hext₅).trans hext₆)
          · rw [((hext₄.trans hext₅).trans hext₆).pending, hext₃.pending]
            exact List.mem_append_left _ (List.mem_append_right _ List.mem_cons_self)
  · exact fun e _ => commits_rollbackNow_bind (commits_raise e)

/-- Whatever the others commit meanwhile, a call commits its effect. -/
theorem BindingCall.commits (lower : String → String) (call : BindingCall) :
    (call.program lower).Commits call.Effect Progress.start := by
  cases call with
  | create => exact commits_discard (commits_create ..)
  | upgrade => exact commits_discard (commits_upgrade ..)
  | put p =>
    refine (putCatalog_checks lower p).weaken fun g hchecked => ?_
    refine List.filterMap_eq_nil_iff.mpr fun w hw => ?_
    have hcatalog := hchecked.writes w hw
    cases w with
    | insertRoleTemplateBinding => exact hcatalog.elim
    | _ => rfl

end VerigenceSecurity
