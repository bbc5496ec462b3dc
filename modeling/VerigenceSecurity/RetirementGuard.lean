import VerigenceSecurity.Library.Failures
import VerigenceSecurity.PermissionRetirement

/-! # The retirement guard is exact

The query of the guard and the joins behind the tokens agree on who holds a permission,
so a put is refused because of a retirement exactly when somebody does.
-/

namespace VerigenceSecurity
set_option autoImplicit false

open Transaction Relational Program

/-- Some user of some tenant has an effective role that carries the permission. -/
def Database.SomebodyHolds (db : Database) (key : String) (now : Instant) : Prop :=
  ∃ tenantId userId, ∃ r ∈ db.effectiveTenantRoles tenantId userId now,
    db.RoleHasPermission tenantId r.roleId key

/-! ## The two queries -/

section Queries

variable {db : Database} {now : Instant} {key : String}

theorem roleAssigned_iff {r : Role} :
    db.roleAssigned r now = true ↔ ∃ u, db.DirectRole r.tenantId now u r.roleId := by
  simp only [Database.roleAssigned, Database.DirectRole, List.any_eq_true, Bool.and_eq_true,
    decide_eq_true_eq]
  constructor
  · rintro ⟨ura, hura, ⟨ht, hr, hs⟩, hvalid⟩
    exact ⟨ura.userId, ura, hura, ht, rfl, hr, hs, hvalid⟩
  · rintro ⟨u, ura, hura, ht, _, hr, hs, hvalid⟩
    exact ⟨ura, hura, ⟨ht, hr, hs⟩, hvalid⟩

theorem roleGrouped_iff {r : Role} : db.roleGrouped r now = true ↔
    ∃ u g, db.GroupMember r.tenantId now u g ∧ db.GroupActive r.tenantId g ∧
      db.GroupRole r.tenantId g r.roleId := by
  simp only [Database.roleGrouped, Database.GroupMember, Database.GroupActive, Database.GroupRole,
    List.any_eq_true, Bool.and_eq_true, decide_eq_true_eq]
  constructor
  · rintro ⟨gra, hgra, ⟨ht, hr, hs⟩, g, hg, ⟨hgt, hgg, hgs⟩, gm, hgm, ⟨hmt, hmg, hms⟩, hvalid⟩
    have hgroup := hgt.trans ht
    exact ⟨gm.userId, g.groupId, ⟨gm, hgm, hmt.trans hgroup, rfl, hmg, hms, hvalid⟩,
      ⟨g, hg, hgroup, rfl, hgs⟩, ⟨gra, hgra, ht, hgg.symm, hr, hs⟩⟩
  · rintro ⟨u, i, ⟨gm, hgm, hmt, _, hmg, hms, hvalid⟩, ⟨g, hg, hgt, hgg, hgs⟩,
      ⟨gra, hgra, ht, hrg, hr, hs⟩⟩
    exact ⟨gra, hgra, ⟨ht, hr, hs⟩, g, hg, ⟨hgt.trans ht.symm, hgg.trans hrg.symm, hgs⟩, gm, hgm,
      ⟨hmt.trans hgt.symm, hmg.trans hgg.symm, hms⟩, hvalid⟩

theorem inUse_iff_somebodyHolds : db.InUse key now ↔ db.SomebodyHolds key now := by
  constructor
  · rintro ⟨r, hr, hactive, hcarries, hheld⟩
    obtain ⟨u, hreaches⟩ : ∃ u, (db.accessGraph r.tenantId now).Reaches u r.roleId := by
      rcases hheld with hdirect | hgrouped
      · obtain ⟨u, hu⟩ := roleAssigned_iff.mp hdirect
        exact ⟨u, Or.inl hu⟩
      · obtain ⟨u, g, hmember, hgroup, hrole⟩ := roleGrouped_iff.mp hgrouped
        exact ⟨u, Or.inr ⟨g, hmember, hgroup, hrole⟩⟩
    exact ⟨r.tenantId, u, r, Database.mem_effectiveTenantRoles.mpr ⟨hr, rfl, hactive, hreaches⟩,
      _, hcarries, rfl, rfl, rfl⟩
  · rintro ⟨t, u, r, hmem, ⟨_, _, _⟩, hcarries, rfl, rfl, rfl⟩
    obtain ⟨hr, rfl, hactive, hreaches⟩ := Database.mem_effectiveTenantRoles.mp hmem
    refine ⟨r, hr, hactive, hcarries, ?_⟩
    rcases hreaches with hdirect | ⟨g, hmember, hgroup, hrole⟩
    · exact Or.inl (roleAssigned_iff.mpr ⟨u, hdirect⟩)
    · exact Or.inr (roleGrouped_iff.mpr ⟨u, g, hmember, hgroup, hrole⟩)

theorem effectiveRoleReferences_iff :
    db.effectiveRoleReferences key now ≠ [] ↔ db.SomebodyHolds key now := by
  rw [Ne, effectiveRoleReferences_eq_nil_iff, not_not, inUse_iff_somebodyHolds]

end Queries

/-! ## Which failures a put raises -/

def Failure.isConflict : Failure → Bool
  | .retirementConflict _ _ => true
  | _ => false

abbrev Tx.RaisesNoConflict {α : Type} (p : Tx α) : Prop :=
  p.Raises fun e => e.isConflict = false

theorem insertRow_noConflict {ρ : Type} [Row ρ] {table : Rows ρ} {row : ρ}
    {references : List Reference} {write : Write} {e : Failure}
    (h : insertRow table row references write = .error e) : e.isConflict = false := by
  unfold insertRow at h
  split at h
  · cases h
    rfl
  · split at h <;> cases h
    rfl

theorem upsertRow_noConflict {ρ : Type} [Row ρ] {table : Rows ρ} {entry : IndexEntry} {row : ρ}
    {references : List Reference} {write : Write} {e : Failure}
    (h : upsertRow table entry row references write = .error e) : e.isConflict = false := by
  unfold upsertRow at h
  split at h
  · cases h
  · exact insertRow_noConflict h

theorem putTemplate_noConflict (freshId : Uuid) (moduleKey catalogVersion : String)
    (t : RoleTemplateInput) :
    Tx.RaisesNoConflict (putTemplate freshId moduleKey catalogVersion t) := by
  refine raises_bind ?_ fun templateId => raises_bind ?_ fun _ => raises_each fun key _ => ?_
  · refine raises_bind (raises_execute fun db e he => nomatch he) fun existing => ?_
    refine raises_bind (raises_execute fun db e he => ?_) fun _ => raises_pure _
    split at he
    · cases he
      rfl
    · exact upsertRow_noConflict he
  · exact raises_execute fun db e he => nomatch he
  · exact raises_execute fun db e he => insertRow_noConflict he

theorem catalogResponse_noConflict (moduleKey : String) (row : Option Module) :
    Tx.RaisesNoConflict (catalogResponse moduleKey row) :=
  raises_bind (raises_query fun _ _ he => nomatch he) fun _ =>
    raises_bind (raises_query fun _ _ he => nomatch he) fun _ => raises_pure _

theorem platformAudit_noConflict (c : AdminCall) (operationKey resourceType resourceId : String) :
    Tx.RaisesNoConflict (platformAudit c operationKey resourceType resourceId) :=
  raises_execute fun _ _ he => insertRow_noConflict he

/-! ## The loop over the permissions -/

/-- The submitted permission is retired while somebody holds it. -/
def PermissionInput.Conflicts (p : PermissionInput) (db : Database) (now : Instant) : Prop :=
  p.status = "RETIRED" ∧ db.SomebodyHolds p.key now

/-- The columns take the texts of the permission, written or not, and the trigger can give it to the
super admin if it has to. -/
def Database.Admits (db : Database) (moduleKey catalogVersion : String) (p : PermissionInput) : Prop :=
  (permissionRow moduleKey catalogVersion p .active).fits = true ∧
    (p.status = "ACTIVE" → db.Registers moduleKey p →
      db.PlatformGrant superAdminRoleKey p.key ∨
        (db.platformRoleReference superAdminRoleKey).present = true)

section Loop

variable {db view : Database} {moduleKey catalogVersion : String} {databaseNow : Instant}
  {seen : List PermissionInput} {p : PermissionInput} {s : Session Database}

theorem Catalogued.somebodyHolds_iff (h : Catalogued db moduleKey seen view) (key : String)
    (now : Instant) : view.SomebodyHolds key now ↔ db.SomebodyHolds key now := by
  rw [← inUse_iff_somebodyHolds, ← inUse_iff_somebodyHolds]
  simp only [Database.InUse, Database.roleAssigned, Database.roleGrouped]
  rw [h.rbac]

theorem Catalogued.admits_iff (h : Catalogued db moduleKey seen view)
    (hfresh : ∀ q ∈ seen, q.key ≠ p.key) :
    view.Admits moduleKey catalogVersion p ↔ db.Admits moduleKey catalogVersion p := by
  obtain ⟨hrow, hgrant⟩ := h.others p.key fun q hq heq => absurd heq (hfresh q hq)
  have hroles : (view.platformRoleReference superAdminRoleKey).present =
      (db.platformRoleReference superAdminRoleKey).present := by
    unfold Database.platformRoleReference
    rw [h.platformRoles]
  unfold Database.Admits
  rw [Database.registers_congr hrow, hgrant, hroles]

/-- A round of the loop that succeeds. -/
theorem Catalogued.put {t : Session Database} (h : Catalogued db moduleKey seen s.view)
    (hfresh : ∀ q ∈ seen, q.key ≠ p.key)
    (hput : (putPermission moduleKey catalogVersion databaseNow p).exec s = (.ok (), t)) :
    Catalogued db moduleKey (seen ++ [p]) t.view := by
  have hregisters := @Database.registers_congr _ _ moduleKey _ (h.fresh_row hfresh)
  obtain ⟨_, ⟨hnot, hview⟩ | ⟨hyes, status, hstatus, hregistered⟩⟩ := putPermission_ok hput
  · rw [hview]
    exact h.skip fun hc => hnot (hregisters.mpr hc)
  · exact h.register hfresh (hregisters.mp hyes) hstatus hregistered

theorem upsertRow_ok {ρ : Type} [Row ρ] {table : Rows ρ} {entry : IndexEntry} {row : ρ}
    {references : List Reference} (write : Write) (hentries : Row.entries row = [entry])
    (hreferences : references.all (·.present) = true) :
    ∃ o, upsertRow table entry row references write = .ok o := by
  unfold upsertRow
  split
  · exact ⟨_, rfl⟩
  · rename_i hfree
    have hunique : (table.insert? row).isSome = true := by
      rw [Table.isSome_insert?_iff_taken, hentries]
      intro k hk htaken
      obtain ⟨r, hr, hkr⟩ := Table.mem_taken.mp htaken
      obtain rfl := List.mem_singleton.mp hk
      exact hfree (List.any_eq_true.mpr ⟨r, hr, decide_eq_true hkr⟩)
    simp [insertRow, hunique, hreferences]

/-- The trigger is only refused when it has to give the permission to a role that is not stored. -/
theorem syncSuperAdminPermission_ok_iff {row : Permission} :
    (∃ o, syncSuperAdminPermission db row = .ok o) ↔ (row.status = .active →
      db.PlatformGrant superAdminRoleKey row.permissionKey ∨
        (db.platformRoleReference superAdminRoleKey).present = true) := by
  unfold syncSuperAdminPermission
  cases row.status with
  | deprecated | retired => simp
  | active =>
    simp only [true_implies]
    split
    · rename_i hgranted
      exact ⟨fun _ => Or.inl hgranted, fun _ => ⟨_, rfl⟩⟩
    · rename_i hnone
      constructor
      · rintro ⟨o, ho⟩
        have hpresent := (insertRow_ok ho).2.1
        exact Or.inr (by simpa using hpresent)
      · rintro (hgranted | hpresent)
        · exact absurd hgranted hnone
        · have hunique : (db.platformRolePermissions.insert?
              ⟨superAdminRoleKey, row.permissionKey⟩).isSome = true := by
            rw [Table.isSome_insert?]
            intro r hr k hkr hk
            obtain rfl := List.mem_singleton.mp hk
            simp only [Row.entries, List.mem_singleton, Prod.mk.injEq, List.cons.injEq, and_true,
              true_and] at hkr
            obtain ⟨hrole, hkey⟩ := hkr
            obtain rfl : r = ⟨superAdminRoleKey, row.permissionKey⟩ := by
              cases r
              simp_all
            exact hnone hr
          simp [insertRow, hunique, hpresent]

theorem registerPermission_ok_iff {row : Permission} : (∃ o, registerPermission db row = .ok o) ↔
    ((∀ stored ∈ db.permissionRow? row.permissionKey, row.sameAction stored) →
      ∃ o, syncSuperAdminPermission db row = .ok o) := by
  unfold registerPermission
  split
  · rename_i hsame
    obtain ⟨written, hwritten⟩ : ∃ o, upsertRow db.permissions (.primary, [row.permissionKey]) row []
        (.upsertPermission row) = .ok o := upsertRow_ok _ rfl rfl
    rw [hwritten]
    constructor
    · rintro ⟨o, ho⟩ _
      cases hsync : syncSuperAdminPermission db row with
      | error e =>
        rw [hsync] at ho
        cases ho
      | ok synced => exact ⟨synced, rfl⟩
    · intro h
      obtain ⟨synced, hsync⟩ := h hsame
      rw [hsync]
      exact ⟨_, rfl⟩
  · rename_i hdiffers
    exact ⟨fun _ hsame => absurd hsame hdiffers, fun _ => ⟨_, rfl⟩⟩

theorem registerPermission_noConflict {row : Permission} {e : Failure}
    (h : registerPermission db row = .error e) : e.isConflict = false := by
  unfold registerPermission at h
  split at h
  · cases hupsert : upsertRow db.permissions (.primary, [row.permissionKey]) row []
        (.upsertPermission row) with
    | error f =>
      rw [hupsert] at h
      cases h
      exact upsertRow_noConflict hupsert
    | ok written =>
      cases hsync : syncSuperAdminPermission db row with
      | error f =>
        rw [hupsert, hsync] at h
        cases h
        unfold syncSuperAdminPermission at hsync
        cases hstatus : row.status with
        | deprecated | retired => simp [hstatus] at hsync
        | active =>
          simp only [hstatus] at hsync
          split at hsync
          · cases hsync
          · exact insertRow_noConflict hsync
      | ok synced =>
        rw [hupsert, hsync] at h
        cases h
  · cases h

/-- The upsert of a permission with a status of the lifecycle. -/
theorem exec_upsertPermission (moduleKey catalogVersion : String) (s : Session Database)
    (hstatus : LifecycleStatus.ofText? p.status ≠ none) :
    (∃ t, (upsertPermission moduleKey catalogVersion p).exec s = (.ok (), t)) ↔
      s.view.Admits moduleKey catalogVersion p := by
  obtain ⟨status, hsome⟩ := Option.ne_none_iff_exists'.mp hstatus
  have hfits : (permissionRow moduleKey catalogVersion p status).fits =
      (permissionRow moduleKey catalogVersion p .active).fits := rfl
  have hrun : (∃ t, (upsertPermission moduleKey catalogVersion p).exec s = (.ok (), t)) ↔
      (permissionRow moduleKey catalogVersion p .active).fits = true ∧
        ∃ o, registerPermission s.view (permissionRow moduleKey catalogVersion p status) = .ok o := by
    simp only [upsertPermission, exec_execute, hsome, hfits]
    cases (permissionRow moduleKey catalogVersion p .active).fits with
    | false => simp
    | true =>
      cases registerPermission s.view (permissionRow moduleKey catalogVersion p status) with
      | error e => simp
      | ok o => simp
  rw [hrun, registerPermission_ok_iff, syncSuperAdminPermission_ok_iff]
  refine and_congr_right fun _ => ?_
  constructor
  · intro h hactive hregisters
    exact h hregisters ((ofText?_active_iff hsome).mpr hactive)
  · intro h hregisters hactive
    exact h ((ofText?_active_iff hsome).mp hactive) hregisters

theorem upsertPermission_noConflict (moduleKey catalogVersion : String) (p : PermissionInput) :
    Tx.RaisesNoConflict (upsertPermission moduleKey catalogVersion p) := by
  refine raises_execute fun db e he => ?_
  split at he
  · cases he
    rfl
  · dsimp only at he
    split at he
    · cases he
      rfl
    · exact registerPermission_noConflict he

/-- One round of the loop, for a permission that the module may write. -/
theorem exec_putPermission (catalogVersion : String) (databaseNow : Instant)
    (h : Catalogued db moduleKey seen s.view)
    (hfresh : ∀ q ∈ seen, q.key ≠ p.key)
    (howned : ∀ stored ∈ db.permissionRow? p.key, stored.moduleKey = moduleKey) :
    (p.Conflicts db databaseNow → ∃ affected,
      (putPermission moduleKey catalogVersion databaseNow p).exec s =
        (.error (.retirementConflict p.key affected), s)) ∧
    (¬ p.Conflicts db databaseNow →
      (putPermission moduleKey catalogVersion databaseNow p).exec s =
        (upsertPermission moduleKey catalogVersion p).exec s) := by
  have hrow : (s.view.permissionRow? p.key).any (fun e => decide (e.moduleKey ≠ moduleKey)) =
      false := by
    rw [h.fresh_row hfresh]
    cases hstored : db.permissionRow? p.key with
    | none => rfl
    | some stored => simp [howned stored hstored]
  have hheld : s.view.effectiveRoleReferences p.key databaseNow ≠ [] ↔
      db.SomebodyHolds p.key databaseNow := by
    rw [effectiveRoleReferences_iff, h.somebodyHolds_iff]
  unfold putPermission permission
  rw [exec_bind, exec_query]
  simp only [hrow, Bool.false_eq_true, if_false]
  rw [exec_bind]
  unfold affectedRoles
  constructor
  · rintro ⟨hretired, hholds⟩
    rw [if_pos hretired, exec_query]
    simp only [if_pos (hheld.mpr hholds)]
    exact ⟨_, rfl⟩
  · intro hnone
    by_cases hretired : p.status = "RETIRED"
    · have hempty : ¬ s.view.effectiveRoleReferences p.key databaseNow ≠ [] :=
        fun hne => hnone ⟨hretired, hheld.mp hne⟩
      rw [if_pos hretired, exec_query]
      simp only [if_neg hempty]
    · rw [if_neg hretired]
      simp

/-- The loop ends with a conflict where a conflicting permission comes after none but admitted
ones. -/
theorem exec_putPermissions (catalogVersion : String) (databaseNow : Instant)
    {rest : List PermissionInput} (h : Catalogued db moduleKey seen s.view)
    (hkeys : ((seen ++ rest).map (·.key)).Nodup)
    (hstatus : ∀ p ∈ rest, LifecycleStatus.ofText? p.status ≠ none)
    (howned : ∀ p ∈ rest, ∀ stored ∈ db.permissionRow? p.key, stored.moduleKey = moduleKey) :
    (∃ e t, (each (putPermission moduleKey catalogVersion databaseNow) rest).exec s =
        (.error e, t) ∧ e.isConflict = true) ↔
      ∃ before p after, rest = before ++ p :: after ∧ p.Conflicts db databaseNow ∧
        ∀ q ∈ before, db.Admits moduleKey catalogVersion q := by
  induction rest generalizing seen s with
  | nil => simp [each]
  | cons p rest ih =>
    have hfresh : ∀ q ∈ seen, q.key ≠ p.key := by
      intro q hq
      rw [List.map_append, List.map_cons, List.nodup_append] at hkeys
      exact hkeys.2.2 q.key (List.mem_map_of_mem hq) p.key List.mem_cons_self
    obtain ⟨hconflict, hwrite⟩ := exec_putPermission catalogVersion databaseNow h hfresh
      (howned p List.mem_cons_self)
    have hadmits := (exec_upsertPermission moduleKey catalogVersion s
      (hstatus p List.mem_cons_self)).trans (h.admits_iff hfresh)
    unfold each
    rw [exec_bind]
    by_cases hp : p.Conflicts db databaseNow
    · obtain ⟨affected, hrun⟩ := hconflict hp
      rw [hrun]
      exact ⟨fun _ => ⟨[], p, rest, rfl, hp, fun _ hq => nomatch hq⟩, fun _ => ⟨_, s, rfl, rfl⟩⟩
    · rw [hwrite hp]
      have hsplit : (∃ before q after, p :: rest = before ++ q :: after ∧ q.Conflicts db databaseNow ∧
            ∀ r ∈ before, db.Admits moduleKey catalogVersion r) ↔ db.Admits moduleKey catalogVersion p ∧
          ∃ before q after, rest = before ++ q :: after ∧ q.Conflicts db databaseNow ∧
            ∀ r ∈ before, db.Admits moduleKey catalogVersion r := by
        constructor
        · rintro ⟨before, q, after, heq, hq, hbefore⟩
          cases before with
          | nil =>
            obtain ⟨rfl, rfl⟩ := List.cons.inj heq
            exact absurd hq hp
          | cons r before =>
            obtain ⟨rfl, rfl⟩ := List.cons.inj heq
            exact ⟨hbefore p List.mem_cons_self, before, q, after, rfl, hq,
              fun r hr => hbefore r (List.mem_cons_of_mem p hr)⟩
        · rintro ⟨hadmitted, before, q, after, rfl, hq, hbefore⟩
          refine ⟨p :: before, q, after, rfl, hq, fun r hr => ?_⟩
          rcases List.mem_cons.mp hr with rfl | hr
          · exact hadmitted
          · exact hbefore r hr
      rw [hsplit]
      cases hrun : (upsertPermission moduleKey catalogVersion p).exec s with
      | mk r t =>
        cases r with
        | error e =>
          have hnot : ¬ db.Admits moduleKey catalogVersion p := by
            intro hyes
            obtain ⟨u, hu⟩ := hadmits.mpr hyes
            rw [hrun] at hu
            cases hu
          have hplain := (upsertPermission_noConflict moduleKey catalogVersion p).exec hrun
          constructor
          · rintro ⟨f, u, hf, hconflicts⟩
            cases hf
            rw [hplain] at hconflicts
            cases hconflicts
          · rintro ⟨hyes, _⟩
            exact absurd hyes hnot
        | ok u =>
          have hyes : db.Admits moduleKey catalogVersion p := hadmits.mp ⟨t, hrun⟩
          have hput : (putPermission moduleKey catalogVersion databaseNow p).exec s = (.ok (), t) := by
            rw [hwrite hp, hrun]
          have hnext : Catalogued db moduleKey (seen ++ [p]) t.view := h.put hfresh hput
          rw [and_iff_right hyes]
          exact ih hnext (by simpa using hkeys) (fun q hq => hstatus q (List.mem_cons_of_mem p hq))
            fun q hq => howned q (List.mem_cons_of_mem p hq)

end Loop

/-! ## The put -/

/-- The columns take the texts of the module, and the acting user is stored. -/
def Database.AdmitsModule (db : Database) (c : AdminCall) (moduleKey : String)
    (catalog : CatalogInput) : Prop :=
  (Module.mk moduleKey (strip catalog.moduleName) (strip catalog.catalogVersion) .active).fits = true ∧
    (db.userReference c.actorUserId).present = true

theorem upsertModule_outcomes (c : AdminCall) (moduleKey : String) (catalog : CatalogInput)
    (s : Session Database) :
    (¬ s.view.AdmitsModule c moduleKey catalog ∧ ∃ e,
      (upsertModule c moduleKey catalog).exec s = (.error e, s) ∧ e.isConflict = false) ∨
    (s.view.AdmitsModule c moduleKey catalog ∧
      ∃ t, (upsertModule c moduleKey catalog).exec s = (.ok (), t)) := by
  unfold Database.AdmitsModule
  cases hfits : (Module.mk moduleKey (strip catalog.moduleName) (strip catalog.catalogVersion)
      .active).fits with
  | false =>
    exact Or.inl ⟨by simp, .dataError, by simp [upsertModule, exec_execute, hfits], rfl⟩
  | true =>
    cases hactor : (s.view.userReference c.actorUserId).present with
    | false =>
      exact Or.inl ⟨by simp, .integrityError .foreignKey,
        by simp [upsertModule, exec_execute, hfits, hactor], rfl⟩
    | true =>
      obtain ⟨o, ho⟩ : ∃ o, upsertRow s.view.modules (.primary, [moduleKey])
          ⟨moduleKey, strip catalog.moduleName, strip catalog.catalogVersion, .active⟩
          [s.view.userReference c.actorUserId] (.upsertModule ⟨moduleKey, strip catalog.moduleName,
            strip catalog.catalogVersion, .active⟩) = .ok o :=
        upsertRow_ok _ rfl (by simp [hactor])
      exact Or.inr ⟨⟨rfl, rfl⟩, by simp [upsertModule, exec_execute, hfits, hactor, ho, Except.map]⟩

/-- The permissions that a put submits are either stored for its module or not at all. -/
def Database.Owns (db : Database) (moduleKey : String) (catalog : CatalogInput) : Prop :=
  ∀ p ∈ catalog.permissions, ∀ stored ∈ db.permissionRow? p.key, stored.moduleKey = moduleKey

theorem Failure.isConflict_iff {e : Failure} :
    e.isConflict = true ↔ ∃ key affected, e = .retirementConflict key affected := by
  cases e <;> simp [Failure.isConflict]

theorem ends_with_conflict_iff {α : Type} {p : Tx α} {s : Session Database} :
    (∃ key affected, (p.exec s).1 = .error (.retirementConflict key affected)) ↔
      ∃ e t, p.exec s = (.error e, t) ∧ e.isConflict = true := by
  cases hrun : p.exec s with
  | mk r t =>
    constructor
    · rintro ⟨key, affected, rfl⟩
      exact ⟨_, t, rfl, rfl⟩
    · rintro ⟨e, u, heq, hconflict⟩
      obtain ⟨key, affected, rfl⟩ := Failure.isConflict_iff.mp hconflict
      exact ⟨key, affected, congrArg Prod.fst heq⟩

/-- What comes after a part adds no conflict. -/
theorem conflict_bind_iff {α β : Type} {p : Tx β} {k : β → Tx α} {s : Session Database}
    (hk : ∀ b, Tx.RaisesNoConflict (k b)) :
    (∃ e t, (p >>= k).exec s = (.error e, t) ∧ e.isConflict = true) ↔
      ∃ e t, p.exec s = (.error e, t) ∧ e.isConflict = true := by
  rw [exec_bind]
  cases hrun : p.exec s with
  | mk r t =>
    cases r with
    | error e => simp
    | ok b =>
      constructor
      · rintro ⟨e, u, hnext, hconflict⟩
        have hplain := (hk b).exec hnext
        rw [hconflict] at hplain
        cases hplain
      · rintro ⟨e, u, heq, _⟩
        cases heq

theorem conflict_rollbackAndRaise_iff {α : Type} {p : Tx α} {s : Session Database} :
    (∃ e t, (attempt rollbackAndRaise p).exec s = (.error e, t) ∧ e.isConflict = true) ↔
      ∃ e t, p.exec s = (.error e, t) ∧ e.isConflict = true := by
  rw [exec_attempt]
  cases hrun : p.exec s with
  | mk r t =>
    cases r with
    | ok a => simp
    | error e =>
      simp only [rollbackAndRaise, exec_bind, exec_rollbackNow, exec_raise, Prod.mk.injEq,
        Except.error.injEq]
      constructor
      · rintro ⟨f, u, ⟨rfl, _⟩, hconflict⟩
        exact ⟨_, t, ⟨rfl, rfl⟩, hconflict⟩
      · rintro ⟨f, u, ⟨rfl, _⟩, hconflict⟩
        exact ⟨_, _, ⟨rfl, rfl⟩, hconflict⟩

/-- The guard is as exact as the statements before it: somebody holds a permission exactly when
the query finds a role, and a put that owns its permissions conflicts exactly when it retires one
that somebody holds and the database takes the module and every permission before that one. -/
theorem retirement_guard_exact (db : Database) :
    (∀ key now, db.effectiveRoleReferences key now ≠ [] ↔ db.SomebodyHolds key now) ∧
    ∀ (lower : String → String) (c : AdminCall) (databaseNow : Instant) (freshId : Nat → Uuid)
      (pathModuleKey : String) (catalog : CatalogInput),
      ((validateCatalog lower (lower (strip pathModuleKey)) catalog).alone db).1 = .ok () →
      db.Owns (lower (strip pathModuleKey)) catalog →
      ((∃ key affected, ((putCatalog lower c databaseNow freshId pathModuleKey catalog).alone db).1 =
          .error (.retirementConflict key affected)) ↔
        db.AdmitsModule c (lower (strip pathModuleKey)) catalog ∧
          ∃ before p after, catalog.permissions = before ++ p :: after ∧
            p.Conflicts db databaseNow ∧ ∀ q ∈ before,
              db.Admits (lower (strip pathModuleKey)) (strip catalog.catalogVersion) q) := by
  refine ⟨fun key now => effectiveRoleReferences_iff, ?_⟩
  intro lower c databaseNow freshId pathModuleKey catalog hvalid howns
  obtain ⟨moduleKey, hmoduleKey⟩ : ∃ moduleKey, lower (strip pathModuleKey) = moduleKey := ⟨_, rfl⟩
  rw [hmoduleKey] at hvalid howns ⊢
  obtain ⟨s, hvalid⟩ : ∃ s, (validateCatalog lower moduleKey catalog).exec ⟨db, db⟩ = (.ok (), s) :=
    ⟨_, Prod.ext hvalid rfl⟩
  obtain ⟨rfl, hkeys⟩ := validateCatalog_ok hvalid
  have hstatus : ∀ p ∈ catalog.permissions, LifecycleStatus.ofText? p.status ≠ none := by
    intro p hp hnone
    have hchecked := (validateCatalog_valid hvalid).namespaces p hp
    unfold validatePermission at hchecked
    split at hchecked
    · cases hchecked
    split at hchecked
    · cases hchecked
    split at hchecked
    · cases hchecked
    cases hchecked
  unfold alone
  simp only
  rw [ends_with_conflict_iff]
  unfold putCatalog
  simp only [hmoduleKey]
  rw [exec_bind, hvalid]
  simp only
  rw [conflict_rollbackAndRaise_iff, exec_bind]
  rcases upsertModule_outcomes c moduleKey catalog ⟨db, db⟩ with
    ⟨hrefused, e, hrun, hplain⟩ | ⟨hadmitted, t, hrun⟩
  · rw [hrun]
    simp only [Prod.mk.injEq, Except.error.injEq]
    constructor
    · rintro ⟨f, u, ⟨rfl, _⟩, hconflict⟩
      rw [hconflict] at hplain
      cases hplain
    · rintro ⟨hadmitted, _⟩
      exact absurd hadmitted hrefused
  · rw [hrun]
    simp only
    have hupserted := (Catalogued.start db moduleKey).exec
      (within_upsertModule c moduleKey catalog) hrun
    have hloop := exec_putPermissions (strip catalog.catalogVersion) databaseNow hupserted hkeys
      hstatus howns
    rw [conflict_bind_iff, hloop, and_iff_right hadmitted]
    intro _
    refine raises_bind (raises_each fun t _ => putTemplate_noConflict _ _ _ _) fun _ => ?_
    refine raises_bind (raises_query fun _ _ he => nomatch he) fun row => ?_
    refine raises_bind (catalogResponse_noConflict moduleKey row) fun response => ?_
    exact raises_bind (platformAudit_noConflict c _ _ _) fun _ =>
      raises_bind raises_commitNow fun _ => raises_pure _

/-- A canonical key of 112 characters, whose resource has 101. -/
def wideKey : String := "sales." ++ String.ofList (List.replicate 101 'r') ++ ".read"

def wideCatalog : CatalogInput :=
  { salesCatalog "RETIRED" [] with
    permissions := [⟨wideKey, "Read a resource", none, "RETIRED"⟩,
      ⟨"sales.order.read", "Read orders", none, "RETIRED"⟩] }

/-- The first upsert is refused before the role that carries the second permission is looked up. -/
theorem wide_key_hides_conflict : ¬ ∀ (db : Database) (lower : String → String) (c : AdminCall)
    (databaseNow : Instant) (freshId : Nat → Uuid) (pathModuleKey : String) (catalog : CatalogInput),
    ((validateCatalog lower (lower (strip pathModuleKey)) catalog).alone db).1 = .ok () →
    db.Owns (lower (strip pathModuleKey)) catalog →
    ((∃ key affected, ((putCatalog lower c databaseNow freshId pathModuleKey catalog).alone db).1 =
        .error (.retirementConflict key affected)) ↔
      ∃ p ∈ catalog.permissions, p.Conflicts db databaseNow) := by
  intro h
  have hrun : ((putCatalog asciiLower ⟨"user", "put", 0, "", "audit"⟩ 0 (fun _ => "template")
      "sales" wideCatalog).alone clerkDatabase).1 = .error .dataError := by
    decide +kernel
  have howns : clerkDatabase.Owns (asciiLower (strip "sales")) wideCatalog := by
    unfold Database.Owns
    decide +kernel
  have hheld : clerkDatabase.SomebodyHolds "sales.order.read" 0 :=
    inUse_iff_somebodyHolds.mp (by decide +kernel)
  obtain ⟨key, affected, hconflict⟩ := (h clerkDatabase asciiLower ⟨"user", "put", 0, "", "audit"⟩ 0
    (fun _ => "template") "sales" wideCatalog (by decide +kernel) howns).mpr
      ⟨_, List.mem_cons_of_mem _ List.mem_cons_self, rfl, hheld⟩
  rw [hrun] at hconflict
  cases hconflict

theorem held_permission_not_retired : ∃ key affected,
    ((salesPut "RETIRED" []).alone clerkDatabase).1 = .error (.retirementConflict key affected) := by
  have howns : clerkDatabase.Owns (asciiLower (strip " Sales ")) (salesCatalog "RETIRED" []) := by
    unfold Database.Owns
    decide +kernel
  have hadmits : clerkDatabase.AdmitsModule ⟨"user", "put", 0, "", "audit"⟩
      (asciiLower (strip " Sales ")) (salesCatalog "RETIRED" []) := by
    unfold Database.AdmitsModule
    decide +kernel
  refine ((retirement_guard_exact clerkDatabase).2 asciiLower ⟨"user", "put", 0, "", "audit"⟩ 0
    (fun _ => "template") " Sales " (salesCatalog "RETIRED" []) (by decide +kernel) howns).mpr
      ⟨hadmits, [], _, [], rfl, ⟨rfl, ?_⟩, fun _ hq => nomatch hq⟩
  exact ((retirement_guard_exact clerkDatabase).1 "sales.order.read" 0).mp (by decide +kernel)

end VerigenceSecurity
