import VerigenceSecurity.TenantRoles

/-! # Whose permissions a write can change

Each write changes few edges of the access graph. A write is said to affect a
user when it changes an edge that the user's permissions can depend on, and
the permissions of a user whom no write affects are the same afterwards.
-/

namespace VerigenceSecurity
set_option autoImplicit false

open Transaction Relational

/-! ## Writes that leave the graph alone -/

/-- The writes to tables that `effective_user_permissions` reads. -/
def Write.graphic : Write → Bool
  | insertGroup _ | updateGroup .. | insertGroupMembership _ | endGroupMembership ..
  | insertGroupRoleAssignment _ | endGroupRoleAssignment .. | insertRole _ | updateRole ..
  | insertRolePermission _ | deleteRolePermission .. | insertUserRoleAssignment _
  | endUserRoleAssignment .. | upsertPermission _ | configurePermission _ | grantSuperAdminPermission _
  | revokeSuperAdminPermission _ | insertPlatformUserRoleAssignment _ => true
  | _ => false

structure SameGraph (db db' : Database) : Prop where
  rbac : db.toRbacTables = db'.toRbacTables
  permissions : db.permissions = db'.permissions
  platformRoles : db.platformRoles = db'.platformRoles
  platformRolePermissions : db.platformRolePermissions = db'.platformRolePermissions
  platformUserRoleAssignments : db.platformUserRoleAssignments = db'.platformUserRoleAssignments

namespace SameGraph

variable {db db' db'' : Database}

theorem refl (db : Database) : SameGraph db db := ⟨rfl, rfl, rfl, rfl, rfl⟩

theorem trans (h : SameGraph db db') (k : SameGraph db' db'') : SameGraph db db'' :=
  ⟨h.rbac.trans k.rbac, h.permissions.trans k.permissions, h.platformRoles.trans k.platformRoles,
    h.platformRolePermissions.trans k.platformRolePermissions,
    h.platformUserRoleAssignments.trans k.platformUserRoleAssignments⟩

theorem symm (h : SameGraph db db') : SameGraph db' db :=
  ⟨h.rbac.symm, h.permissions.symm, h.platformRoles.symm, h.platformRolePermissions.symm,
    h.platformUserRoleAssignments.symm⟩

theorem accessGraph_eq (h : SameGraph db db') (tenantId : Uuid) (now : Instant) :
    db.accessGraph tenantId now = db'.accessGraph tenantId now := by
  unfold Database.accessGraph Database.DirectRole Database.GroupMember Database.GroupActive
    Database.GroupRole Database.RoleActive Database.PermissionActive Database.RoleHasPermission
    Database.PlatformPermission
  rw [h.rbac, h.permissions, h.platformRoles, h.platformRolePermissions,
    h.platformUserRoleAssignments]

theorem apply_of_not_graphic {w : Write} (hw : w.graphic = false) (db : Database) :
    SameGraph (w.apply db) db := by
  cases w <;> first | exact ⟨rfl, rfl, rfl, rfl, rfl⟩ | cases hw

theorem apply (h : SameGraph db db') (w : Write) : SameGraph (w.apply db) (w.apply db') := by
  cases hw : w.graphic with
  | false => exact ((apply_of_not_graphic hw db).trans h).trans (apply_of_not_graphic hw db').symm
  | true =>
    obtain ⟨h1, h2, h3, h4, h5⟩ := h
    cases w with
    | insertGroup | updateGroup | insertGroupMembership | endGroupMembership
    | insertGroupRoleAssignment | endGroupRoleAssignment | insertRole | updateRole
    | insertRolePermission | deleteRolePermission | insertUserRoleAssignment
    | endUserRoleAssignment =>
      refine ⟨?_, h2, h3, h4, h5⟩
      simp only [Write.apply, h1]
    | upsertPermission | configurePermission =>
      refine ⟨h1, ?_, h3, h4, h5⟩
      simp only [Write.apply, h2]
    | grantSuperAdminPermission | revokeSuperAdminPermission =>
      refine ⟨h1, h2, h3, ?_, h5⟩
      simp only [Write.apply, h4]
    | insertPlatformUserRoleAssignment =>
      refine ⟨h1, h2, h3, h4, ?_⟩
      simp only [Write.apply, h5]
    | _ => cases hw

/-- The graph after a list of writes is the graph after a part that has all graphic ones. -/
theorem replayAll_filter (h : SameGraph db db') {p : Write → Bool}
    (hp : ∀ w, p w = false → w.graphic = false) (ws : List Write) :
    SameGraph (replayAll ws db) (replayAll (ws.filter p) db') := by
  induction ws generalizing db db' with
  | nil => exact h
  | cons w ws ih =>
    cases hw : p w with
    | true =>
      rw [List.filter_cons_of_pos hw]
      exact ih (h.apply w)
    | false =>
      rw [List.filter_cons_of_neg (by simp [hw])]
      exact ih ((apply_of_not_graphic (hp w hw) db).trans h)

end SameGraph

/-! ## Authorization versions -/

namespace Database

theorem stateEntry_mem_iff {userId tenantId : Uuid} {r : UserTenantAuthorizationState} :
    (Index.primary, [userId, tenantId]) ∈ Row.entries r ↔ r.userId = userId ∧ r.tenantId = tenantId := by
  simp [Row.entries, eq_comm]

theorem authorizationVersion_bump (db : Database) (tenantId userId t u : Uuid) :
    (Write.apply db (.bumpAuthorizationVersion tenantId userId)).authorizationVersion t u =
      db.authorizationVersion t u + if tenantId = t ∧ userId = u then 1 else 0 := by
  simp only [authorizationVersion, Write.apply, Table.upsert]
  split
  · rename_i hany
    rw [Table.find?_update]
    · cases hf : db.userTenantAuthorizationState.rows.find? fun r =>
          decide (r.userId = u ∧ r.tenantId = t) with
      | none =>
        obtain ⟨r, hr, hk⟩ := List.any_eq_true.mp hany
        have hr' : r.userId = userId ∧ r.tenantId = tenantId := by
          simpa [stateEntry_mem_iff] using hk
        have hne : ¬ (tenantId = t ∧ userId = u) := by
          rintro ⟨rfl, rfl⟩
          exact List.find?_eq_none.mp hf r hr (decide_eq_true hr')
        simp [hne]
      | some r =>
        have hr : r.userId = u ∧ r.tenantId = t := by simpa using List.find?_some hf
        simp only [Option.map_some, Option.getD_some, stateEntry_mem_iff]
        by_cases h : tenantId = t ∧ userId = u
        · simp [h, hr]
        · have hne : ¬ (r.userId = userId ∧ r.tenantId = tenantId) := by
            rintro ⟨hu, ht⟩
            exact h ⟨ht.symm.trans hr.2, hu.symm.trans hr.1⟩
          simp [h, hne]
    · exact fun _ => rfl
  · rename_i hany
    have habsent : ∀ r ∈ db.userTenantAuthorizationState.rows,
        ¬ (r.userId = userId ∧ r.tenantId = tenantId) := by
      intro r hr h
      exact hany (List.any_eq_true.mpr ⟨r, hr, by simpa using stateEntry_mem_iff.mpr h⟩)
    have hsome : (db.userTenantAuthorizationState.insert? ⟨userId, tenantId, 2⟩).isSome = true := by
      rw [Table.isSome_insert?]
      intro r hr k hk hrow
      rw [List.mem_singleton.mp hrow] at hk
      exact habsent r hr (stateEntry_mem_iff.mp hk)
    obtain ⟨inserted, hinsert⟩ := Option.isSome_iff_exists.mp hsome
    rw [Table.find?_insert hinsert]
    by_cases h : tenantId = t ∧ userId = u
    · obtain ⟨rfl, rfl⟩ := h
      have hnone : (db.userTenantAuthorizationState.rows.find? fun r =>
          decide (r.userId = userId ∧ r.tenantId = tenantId)) = none := by
        rw [List.find?_eq_none]
        intro r hr hd
        exact habsent r hr (of_decide_eq_true hd)
      rw [hnone]
      simp
    · have hne : ¬ (userId = u ∧ tenantId = t) := fun hc => h ⟨hc.2, hc.1⟩
      simp [h, hne]

theorem authorizationVersion_of_not_bump {w : Write} (hw : ∀ t u, w ≠ .bumpAuthorizationVersion t u)
    (db : Database) (t u : Uuid) :
    (w.apply db).authorizationVersion t u = db.authorizationVersion t u := by
  cases w <;> first | rfl | exact absurd rfl (hw _ _)

theorem authorizationVersion_le_apply (w : Write) (db : Database) (t u : Uuid) :
    db.authorizationVersion t u ≤ (w.apply db).authorizationVersion t u := by
  by_cases h : ∃ t' u', w = .bumpAuthorizationVersion t' u'
  · obtain ⟨t', u', rfl⟩ := h
    rw [authorizationVersion_bump]
    exact Nat.le_add_right _ _
  · rw [authorizationVersion_of_not_bump fun t' u' hw => h ⟨t', u', hw⟩]

/-- No write lowers a version. -/
theorem authorizationVersion_le_replayAll (ws : List Write) (db : Database) (t u : Uuid) :
    db.authorizationVersion t u ≤ (replayAll ws db).authorizationVersion t u := by
  induction ws generalizing db with
  | nil => exact Nat.le_refl _
  | cons w ws ih => exact (authorizationVersion_le_apply w db t u).trans (ih (w.apply db))

theorem authorizationVersion_lt_of_bump {ws : List Write} {t u : Uuid}
    (h : Write.bumpAuthorizationVersion t u ∈ ws) (db : Database) :
    db.authorizationVersion t u < (replayAll ws db).authorizationVersion t u := by
  obtain ⟨xs, ys, rfl⟩ := List.append_of_mem h
  rw [replayAll_append, replayAll_cons, replay_eq]
  have hxs := authorizationVersion_le_replayAll xs db t u
  have hys := authorizationVersion_le_replayAll ys
    (Write.apply (replayAll xs db) (.bumpAuthorizationVersion t u)) t u
  rw [authorizationVersion_bump] at hys
  simp only [and_self, if_true] at hys
  omega

end Database

/-! ## Users that a write affects -/

/-- The users whose edges, groups or roles in the tenant a write of the RBAC tables changes. -/
def Write.Affects (db : Database) (t : Uuid) (now : Instant) (u : Uuid) : Write → Prop
  | insertUserRoleAssignment row => row.tenantId = t ∧ row.userId = u
  | endUserRoleAssignment _ tenantId userId _ _ => tenantId = t ∧ userId = u
  | insertGroupMembership row => row.tenantId = t ∧ row.userId = u
  | endGroupMembership _ tenantId _ userId _ => tenantId = t ∧ userId = u
  | insertGroupRoleAssignment row => row.tenantId = t ∧ db.GroupMember t now u row.groupId
  | endGroupRoleAssignment _ tenantId groupId _ _ => tenantId = t ∧ db.GroupMember t now u groupId
  | updateGroup tenantId groupId _ _ status _ => tenantId = t ∧ db.GroupMember t now u groupId ∧
      ∃ g ∈ db.groups.rows, g.tenantId = t ∧ g.groupId = groupId ∧ g.status ≠ status
  | updateRole tenantId roleId _ _ status _ => tenantId = t ∧
      (db.accessGraph t now).Reaches u roleId ∧
      ∃ r ∈ db.roles.rows, r.tenantId = t ∧ r.roleId = roleId ∧ r.status ≠ status
  | insertRolePermission row => row.tenantId = t ∧ (db.accessGraph t now).Reaches u row.roleId
  | deleteRolePermission tenantId roleId _ =>
      tenantId = t ∧ (db.accessGraph t now).Reaches u roleId
  | upsertPermission _ | configurePermission _ | grantSuperAdminPermission _
  | revokeSuperAdminPermission _ | insertPlatformUserRoleAssignment _ => True
  | _ => False

namespace Database

variable {db : Database} {t u : Uuid} {now : Instant}

theorem directRole_insert {row : UserRoleAssignment} (h : ¬ (row.tenantId = t ∧ row.userId = u))
    (r : Uuid) : (Write.apply db (.insertUserRoleAssignment row)).DirectRole t now u r ↔
      db.DirectRole t now u r := by
  simp only [DirectRole, Write.apply, RbacTables.insertUserRoleAssignment]
  split
  · exact Table.exists_insert_iff fun ⟨ht, hu, _⟩ => h ⟨ht, hu⟩
  · exact Iff.rfl

theorem directRole_end {ids : List Uuid} {tenantId userId roleId : Uuid} {ended : Instant}
    (h : ¬ (tenantId = t ∧ userId = u)) (r : Uuid) :
    (Write.apply db (.endUserRoleAssignment ids tenantId userId roleId ended)).DirectRole t now u r ↔
      db.DirectRole t now u r := by
  simp only [DirectRole, Write.apply, RbacTables.endUserRoleAssignment]
  apply Table.exists_update_iff
  intro a _ hw
  obtain ⟨_, ht, hu, _⟩ := of_decide_eq_true hw
  constructor
  · rintro ⟨ht', hu', _⟩
    exact absurd ⟨ht.symm.trans ht', hu.symm.trans hu'⟩ h
  · rintro ⟨ht', hu', _⟩
    exact absurd ⟨ht.symm.trans ht', hu.symm.trans hu'⟩ h

theorem groupMember_insert {row : GroupMembership} (h : ¬ (row.tenantId = t ∧ row.userId = u))
    (g : Uuid) : (Write.apply db (.insertGroupMembership row)).GroupMember t now u g ↔
      db.GroupMember t now u g := by
  simp only [GroupMember, Write.apply, RbacTables.insertGroupMembership]
  split
  · exact Table.exists_insert_iff fun ⟨ht, hu, _⟩ => h ⟨ht, hu⟩
  · exact Iff.rfl

theorem groupMember_end {ids : List Uuid} {tenantId groupId userId : Uuid} {ended : Instant}
    (h : ¬ (tenantId = t ∧ userId = u)) (g : Uuid) :
    (Write.apply db (.endGroupMembership ids tenantId groupId userId ended)).GroupMember t now u g ↔
      db.GroupMember t now u g := by
  simp only [GroupMember, Write.apply, RbacTables.endGroupMembership]
  apply Table.exists_update_iff
  intro a _ hw
  obtain ⟨_, ht, _, hu, _⟩ := of_decide_eq_true hw
  constructor
  · rintro ⟨ht', hu', _⟩
    exact absurd ⟨ht.symm.trans ht', hu.symm.trans hu'⟩ h
  · rintro ⟨ht', hu', _⟩
    exact absurd ⟨ht.symm.trans ht', hu.symm.trans hu'⟩ h

theorem groupRole_insert {row : GroupRoleAssignment} {g : Uuid}
    (h : ¬ (row.tenantId = t ∧ row.groupId = g)) (r : Uuid) :
    (Write.apply db (.insertGroupRoleAssignment row)).GroupRole t g r ↔ db.GroupRole t g r := by
  simp only [GroupRole, Write.apply, RbacTables.insertGroupRoleAssignment]
  split
  · exact Table.exists_insert_iff fun ⟨ht, hg, _⟩ => h ⟨ht, hg⟩
  · exact Iff.rfl

theorem groupRole_end {ids : List Uuid} {tenantId groupId roleId g : Uuid} {ended : Instant}
    (h : ¬ (tenantId = t ∧ groupId = g)) (r : Uuid) :
    (Write.apply db (.endGroupRoleAssignment ids tenantId groupId roleId ended)).GroupRole t g r ↔
      db.GroupRole t g r := by
  simp only [GroupRole, Write.apply, RbacTables.endGroupRoleAssignment]
  apply Table.exists_update_iff
  intro a _ hw
  obtain ⟨_, ht, hg, _⟩ := of_decide_eq_true hw
  constructor
  · rintro ⟨ht', hg', _⟩
    exact absurd ⟨ht.symm.trans ht', hg.symm.trans hg'⟩ h
  · rintro ⟨ht', hg', _⟩
    exact absurd ⟨ht.symm.trans ht', hg.symm.trans hg'⟩ h

/-- A group that somebody belongs to is stored, so inserting it again changes nothing. -/
theorem groupActive_insert {row : Group} {g : Uuid} (hm : db.GroupMember t now u g) :
    (Write.apply db (.insertGroup row)).GroupActive t g ↔ db.GroupActive t g := by
  cases hi : db.groups.insert? row with
  | none =>
    have hsame : db.groups.insert row = db.groups := by
      unfold Table.insert
      rw [hi, Option.getD_none]
    simp only [GroupActive, Write.apply, RbacTables.insertGroup, hsame]
  | some inserted =>
    apply Table.exists_insert_iff
    rintro ⟨ht, hg, _⟩
    obtain ⟨m, hmem, hmt, _, hmg, _⟩ := hm
    obtain ⟨stored, hstored, hst, hsg⟩ := db.membership_group m hmem
    have hfree := Table.isSome_insert?.mp (Option.isSome_of_eq_some hi) stored hstored
    apply hfree (.primary, [stored.groupId]) List.mem_cons_self
    rw [hsg, hmg, ← hg]
    exact List.mem_cons_self

theorem groupActive_update {tenantId groupId g : Uuid} {name : String} {description : Option String}
    {status : ActiveStatus} {at? : Instant} (h : ¬ (tenantId = t ∧ groupId = g ∧
      ∃ r ∈ db.groups.rows, r.tenantId = t ∧ r.groupId = g ∧ r.status ≠ status)) :
    (Write.apply db (.updateGroup tenantId groupId name description status at?)).GroupActive t g ↔
      db.GroupActive t g := by
  simp only [GroupActive, Write.apply, RbacTables.updateGroup]
  apply Table.exists_update_iff
  intro r hr hw
  obtain ⟨ht, hg⟩ := of_decide_eq_true hw
  have hsame : r.tenantId = t → r.groupId = g → status = r.status := by
    intro ht' hg'
    by_contra hne
    exact h ⟨ht.symm.trans ht', hg.symm.trans hg', r, hr, ht', hg', fun he => hne he.symm⟩
  constructor
  · rintro ⟨ht', hg', hs⟩
    exact ⟨ht', hg', (hsame ht' hg').symm.trans hs⟩
  · rintro ⟨ht', hg', hs⟩
    exact ⟨ht', hg', (hsame ht' hg').trans hs⟩

theorem role_of_reaches {r : Uuid} (h : (db.accessGraph t now).Reaches u r) :
    ∃ row ∈ db.roles.rows, row.tenantId = t ∧ row.roleId = r := by
  rcases h with ⟨a, ha, hat, _, har, _⟩ | ⟨g, _, _, a, ha, hat, _, har, _⟩
  · obtain ⟨row, hrow, ht, hr⟩ := db.assignment_role a ha
    exact ⟨row, hrow, ht.trans hat, hr.trans har⟩
  · obtain ⟨row, hrow, ht, hr⟩ := db.groupRole_role a ha
    exact ⟨row, hrow, ht.trans hat, hr.trans har⟩

/-- A role that somebody reaches is stored, so inserting it again changes nothing. -/
theorem roleActive_insert {row : Role} {r : Uuid} (hm : (db.accessGraph t now).Reaches u r) :
    (Write.apply db (.insertRole row)).RoleActive t r ↔ db.RoleActive t r := by
  cases hi : db.roles.insert? row with
  | none =>
    have hsame : db.roles.insert row = db.roles := by
      unfold Table.insert
      rw [hi, Option.getD_none]
    simp only [RoleActive, Write.apply, RbacTables.insertRole, hsame]
  | some inserted =>
    apply Table.exists_insert_iff
    rintro ⟨ht, hr, _⟩
    obtain ⟨stored, hstored, hst, hsr⟩ := role_of_reaches hm
    have hfree := Table.isSome_insert?.mp (Option.isSome_of_eq_some hi) stored hstored
    apply hfree (.primary, [stored.roleId]) List.mem_cons_self
    rw [hsr, ← hr]
    exact List.mem_cons_self

theorem roleActive_update {tenantId roleId r : Uuid} {name : String} {description : Option String}
    {status : ActiveStatus} {at? : Instant} (h : ¬ (tenantId = t ∧ roleId = r ∧
      ∃ row ∈ db.roles.rows, row.tenantId = t ∧ row.roleId = r ∧ row.status ≠ status)) :
    (Write.apply db (.updateRole tenantId roleId name description status at?)).RoleActive t r ↔
      db.RoleActive t r := by
  simp only [RoleActive, Write.apply, RbacTables.updateRole]
  apply Table.exists_update_iff
  intro row hrow hw
  obtain ⟨ht, hr⟩ := of_decide_eq_true hw
  have hsame : row.tenantId = t → row.roleId = r → status = row.status := by
    intro ht' hr'
    by_contra hne
    exact h ⟨ht.symm.trans ht', hr.symm.trans hr', row, hrow, ht', hr', fun he => hne he.symm⟩
  constructor
  · rintro ⟨ht', hr', hs⟩
    exact ⟨ht', hr', (hsame ht' hr').symm.trans hs⟩
  · rintro ⟨ht', hr', hs⟩
    exact ⟨ht', hr', (hsame ht' hr').trans hs⟩

theorem roleHasPermission_insert {row : RolePermission} {r : Uuid}
    (h : ¬ (row.tenantId = t ∧ row.roleId = r)) (p : String) :
    (Write.apply db (.insertRolePermission row)).RoleHasPermission t r p ↔
      db.RoleHasPermission t r p := by
  simp only [RoleHasPermission, Write.apply, RbacTables.insertRolePermission]
  split
  · exact Table.exists_insert_iff fun ⟨ht, hr, _⟩ => h ⟨ht, hr⟩
  · exact Iff.rfl

theorem roleHasPermission_delete {tenantId roleId r : Uuid} {permissionKey : String}
    (h : ¬ (tenantId = t ∧ roleId = r)) (p : String) :
    (Write.apply db (.deleteRolePermission tenantId roleId permissionKey)).RoleHasPermission t r p ↔
      db.RoleHasPermission t r p := by
  simp only [RoleHasPermission, Write.apply, RbacTables.deleteRolePermission]
  apply Table.exists_delete_iff
  intro a _ hw
  obtain ⟨ht, hr, _⟩ := of_decide_eq_true hw
  rintro ⟨ht', hr', _⟩
  exact h ⟨ht.symm.trans ht', hr.symm.trans hr'⟩

/-- A write changes the permissions of the users it affects only. -/
theorem effective_apply {w : Write} (h : ¬ w.Affects db t now u) :
    (db.accessGraph t now).effective u = ((w.apply db).accessGraph t now).effective u := by
  cases w with
  | insertUserRoleAssignment row =>
    refine AccessGraph.AgreeAt.effective_eq
      ⟨fun r => (directRole_insert h r).symm, fun _ => Iff.rfl, fun _ => Iff.rfl⟩ ?_ ?_ ?_
    · exact fun _ _ _ => Iff.rfl
    · exact fun _ _ => Iff.rfl
    · exact fun _ _ _ => Iff.rfl
  | endUserRoleAssignment ids tenantId userId roleId ended =>
    refine AccessGraph.AgreeAt.effective_eq
      ⟨fun r => (directRole_end h r).symm, fun _ => Iff.rfl, fun _ => Iff.rfl⟩ ?_ ?_ ?_
    · exact fun _ _ _ => Iff.rfl
    · exact fun _ _ => Iff.rfl
    · exact fun _ _ _ => Iff.rfl
  | insertGroupMembership row =>
    refine AccessGraph.AgreeAt.effective_eq
      ⟨fun _ => Iff.rfl, fun g => (groupMember_insert h g).symm, fun _ => Iff.rfl⟩ ?_ ?_ ?_
    · exact fun _ _ _ => Iff.rfl
    · exact fun _ _ => Iff.rfl
    · exact fun _ _ _ => Iff.rfl
  | endGroupMembership ids tenantId groupId userId ended =>
    refine AccessGraph.AgreeAt.effective_eq
      ⟨fun _ => Iff.rfl, fun g => (groupMember_end h g).symm, fun _ => Iff.rfl⟩ ?_ ?_ ?_
    · exact fun _ _ _ => Iff.rfl
    · exact fun _ _ => Iff.rfl
    · exact fun _ _ _ => Iff.rfl
  | insertGroupRoleAssignment row =>
    refine AccessGraph.AgreeAt.effective_eq
      ⟨fun _ => Iff.rfl, fun _ => Iff.rfl, fun _ => Iff.rfl⟩ ?_ ?_ ?_
    · intro g hm r
      have hother : ¬ (row.tenantId = t ∧ row.groupId = g) := by
        rintro ⟨ht, rfl⟩
        exact h ⟨ht, hm⟩
      exact and_congr Iff.rfl (groupRole_insert hother r).symm
    · exact fun _ _ => Iff.rfl
    · exact fun _ _ _ => Iff.rfl
  | endGroupRoleAssignment ids tenantId groupId roleId ended =>
    refine AccessGraph.AgreeAt.effective_eq
      ⟨fun _ => Iff.rfl, fun _ => Iff.rfl, fun _ => Iff.rfl⟩ ?_ ?_ ?_
    · intro g hm r
      have hother : ¬ (tenantId = t ∧ groupId = g) := by
        rintro ⟨ht, rfl⟩
        exact h ⟨ht, hm⟩
      exact and_congr Iff.rfl (groupRole_end hother r).symm
    · exact fun _ _ => Iff.rfl
    · exact fun _ _ _ => Iff.rfl
  | insertGroup row =>
    refine AccessGraph.AgreeAt.effective_eq
      ⟨fun _ => Iff.rfl, fun _ => Iff.rfl, fun _ => Iff.rfl⟩ ?_ ?_ ?_
    · exact fun g hm r => and_congr (groupActive_insert hm).symm Iff.rfl
    · exact fun _ _ => Iff.rfl
    · exact fun _ _ _ => Iff.rfl
  | updateGroup tenantId groupId name description status at? =>
    refine AccessGraph.AgreeAt.effective_eq
      ⟨fun _ => Iff.rfl, fun _ => Iff.rfl, fun _ => Iff.rfl⟩ ?_ ?_ ?_
    · intro g hm r
      refine and_congr (groupActive_update ?_).symm Iff.rfl
      rintro ⟨ht, rfl, hrow⟩
      exact h ⟨ht, hm, hrow⟩
    · exact fun _ _ => Iff.rfl
    · exact fun _ _ _ => Iff.rfl
  | insertRole row =>
    refine AccessGraph.AgreeAt.effective_eq
      ⟨fun _ => Iff.rfl, fun _ => Iff.rfl, fun _ => Iff.rfl⟩ ?_ ?_ ?_
    · exact fun _ _ _ => Iff.rfl
    · exact fun r hr => (roleActive_insert hr).symm
    · exact fun _ _ _ => Iff.rfl
  | updateRole tenantId roleId name description status at? =>
    refine AccessGraph.AgreeAt.effective_eq
      ⟨fun _ => Iff.rfl, fun _ => Iff.rfl, fun _ => Iff.rfl⟩ ?_ ?_ ?_
    · exact fun _ _ _ => Iff.rfl
    · intro r hr
      refine (roleActive_update ?_).symm
      rintro ⟨ht, rfl, hrow⟩
      exact h ⟨ht, hr, hrow⟩
    · exact fun _ _ _ => Iff.rfl
  | insertRolePermission row =>
    refine AccessGraph.AgreeAt.effective_eq
      ⟨fun _ => Iff.rfl, fun _ => Iff.rfl, fun _ => Iff.rfl⟩ ?_ ?_ ?_
    · exact fun _ _ _ => Iff.rfl
    · exact fun _ _ => Iff.rfl
    · intro r hr p
      refine and_congr (roleHasPermission_insert ?_ p).symm Iff.rfl
      rintro ⟨ht, rfl⟩
      exact h ⟨ht, hr⟩
  | deleteRolePermission tenantId roleId permissionKey =>
    refine AccessGraph.AgreeAt.effective_eq
      ⟨fun _ => Iff.rfl, fun _ => Iff.rfl, fun _ => Iff.rfl⟩ ?_ ?_ ?_
    · exact fun _ _ _ => Iff.rfl
    · exact fun _ _ => Iff.rfl
    · intro r hr p
      refine and_congr (roleHasPermission_delete ?_ p).symm Iff.rfl
      rintro ⟨ht, rfl⟩
      exact h ⟨ht, hr⟩
  | upsertPermission | configurePermission | grantSuperAdminPermission | revokeSuperAdminPermission
  | insertPlatformUserRoleAssignment => exact absurd trivial h
  | _ => rfl

end Database

end VerigenceSecurity
