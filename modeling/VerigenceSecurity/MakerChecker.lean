import VerigenceSecurity.AuthorizationVersion

/-! # Maker-checker for effective roles

A privileged role that is effective for a user should rest on a request that
somebody else approved. The direct path is guarded by the services. The group
path and reactivations are not, so the law holds of the runs in which they only
reach users who have such a request already.
-/

namespace VerigenceSecurity
set_option autoImplicit false

open Transaction Relational

/-! ## How a write can make a role effective -/

/-- What a write may add to the paths from one user to one role. -/
def Write.Opens (db : Database) (t : Uuid) (now : Instant) (u r : Uuid) : Write → Prop
  | insertUserRoleAssignment row => row.tenantId = t ∧ row.userId = u ∧ row.roleId = r
  | insertGroupMembership row => row.tenantId = t ∧ row.userId = u ∧
      db.GroupActive t row.groupId ∧ db.GroupRole t row.groupId r ∧ db.RoleActive t r
  | insertGroupRoleAssignment row => row.tenantId = t ∧ row.roleId = r ∧
      db.GroupMember t now u row.groupId ∧ db.GroupActive t row.groupId ∧ db.RoleActive t r
  | updateGroup tenantId groupId _ _ status _ => tenantId = t ∧ status = .active ∧
      db.GroupMember t now u groupId ∧ db.GroupRole t groupId r ∧ db.RoleActive t r
  | updateRole tenantId roleId _ _ status _ => tenantId = t ∧ roleId = r ∧ status = .active ∧
      (db.accessGraph t now).Reaches u r
  | _ => False

namespace Database

variable {db : Database} {t u r g : Uuid} {now : Instant}

theorem directRole_of_end {ids : List Uuid} {tenantId userId roleId : Uuid} {ended : Instant}
    (h : (Write.apply db (.endUserRoleAssignment ids tenantId userId roleId ended)).DirectRole
      t now u r) : db.DirectRole t now u r := by
  simp only [DirectRole, Write.apply, RbacTables.endUserRoleAssignment] at h
  rcases Table.exists_of_update h with h | ⟨_, _, _, _, _, _, hs, _⟩
  · exact h
  · cases hs

theorem groupMember_of_end {ids : List Uuid} {tenantId groupId userId : Uuid} {ended : Instant}
    (h : (Write.apply db (.endGroupMembership ids tenantId groupId userId ended)).GroupMember
      t now u g) : db.GroupMember t now u g := by
  simp only [GroupMember, Write.apply, RbacTables.endGroupMembership] at h
  rcases Table.exists_of_update h with h | ⟨_, _, _, _, _, _, hs, _⟩
  · exact h
  · cases hs

theorem groupRole_of_end {ids : List Uuid} {tenantId groupId roleId : Uuid} {ended : Instant}
    (h : (Write.apply db (.endGroupRoleAssignment ids tenantId groupId roleId ended)).GroupRole
      t g r) : db.GroupRole t g r := by
  simp only [GroupRole, Write.apply, RbacTables.endGroupRoleAssignment] at h
  rcases Table.exists_of_update h with h | ⟨_, _, _, _, _, _, hs⟩
  · exact h
  · cases hs

theorem groupActive_of_update {tenantId groupId : Uuid} {name : String} {description : Option String}
    {status : ActiveStatus} {at? : Instant}
    (h : (Write.apply db (.updateGroup tenantId groupId name description status at?)).GroupActive t g) :
    db.GroupActive t g ∨ (tenantId = t ∧ groupId = g ∧ status = .active) := by
  simp only [GroupActive, Write.apply, RbacTables.updateGroup] at h
  rcases Table.exists_of_update h with h | ⟨_, _, hw, ht, hg, hs⟩
  · exact Or.inl h
  · obtain ⟨hot, hog⟩ := of_decide_eq_true hw
    exact Or.inr ⟨hot.symm.trans ht, hog.symm.trans hg, hs⟩

theorem roleActive_of_update {tenantId roleId : Uuid} {name : String} {description : Option String}
    {status : ActiveStatus} {at? : Instant}
    (h : (Write.apply db (.updateRole tenantId roleId name description status at?)).RoleActive t r) :
    db.RoleActive t r ∨ (tenantId = t ∧ roleId = r ∧ status = .active) := by
  simp only [RoleActive, Write.apply, RbacTables.updateRole] at h
  rcases Table.exists_of_update h with h | ⟨_, _, hw, ht, hr, hs⟩
  · exact Or.inl h
  · obtain ⟨hot, hor⟩ := of_decide_eq_true hw
    exact Or.inr ⟨hot.symm.trans ht, hor.symm.trans hr, hs⟩

theorem directRole_of_insert {row : UserRoleAssignment}
    (h : (Write.apply db (.insertUserRoleAssignment row)).DirectRole t now u r) :
    db.DirectRole t now u r ∨ (row.tenantId = t ∧ row.userId = u ∧ row.roleId = r) := by
  simp only [DirectRole, Write.apply, RbacTables.insertUserRoleAssignment] at h
  split at h
  · rcases Table.exists_of_insert h with h | ⟨ht, hu, hr, _⟩
    · exact Or.inl h
    · exact Or.inr ⟨ht, hu, hr⟩
  · exact Or.inl h

theorem groupMember_of_insert {row : GroupMembership}
    (h : (Write.apply db (.insertGroupMembership row)).GroupMember t now u g) :
    db.GroupMember t now u g ∨ (row.tenantId = t ∧ row.userId = u ∧ row.groupId = g) := by
  simp only [GroupMember, Write.apply, RbacTables.insertGroupMembership] at h
  split at h
  · rcases Table.exists_of_insert h with h | ⟨ht, hu, hg, _⟩
    · exact Or.inl h
    · exact Or.inr ⟨ht, hu, hg⟩
  · exact Or.inl h

theorem groupRole_of_insert {row : GroupRoleAssignment}
    (h : (Write.apply db (.insertGroupRoleAssignment row)).GroupRole t g r) :
    db.GroupRole t g r ∨ (row.tenantId = t ∧ row.groupId = g ∧ row.roleId = r) := by
  simp only [GroupRole, Write.apply, RbacTables.insertGroupRoleAssignment] at h
  split at h
  · rcases Table.exists_of_insert h with h | ⟨ht, hg, hr, _⟩
    · exact Or.inl h
    · exact Or.inr ⟨ht, hg, hr⟩
  · exact Or.inl h

/-- A write makes a role effective only by opening a path to it. -/
theorem holds_apply {w : Write} (h : ((w.apply db).accessGraph t now).Holds u r) :
    (db.accessGraph t now).Holds u r ∨ w.Opens db t now u r := by
  obtain ⟨hactive, hreach⟩ := h
  cases w with
  | insertUserRoleAssignment row =>
    rcases hreach with hd | hg
    · rcases directRole_of_insert hd with hd | hopens
      · exact Or.inl ⟨hactive, Or.inl hd⟩
      · exact Or.inr hopens
    · exact Or.inl ⟨hactive, Or.inr hg⟩
  | endUserRoleAssignment ids tenantId userId roleId ended =>
    rcases hreach with hd | hg
    · exact Or.inl ⟨hactive, Or.inl (directRole_of_end hd)⟩
    · exact Or.inl ⟨hactive, Or.inr hg⟩
  | insertGroupMembership row =>
    rcases hreach with hd | ⟨g, hm, hg, hgr⟩
    · exact Or.inl ⟨hactive, Or.inl hd⟩
    · rcases groupMember_of_insert hm with hm | ⟨ht, hu, rfl⟩
      · exact Or.inl ⟨hactive, Or.inr ⟨g, hm, hg, hgr⟩⟩
      · exact Or.inr ⟨ht, hu, hg, hgr, hactive⟩
  | endGroupMembership ids tenantId groupId userId ended =>
    rcases hreach with hd | ⟨g, hm, hg⟩
    · exact Or.inl ⟨hactive, Or.inl hd⟩
    · exact Or.inl ⟨hactive, Or.inr ⟨g, groupMember_of_end hm, hg⟩⟩
  | insertGroupRoleAssignment row =>
    rcases hreach with hd | ⟨g, hm, hg, hgr⟩
    · exact Or.inl ⟨hactive, Or.inl hd⟩
    · rcases groupRole_of_insert hgr with hgr | ⟨ht, rfl, hr⟩
      · exact Or.inl ⟨hactive, Or.inr ⟨g, hm, hg, hgr⟩⟩
      · exact Or.inr ⟨ht, hr, hm, hg, hactive⟩
  | endGroupRoleAssignment ids tenantId groupId roleId ended =>
    rcases hreach with hd | ⟨g, hm, hg, hgr⟩
    · exact Or.inl ⟨hactive, Or.inl hd⟩
    · exact Or.inl ⟨hactive, Or.inr ⟨g, hm, hg, groupRole_of_end hgr⟩⟩
  | insertGroup row =>
    rcases hreach with hd | ⟨g, hm, hg, hgr⟩
    · exact Or.inl ⟨hactive, Or.inl hd⟩
    · have hm' : db.GroupMember t now u g := hm
      exact Or.inl ⟨hactive, Or.inr ⟨g, hm', (groupActive_insert hm').mp hg, hgr⟩⟩
  | updateGroup tenantId groupId name description status at? =>
    rcases hreach with hd | ⟨g, hm, hg, hgr⟩
    · exact Or.inl ⟨hactive, Or.inl hd⟩
    · rcases groupActive_of_update hg with hg | ⟨ht, rfl, hs⟩
      · exact Or.inl ⟨hactive, Or.inr ⟨g, hm, hg, hgr⟩⟩
      · exact Or.inr ⟨ht, hs, hm, hgr, hactive⟩
  | insertRole row =>
    have hreach' : (db.accessGraph t now).Reaches u r := hreach
    exact Or.inl ⟨(roleActive_insert hreach').mp hactive, hreach'⟩
  | updateRole tenantId roleId name description status at? =>
    rcases roleActive_of_update hactive with hactive | ⟨ht, hr, hs⟩
    · exact Or.inl ⟨hactive, hreach⟩
    · exact Or.inr ⟨ht, hr, hs, hreach⟩
  | _ => exact Or.inl ⟨hactive, hreach⟩

end Database

/-! ## Privileged roles and approvals -/

def Privileged (db : Database) (t r : Uuid) : Prop :=
  ∃ role ∈ db.roles.rows, role.tenantId = t ∧ role.roleId = r ∧
    role.roleKey ∈ privilegedTenantRoleKeys

/-- A request of this user for this role that an independent person approved. -/
def ApprovedFor (db : Database) (t u r : Uuid) : Prop :=
  ∃ row ∈ db.privilegedAccessRequests.rows, row.tenantId = t ∧ row.subjectUserId = u ∧
    row.roleId = r ∧ row.status = .approved ∧
    ∃ a ∈ row.approvedByUserId, a ≠ row.requestedByUserId ∧ a ≠ row.subjectUserId

/-- Every privileged role that is effective for a user has been approved. -/
def MakerChecker (now : Instant) (db : Database) : Prop :=
  ∀ t u, ∀ role ∈ db.effectiveTenantRoles t u now, role.roleKey ∈ privilegedTenantRoleKeys →
    ApprovedFor db t u role.roleId

theorem role_eq_of_id {db : Database} {a b : Role} (ha : a ∈ db.roles.rows) (hb : b ∈ db.roles.rows)
    (h : a.roleId = b.roleId) : a = b := by
  apply Table.shared_entry ha hb (k := (Index.primary, [a.roleId])) List.mem_cons_self
  rw [h]
  exact List.mem_cons_self

theorem makerChecker_iff {now : Instant} {db : Database} : MakerChecker now db ↔
    ∀ t u r, Privileged db t r → (db.accessGraph t now).Holds u r → ApprovedFor db t u r := by
  constructor
  · rintro h t u r ⟨role, hrole, ht, rfl, hkey⟩ ⟨⟨row, hrow, hrt, hrr, hrs⟩, hreach⟩
    rw [role_eq_of_id hrow hrole hrr] at hrs
    exact h t u role (Database.mem_effectiveTenantRoles.mpr ⟨hrole, ht, hrs, hreach⟩) hkey
  · intro h t u role hmem hkey
    obtain ⟨hrole, ht, hs, hreach⟩ := Database.mem_effectiveTenantRoles.mp hmem
    exact h t u role.roleId ⟨role, hrole, ht, rfl, hkey⟩ ⟨⟨role, hrole, ht, rfl, hs⟩, hreach⟩

theorem privileged_apply {w : Write} {db : Database} {t r : Uuid} (h : Privileged (w.apply db) t r)
    (hw : ∀ row, w = .insertRole row → row.roleKey ∉ privilegedTenantRoleKeys) :
    Privileged db t r := by
  cases w with
  | insertRole row =>
    rcases Table.exists_of_insert h with h | ⟨_, _, hkey⟩
    · exact h
    · exact absurd hkey (hw row rfl)
  | updateRole tenantId roleId name description status now =>
    simp only [Privileged, Write.apply, RbacTables.updateRole] at h
    rcases Table.exists_of_update h with h | ⟨role, hrole, _, hP⟩
    · exact h
    · exact ⟨role, hrole, hP⟩
  | _ => exact h

theorem approvedFor_insert {row : PrivilegedAccessRequest} {db : Database} {t u r : Uuid}
    (h : ApprovedFor db t u r) :
    ApprovedFor (Write.apply db (.insertPrivilegedAccessRequest row)) t u r := by
  obtain ⟨found, hfound, hP⟩ := h
  exact ⟨found, Table.mem_insert_of_mem hfound, hP⟩

/-- Deciding a pending request leaves the approved ones as they are. -/
theorem approvedFor_decide {pending : PrivilegedAccessRequest} {db : Database} {t u r : Uuid}
    {status : RequestStatus} {approver : Uuid} {now : Instant} {reason : Option String}
    (hpending : pending ∈ db.privilegedAccessRequests.rows) (hstatus : pending.status = .pending)
    (h : ApprovedFor db t u r) : ApprovedFor (Write.apply db (.decidePrivilegedAccessRequest
      pending.tenantId pending.requestId status approver now reason)) t u r := by
  obtain ⟨found, hfound, ht, hu, hr, happroved, hchecked⟩ := h
  simp only [ApprovedFor, Write.apply]
  refine ⟨found, Table.mem_update_of_not hfound ?_, ht, hu, hr, happroved, hchecked⟩
  rw [decide_eq_false_iff_not]
  rintro ⟨_, hid⟩
  have hsame : found = pending := by
    apply Table.shared_entry hfound hpending (k := (Index.primary, [found.requestId]))
      List.mem_cons_self
    rw [hid]
    exact List.mem_cons_self
  rw [hsame, hstatus] at happroved
  cases happroved

/-- An approval by an independent person is recorded as such. -/
theorem approvedFor_approve {pending : PrivilegedAccessRequest} {db : Database} {approver : Uuid}
    {now : Instant} {reason : Option String}
    (hpending : pending ∈ db.privilegedAccessRequests.rows)
    (hrequester : pending.requestedByUserId ≠ approver) (hsubject : pending.subjectUserId ≠ approver) :
    ApprovedFor (Write.apply db (.decidePrivilegedAccessRequest pending.tenantId pending.requestId
      .approved approver now reason)) pending.tenantId pending.subjectUserId pending.roleId := by
  have hindependent : approver ≠ pending.subjectUserId ∧ approver ≠ pending.requestedByUserId ∧
      RequestStatus.approved ≠ .pending := ⟨hsubject.symm, hrequester.symm, nofun⟩
  simp only [ApprovedFor, Write.apply]
  refine ⟨pending.decided .approved approver now reason,
    Table.mem_update_set hpending (decide_eq_true ⟨rfl, rfl⟩), ?_⟩
  unfold PrivilegedAccessRequest.decided
  rw [dif_pos hindependent]
  exact ⟨rfl, rfl, rfl, rfl, approver, rfl, hindependent.2.1, hindependent.1⟩

/-! ## One operation -/

/-- The requests depend on the governing writes only. -/
theorem requests_replayAll {ws : List Write} {db db' : Database}
    (h : db.privilegedAccessRequests = db'.privilegedAccessRequests) :
    (replayAll ws db).privilegedAccessRequests =
      (replayAll (ws.filter Write.governs) db').privilegedAccessRequests := by
  induction ws generalizing db db' with
  | nil => exact h
  | cons w ws ih =>
    cases hw : w.governs with
    | true =>
      rw [List.filter_cons_of_pos hw]
      apply ih
      cases w with
      | insertPrivilegedAccessRequest row => simp only [replay_eq, Write.apply, h]
      | decidePrivilegedAccessRequest => simp only [replay_eq, Write.apply, h]
      | _ => exact h
    | false =>
      rw [List.filter_cons_of_neg (by simp [hw])]
      apply ih
      cases w with
      | insertPrivilegedAccessRequest | decidePrivilegedAccessRequest => cases hw
      | _ => exact h

theorem makerChecker_of_governing {now : Instant} {db : Database} {g : TxProgress}
    (h : MakerChecker now (replayAll (governing g) db)) :
    MakerChecker now (replayAll g.pending db) := by
  have hgraph : SameGraph (replayAll g.pending db) (replayAll (governing g) db) := by
    apply (SameGraph.refl db).replayAll_filter
    intro w hw
    exact (Bool.or_eq_false_iff.mp hw).1
  have hrequests : (replayAll g.pending db).privilegedAccessRequests =
      (replayAll (governing g) db).privilegedAccessRequests := requests_replayAll rfl
  unfold MakerChecker ApprovedFor Database.effectiveTenantRoles Database.directTenantRoles
    Database.groupTenantRoles at *
  rw [hgraph.rbac, hrequests]
  exact h

/-- A change keeps the law if it takes back no approval and every privileged role that
it makes effective has been approved. -/
theorem MakerChecker.change {now : Instant} {db db' : Database} (h : MakerChecker now db)
    (hprivileged : ∀ t r, Privileged db' t r → Privileged db t r)
    (hkept : ∀ t u r, ApprovedFor db t u r → ApprovedFor db' t u r)
    (hholds : ∀ t u r, Privileged db t r → (db'.accessGraph t now).Holds u r →
      (db.accessGraph t now).Holds u r ∨ ApprovedFor db' t u r) : MakerChecker now db' := by
  rw [makerChecker_iff] at h ⊢
  intro t u r hprivileged' hholds'
  have hr := hprivileged t r hprivileged'
  rcases hholds t u r hr hholds' with hbefore | happroved
  · exact hkept t u r (h t u r hr hbefore)
  · exact happroved

theorem MakerChecker.apply {now : Instant} {db : Database} {w : Write} (h : MakerChecker now db)
    (hrole : ∀ row, w = .insertRole row → row.roleKey ∉ privilegedTenantRoleKeys)
    (hkept : ∀ t u r, ApprovedFor db t u r → ApprovedFor (w.apply db) t u r)
    (hopens : ∀ t u r, Privileged db t r → w.Opens db t now u r →
      (db.accessGraph t now).Holds u r ∨ ApprovedFor (w.apply db) t u r) :
    MakerChecker now (w.apply db) := by
  refine h.change (fun t r hp => privileged_apply hp hrole) hkept ?_
  intro t u r hp hholds
  rcases Database.holds_apply hholds with hbefore | hopen
  · exact Or.inl hbefore
  · exact hopens t u r hp hopen

theorem MakerChecker.single {now : Instant} {db : Database} {w : Write} (h : MakerChecker now db)
    (hrole : ∀ row, w ≠ .insertRole row)
    (hkept : ∀ t u r, ApprovedFor db t u r → ApprovedFor (w.apply db) t u r)
    (hopens : ∀ t u r, Privileged db t r → w.Opens db t now u r →
      (db.accessGraph t now).Holds u r ∨ ApprovedFor (w.apply db) t u r) :
    MakerChecker now (replayAll [w] db) :=
  h.apply (fun row hw => absurd hw (hrole row)) hkept hopens

theorem MakerChecker.insertRolePermissions {now : Instant} {t r : Uuid} {keys : List String}
    {db : Database} (h : MakerChecker now db) :
    MakerChecker now (replayAll (keys.map fun key => .insertRolePermission ⟨t, r, key⟩) db) := by
  induction keys generalizing db with
  | nil => exact h
  | cons key keys ih =>
    exact ih (h.apply (fun _ hw => nomatch hw) (fun _ _ _ ha => ha) fun _ _ _ _ ho => ho.elim)

theorem not_privileged_of_unreserved {key : String} (h : reservedRoleKey key = false) :
    key ∉ privilegedTenantRoleKeys := by
  intro hkey
  rw [privileged_keys_reserved.2 key hkey] at h
  cases h

/-- A new role has no privileged key, so it keeps the law whatever its permissions. -/
theorem MakerChecker.insertRole {now : Instant} {db : Database} {row : Role} {t : Uuid}
    {keys : List String} (h : MakerChecker now db) (hkey : reservedRoleKey row.roleKey = false) :
    MakerChecker now (replayAll (.insertRole row ::
      keys.map fun key => .insertRolePermission ⟨t, row.roleId, key⟩) db) := by
  apply MakerChecker.insertRolePermissions
  refine h.apply ?_ (fun _ _ _ ha => ha) fun _ _ _ _ ho => ho.elim
  intro row' hrow
  cases hrow
  exact not_privileged_of_unreserved hkey

namespace TenantOperation

/-- Whoever the operation connects to a privileged role through a group, or by making a
group or a role ACTIVE, has an independent approval for it already. -/
def ApprovedBefore (now : Instant) (db : Database) : TenantOperation → Prop
  | addGroupMember _ t g u => ∀ r, Privileged db t r → db.GroupActive t g → db.GroupRole t g r →
      db.RoleActive t r → ApprovedFor db t u r
  | assignGroupRole _ t g r => Privileged db t r → db.GroupActive t g → db.RoleActive t r →
      ∀ u, db.GroupMember t now u g → ApprovedFor db t u r
  | updateGroup _ t g _ _ status => status = some .active → ∀ u r, Privileged db t r →
      db.GroupMember t now u g → db.GroupRole t g r → db.RoleActive t r → ApprovedFor db t u r
  | updateRole _ t r _ _ status => status = some .active → Privileged db t r →
      ∀ u, (db.accessGraph t now).Reaches u r → ApprovedFor db t u r
  | _ => True

/-- One operation keeps the law when the group paths it opens are approved. -/
theorem result_keeps_makerChecker (op : TenantOperation) {now : Instant} {db : Database}
    (h : MakerChecker now db) (hok : op.ApprovedBefore now db) : MakerChecker now (op.result db) := by
  rcases op.result_cases db with hsame | ⟨g, heffect, hhistory, hresult⟩
  · rw [hsame]
    exact h
  rw [hresult]
  apply makerChecker_of_governing
  cases op with
  | assignUserRole c innerNow t u r | requestOrAssignUserRole c gateNow innerNow t u r =>
    rcases heffect with ⟨_, hg⟩ | ⟨hg, _, e, he, _, role, hrole, hkey⟩
    · rw [hg]
      exact h.single (fun _ => Write.noConfusion) (fun _ _ _ => approvedFor_insert)
        fun _ _ _ _ ho => ho.elim
    · rw [hg]
      refine h.single (fun _ => Write.noConfusion) (fun _ _ _ ha => ha) ?_
      rintro _ _ _ ⟨row, hrow, hrt, hrr, hprivileged⟩ ⟨rfl, rfl, rfl⟩
      have hfound : db.roleRow? t r = some row := roleRow?_of_mem hrow hrt hrr
      rw [hhistory e he, hfound] at hrole
      rw [← Option.some.inj hrole] at hkey
      exact absurd hprivileged hkey
  | approve c t request reason =>
    obtain ⟨row, rfl, rfl, hstatus, hrequester, hsubject, ⟨e, he, _, hrow⟩, hg | ⟨_, _, hg⟩⟩ := heffect
    · rw [hhistory e he] at hrow
      rw [hg]
      exact h.single (fun _ => Write.noConfusion) (fun _ _ _ => approvedFor_decide hrow hstatus)
        fun _ _ _ _ ho => ho.elim
    · rw [hhistory e he] at hrow
      rw [hg]
      -- The assignment alone would break the law; the decision that follows it approves.
      have hrow' : row ∈ (Write.apply db (.insertUserRoleAssignment (userRoleRow c row.tenantId
          row.subjectUserId row.roleId row.requestedByUserId))).privilegedAccessRequests.rows := hrow
      refine h.change (fun t r hp => ?_) (fun t u r ha => ?_) (fun t u r _ hholds => ?_)
      · have hassigned := privileged_apply (w := .decidePrivilegedAccessRequest ..) hp
          fun _ => nofun
        exact privileged_apply hassigned fun _ => nofun
      · exact approvedFor_decide hrow' hstatus ha
      · rcases Database.holds_apply (w := .insertUserRoleAssignment _) hholds with hbefore | ⟨rfl, rfl, rfl⟩
        · exact Or.inl hbefore
        · exact Or.inr (approvedFor_approve hrow' hrequester hsubject)
  | reject c t request reason =>
    obtain ⟨row, rfl, rfl, hstatus, hrequester, hsubject, ⟨e, he, _, hrow⟩, hg | ⟨hnone, _⟩⟩ := heffect
    · rw [hhistory e he] at hrow
      rw [hg]
      exact h.single (fun _ => Write.noConfusion) (fun _ _ _ => approvedFor_decide hrow hstatus)
        fun _ _ _ _ ho => ho.elim
    · exact absurd rfl hnone
  | removeUserRole | removeGroupMember | removeGroupRole =>
    obtain ⟨⟨ids, hg⟩, _⟩ := heffect
    rw [hg]
    exact h.single (fun _ => Write.noConfusion) (fun _ _ _ ha => ha) fun _ _ _ _ ho => ho.elim
  | createGroup =>
    have hg := heffect
    unfold Effect at hg
    rw [hg]
    exact h.single (fun _ => Write.noConfusion) (fun _ _ _ ha => ha) fun _ _ _ _ ho => ho.elim
  | updateGroup c t gid name description status =>
    obtain ⟨current, ⟨e, he, _, hcurrent⟩, hg, _⟩ := heffect
    rw [hhistory e he] at hcurrent
    obtain ⟨hct, hcg⟩ : current.tenantId = t ∧ current.groupId = gid := by
      simpa using List.find?_some hcurrent
    rw [hg]
    refine h.single (fun _ => Write.noConfusion) (fun _ _ _ ha => ha) ?_
    rintro _ u r hr ⟨rfl, hs, hm, hgr, hra⟩
    cases status with
    | none =>
      have hactive : db.GroupActive t gid :=
        ⟨current, List.mem_of_find?_eq_some hcurrent, hct, hcg, hs⟩
      exact Or.inl ⟨hra, Or.inr ⟨gid, hm, hactive, hgr⟩⟩
    | some s => exact Or.inr (hok (congrArg some hs) u r hr hm hgr hra)
  | addGroupMember c t gid u =>
    rw [heffect.1]
    refine h.single (fun _ => Write.noConfusion) (fun _ _ _ ha => ha) ?_
    rintro _ _ r hr ⟨rfl, rfl, hactive, hgr, hra⟩
    exact Or.inr (hok r hr hactive hgr hra)
  | assignGroupRole c t gid r =>
    rw [heffect.1]
    refine h.single (fun _ => Write.noConfusion) (fun _ _ _ ha => ha) ?_
    rintro _ u _ hr ⟨rfl, rfl, hm, hactive, hra⟩
    exact Or.inr (hok hr hactive hra u hm)
  | createRole c t key name description keys =>
    obtain ⟨hkey, _, hg⟩ := heffect
    rw [hg]
    exact h.insertRole hkey
  | createTemplateRole c bindingId t key name description templateKeys keys =>
    obtain ⟨hkey, _, keys, hg⟩ := heffect
    rw [hg]
    exact h.insertRole hkey
  | updateRole c t r name description status =>
    obtain ⟨current, ⟨e, he, _, hcurrent⟩, hg, _⟩ := heffect
    rw [hhistory e he] at hcurrent
    obtain ⟨hct, hcr⟩ : current.tenantId = t ∧ current.roleId = r := by
      simpa using List.find?_some hcurrent
    rw [hg]
    refine h.single (fun _ => Write.noConfusion) (fun _ _ _ ha => ha) ?_
    rintro _ u _ hr ⟨rfl, rfl, hs, hreach⟩
    cases status with
    | none =>
      exact Or.inl ⟨⟨current, List.mem_of_find?_eq_some hcurrent, hct, hcr, hs⟩, hreach⟩
    | some s => exact Or.inr (hok (congrArg some hs) hr u hreach)
  | addRolePermission | removeRolePermission =>
    rw [heffect.1]
    exact h.single (fun _ => Write.noConfusion) (fun _ _ _ ha => ha) fun _ _ _ _ ho => ho.elim
  | upgradeTemplate =>
    obtain ⟨⟨keys, hg⟩, _⟩ := heffect
    rw [hg]
    exact h.insertRolePermissions

end TenantOperation

/-! ## Runs of operations -/

inductive Reached (ok : Database → TenantOperation → Prop) (start : Database) : Database → Prop
  | start : Reached ok start start
  | step {db : Database} (op : TenantOperation) : Reached ok start db → ok db op →
      Reached ok start (op.result db)

theorem reached_foldl {start : Database} (ops : List TenantOperation) :
    Reached (fun _ _ => True) start (ops.foldl (fun db op => op.result db) start) := by
  have hfrom : ∀ (ops : List TenantOperation) (db : Database),
      Reached (fun _ _ => True) start db →
        Reached (fun _ _ => True) start (ops.foldl (fun db op => op.result db) db) := by
    intro ops
    induction ops with
    | nil => exact fun _ h => h
    | cons op ops ih => exact fun db h => ih _ (h.step op trivial)
  exact hfrom ops start .start

/-- If no privileged role is effective at first and every operation opens approved paths
only, then every privileged role that is effective later has been approved. -/
theorem privileged_roles_are_approved (now : Instant) (start : Database)
    (hstart : ∀ t u, ∀ role ∈ start.effectiveTenantRoles t u now,
      role.roleKey ∉ privilegedTenantRoleKeys) {db : Database}
    (hrun : Reached (fun db op => op.ApprovedBefore now db) start db) : MakerChecker now db := by
  induction hrun with
  | start => exact fun t u role hrole hkey => absurd hkey (hstart t u role hrole)
  | step op _ hok ih => exact op.result_keeps_makerChecker ih hok

def ownerDatabase : Database :=
  replayAll [.insertRole ⟨"owner", "tenant", "tenant.owner", "Owner", none, .active, 0, 0⟩]
    { (default : Database) with
      tenants := Table.empty.insert ⟨"tenant", "TENANT", "Tenant", .active, 0, 0⟩
      users := ((Table.empty.insert ⟨"admin", "Admin", none, none, none, none, .active, 0, 0⟩).insert
        ⟨"checker", "Checker", none, none, none, none, .active, 0, 0⟩).insert
        ⟨"user", "User", none, none, none, none, .active, 0, 0⟩
      securityPrincipals := ((Table.empty.insert ⟨"admin", .user, "admin", .active⟩).insert
        ⟨"checker", .user, "checker", .active⟩).insert ⟨"user", .user, "user", .active⟩ }

theorem ownerDatabase_unprivileged (t u : Uuid) (now : Instant) :
    ownerDatabase.effectiveTenantRoles t u now = [] := rfl

/-- The role is requested by one person and approved by another. -/
theorem requested_owner_is_approved : ∃ db, MakerChecker 0 db ∧
    (db.effectiveTenantRoles "tenant" "user" 0).map (·.roleKey) = ["tenant.owner"] := by
  refine ⟨_, privileged_roles_are_approved 0 ownerDatabase ?_
    ((Reached.start.step (.assignUserRole ⟨"admin", "first", 0, "request", "audit-1"⟩ 0
        "tenant" "user" "owner") trivial).step
      (.approve ⟨"checker", "second", 0, "assignment", "audit-2"⟩ "tenant" "request" none) trivial), ?_⟩
  · intro t u role hrole
    rw [ownerDatabase_unprivileged] at hrole
    cases hrole
  · decide +kernel

/-- One person makes a group, joins it and gives it the owner role. -/
def selfPromotion : List TenantOperation :=
  [.createGroup ⟨"admin", "first", 0, "group", "audit-1"⟩ "tenant" "team" "Team" none,
    .addGroupMember ⟨"admin", "second", 0, "membership", "audit-2"⟩ "tenant" "group" "admin",
    .assignGroupRole ⟨"admin", "third", 0, "assignment", "audit-3"⟩ "tenant" "group" "owner"]

/-- Through a group a privileged role becomes effective without any request. -/
theorem group_path_escapes_makerChecker : ¬ ∀ (now : Instant) (start db : Database),
    (∀ t u, ∀ role ∈ start.effectiveTenantRoles t u now,
      role.roleKey ∉ privilegedTenantRoleKeys) →
    Reached (fun _ _ => True) start db → MakerChecker now db := by
  intro h
  have hstart : ∀ t u, ∀ role ∈ ownerDatabase.effectiveTenantRoles t u 0,
      role.roleKey ∉ privilegedTenantRoleKeys := by
    intro t u role hrole
    rw [ownerDatabase_unprivileged] at hrole
    cases hrole
  have hlaw := h 0 ownerDatabase _ hstart (reached_foldl selfPromotion)
  have hroles : ((selfPromotion.foldl (fun db op => op.result db) ownerDatabase).effectiveTenantRoles
      "tenant" "admin" 0).map (·.roleKey) = ["tenant.owner"] := by
    decide +kernel
  have hrequests : (selfPromotion.foldl (fun db op => op.result db)
      ownerDatabase).privilegedAccessRequests.rows = [] := by
    decide +kernel
  have hkey := List.mem_map.mp (hroles ▸ List.mem_singleton_self "tenant.owner")
  obtain ⟨role, hrole, hrolekey⟩ := hkey
  obtain ⟨row, hrow, _⟩ := hlaw "tenant" "admin" role hrole (by rw [hrolekey]; decide)
  rw [hrequests] at hrow
  cases hrow

end VerigenceSecurity
