import VerigenceSecurity.TenantOperations
import VerigenceSecurity.Library.Locking

/-! # The authorization-version law

A change of a user's effective permissions raises the user's authorization
version, so that tokens of the old version can be refused. An operation alone
keeps the law. Overlapping operations keep it when what their affected-user
queries saw is still current at their commit.
-/

namespace VerigenceSecurity
set_option autoImplicit false

open Transaction Relational

/-! ## What the affected-user queries find -/

namespace Database

variable {db : Database} {t u g r : Uuid} {now : Instant}

theorem mem_effectiveGroupUsers : u ∈ db.effectiveGroupUsers t g now ↔
    db.GroupMember t now u g ∧ db.activeUser u = true := by
  simp only [effectiveGroupUsers, List.mem_map, List.mem_filter, Bool.and_eq_true, decide_eq_true_eq]
  constructor
  · rintro ⟨m, ⟨⟨hm, ⟨ht, hg, hs⟩, hv⟩, ha⟩, rfl⟩
    exact ⟨⟨m, hm, ht, rfl, hg, hs, hv⟩, ha⟩
  · rintro ⟨⟨m, hm, ht, rfl, hg, hs, hv⟩, ha⟩
    exact ⟨m, ⟨⟨hm, ⟨ht, hg, hs⟩, hv⟩, ha⟩, rfl⟩

theorem mem_effectiveRoleUsers : u ∈ db.effectiveRoleUsers t r now ↔
    (db.accessGraph t now).Reaches u r ∧ db.activeUser u = true := by
  simp only [effectiveRoleUsers, List.mem_dedup, List.mem_append, List.mem_map, List.mem_flatMap,
    List.mem_filter, Bool.and_eq_true, decide_eq_true_eq]
  constructor
  · rintro (⟨a, ⟨⟨ha, ⟨ht, hr, hs⟩, hv⟩, hactive⟩, rfl⟩ | ⟨a, ⟨ha, hat, har, has⟩, g, ⟨hg, hgt, hgg, hgs⟩,
      m, ⟨⟨hm, ⟨hmt, hmg, hms⟩, hmv⟩, hactive⟩, rfl⟩)
    · exact ⟨Or.inl ⟨a, ha, ht, rfl, hr, hs, hv⟩, hactive⟩
    · have hgt' := hgt.trans hat
      exact ⟨Or.inr ⟨g.groupId, ⟨m, hm, hmt.trans hgt', rfl, hmg, hms, hmv⟩,
        ⟨g, hg, hgt', rfl, hgs⟩, a, ha, hat, hgg.symm, har, has⟩, hactive⟩
  · rintro ⟨⟨a, ha, ht, rfl, hr, hs, hv⟩ | ⟨gid, ⟨m, hm, hmt, rfl, hmg, hms, hmv⟩,
      ⟨g, hg, hgt, hgg, hgs⟩, a, ha, hat, hag, har, has⟩, hactive⟩
    · exact Or.inl ⟨a, ⟨⟨ha, ⟨ht, hr, hs⟩, hv⟩, hactive⟩, rfl⟩
    · exact Or.inr ⟨a, ⟨ha, hat, har, has⟩, g, ⟨hg, hgt.trans hat.symm, hgg.trans hag.symm, hgs⟩,
        m, ⟨⟨hm, ⟨hmt.trans hgt.symm, hmg.trans hgg.symm, hms⟩, hmv⟩, hactive⟩, rfl⟩

/-- The trigger asks for no validity and no principal, so it finds more users. -/
theorem mem_templateAuthzUsers (h : (db.accessGraph t now).Reaches u r)
    (hactive : db.activeUser u = true) : u ∈ db.templateAuthzUsers t r := by
  have huser : (db.users.rows.any fun x => decide (x.userId = u ∧ x.status = .active)) = true :=
    (Bool.and_eq_true _ _ ▸ hactive).1
  simp only [templateAuthzUsers, List.mem_dedup, List.mem_append, List.mem_map, List.mem_flatMap,
    List.mem_filter, decide_eq_true_eq]
  rcases h with ⟨a, ha, ht, rfl, hr, hs, _⟩ | ⟨gid, ⟨m, hm, hmt, rfl, hmg, hms, _⟩,
    ⟨g, hg, hgt, hgg, hgs⟩, a, ha, hat, hag, har, has⟩
  · exact Or.inl ⟨a, ⟨⟨ha, ht, hr, hs⟩, huser⟩, rfl⟩
  · exact Or.inr ⟨a, ⟨ha, hat, har, has⟩, g, ⟨hg, hgt.trans hat.symm, hgg.trans hag.symm, hgs⟩,
      m, ⟨⟨hm, hmt.trans hgt.symm, hmg.trans hgg.symm, hms⟩, huser⟩, rfl⟩

theorem effective_insertRolePermissions {t' : Uuid} {keys : List String}
    (h : ¬ (t' = t ∧ (db.accessGraph t now).Reaches u r)) : (db.accessGraph t now).effective u =
      ((replayAll (keys.map fun key => .insertRolePermission ⟨t', r, key⟩) db).accessGraph
        t now).effective u := by
  induction keys generalizing db with
  | nil => rfl
  | cons key keys ih =>
    have haffects : ¬ Write.Affects db t now u (.insertRolePermission ⟨t', r, key⟩) := h
    exact (effective_apply haffects).trans (ih h)

end Database

/-! ## The law -/

/-- RULE-AUTHVER: whoever's permissions change gets a higher version. -/
def VersionLaw (now : Instant) (before after : Database) : Prop :=
  ∀ t u, before.activeUser u = true →
    effectivePermissions before t u now ≠ effectivePermissions after t u now →
    before.authorizationVersion t u < after.authorizationVersion t u

/-- The law follows from the pending writes that change the graph. -/
theorem versionLaw_of_governing {now : Instant} {db : Database} {g : TxProgress}
    (h : ∀ t u, db.activeUser u = true → ¬ Bumps g t u → (db.accessGraph t now).effective u =
      ((replayAll (governing g) db).accessGraph t now).effective u) :
    VersionLaw now db (replayAll g.pending db) := by
  intro t u hactive hchanged
  by_contra hversion
  apply hchanged
  apply effectivePermissions_congr
  have hsame : SameGraph (replayAll g.pending db) (replayAll (governing g) db) := by
    apply (SameGraph.refl db).replayAll_filter
    intro w hw
    exact (Bool.or_eq_false_iff.mp hw).1
  rw [hsame.accessGraph_eq]
  exact h t u hactive fun hbump => hversion (Database.authorizationVersion_lt_of_bump hbump db)

theorem versionLaw_of_single {now : Instant} {db : Database} {g : TxProgress} {w : Write}
    (hg : governing g = [w])
    (h : ∀ t u, db.activeUser u = true → w.Affects db t now u → Bumps g t u) :
    VersionLaw now db (replayAll g.pending db) := by
  apply versionLaw_of_governing
  intro t u hactive hbump
  rw [hg]
  exact Database.effective_apply fun ha => hbump (h t u hactive ha)

/-! ## What an operation has to have seen -/

def UsersSeen (g : TxProgress) (name : StatementName) (found : Database → List Uuid)
    (users : List Uuid) : Prop :=
  ∀ e ∈ g.history, e.label = name → users ⊆ found e.committed

namespace TenantOperation

/-- What the operation saw about whom it affects is still right in these rows. -/
def Current (now : Instant) (db : Database) (g : TxProgress) : TenantOperation → Prop
  | updateGroup c t gid _ _ status =>
    (∀ e ∈ g.history, e.label = .getGroup →
      (e.committed.groupRow? t gid).map (·.status) = (db.groupRow? t gid).map (·.status)) ∧
    ((∃ s ∈ status, (db.groupRow? t gid).map (·.status) ≠ some s) →
      UsersSeen g .effectiveGroupUsers (·.effectiveGroupUsers t gid c.now)
        (db.effectiveGroupUsers t gid now))
  | assignGroupRole c t gid _ | removeGroupRole c t gid _ =>
    UsersSeen g .effectiveGroupUsers (·.effectiveGroupUsers t gid c.now)
      (db.effectiveGroupUsers t gid now)
  | updateRole c t r _ _ status =>
    (∀ e ∈ g.history, e.label = .getRole →
      (e.committed.roleRow? t r).map (·.status) = (db.roleRow? t r).map (·.status)) ∧
    ((∃ s ∈ status, (db.roleRow? t r).map (·.status) ≠ some s) →
      UsersSeen g .effectiveRoleUsers (·.effectiveRoleUsers t r c.now)
        (db.effectiveRoleUsers t r now))
  | addRolePermission c t r _ | removeRolePermission c t r _ =>
    UsersSeen g .effectiveRoleUsers (·.effectiveRoleUsers t r c.now) (db.effectiveRoleUsers t r now)
  | upgradeTemplate _ t r _ =>
    UsersSeen g .bind (·.templateAuthzUsers t r) (db.templateAuthzUsers t r)
  | _ => True

def Fresh (db : Database) : TenantOperation → Prop
  | createRole c .. | createTemplateRole c .. => ∀ r ∈ db.roles.rows, r.roleId ≠ c.newId
  | _ => True

theorem bumps_of_seen {g : TxProgress} {name : StatementName} {t u : Uuid}
    {found : Database → List Uuid} {users : List Uuid} (h : BumpsSeen g name t found)
    (hseen : UsersSeen g name found users) (hu : u ∈ users) : Bumps g t u := by
  obtain ⟨e, he, hname, hbumps⟩ := h
  exact hbumps u (hseen e he hname hu)

theorem groupRow?_of_mem {db : Database} {t gid : Uuid} {row : Group} (hrow : row ∈ db.groups.rows)
    (ht : row.tenantId = t) (hg : row.groupId = gid) : db.groupRow? t gid = some row := by
  apply Table.find?_of_mem hrow (decide_eq_true ⟨ht, hg⟩) (.primary, [gid])
  intro found hfound
  rw [← (of_decide_eq_true hfound).2]
  exact List.mem_cons_self

theorem roleRow?_of_mem {db : Database} {t r : Uuid} {row : Role} (hrow : row ∈ db.roles.rows)
    (ht : row.tenantId = t) (hr : row.roleId = r) : db.roleRow? t r = some row := by
  apply Table.find?_of_mem hrow (decide_eq_true ⟨ht, hr⟩) (.primary, [r])
  intro found hfound
  rw [← (of_decide_eq_true hfound).2]
  exact List.mem_cons_self

theorem not_reaches_of_fresh {db : Database} {t u r : Uuid} {now : Instant}
    (h : ∀ row ∈ db.roles.rows, row.roleId ≠ r) : ¬ (db.accessGraph t now).Reaches u r := by
  intro hreach
  obtain ⟨row, hrow, _, hr⟩ := Database.role_of_reaches hreach
  exact h row hrow hr

/-- A new role changes nobody's permissions, whatever permissions it is given. -/
theorem effective_createRole {db : Database} {t u t' : Uuid} {now : Instant} {R : Role}
    {keys : List String} (h : ∀ r ∈ db.roles.rows, r.roleId ≠ R.roleId) :
    (db.accessGraph t now).effective u = ((replayAll (.insertRole R ::
      keys.map fun key => .insertRolePermission ⟨t', R.roleId, key⟩) db).accessGraph
        t now).effective u := by
  have hrole : ¬ Write.Affects db t now u (.insertRole R) := id
  rw [Database.effective_apply hrole, replayAll_cons, replay_eq]
  apply Database.effective_insertRolePermissions
  rintro ⟨_, hreach⟩
  exact not_reaches_of_fresh h hreach

/-- An operation keeps the law if what it saw is current when it commits. -/
theorem lawful (op : TenantOperation) {g : TxProgress} {db : Database} {now : Instant}
    (heffect : op.Effect g) (hcurrent : op.Current now db g) (hfresh : op.Fresh db) :
    VersionLaw now db (replayAll g.pending db) := by
  cases op with
  | assignUserRole c innerNow t u r | requestOrAssignUserRole c gateNow innerNow t u r =>
    rcases heffect with ⟨_, hg⟩ | ⟨hg, hbump, _⟩
    · apply versionLaw_of_single hg
      exact fun _ _ _ ha => ha.elim
    · apply versionLaw_of_single hg
      rintro _ _ _ ⟨rfl, rfl⟩
      exact hbump
  | approve c t request reason =>
    obtain ⟨row, _, _, _, _, _, _, hg | ⟨_, hbump, hg⟩⟩ := heffect
    · apply versionLaw_of_single hg
      exact fun _ _ _ ha => ha.elim
    · apply versionLaw_of_governing
      intro t' u' _ hnot
      rw [hg]
      have hassign : ¬ Write.Affects db t' now u' (.insertUserRoleAssignment
          (userRoleRow c t row.subjectUserId row.roleId row.requestedByUserId)) := by
        rintro ⟨rfl, rfl⟩
        exact hnot hbump
      exact Database.effective_apply hassign
  | reject c t request reason =>
    obtain ⟨row, _, _, _, _, _, _, hg | ⟨hnone, _⟩⟩ := heffect
    · apply versionLaw_of_single hg
      exact fun _ _ _ ha => ha.elim
    · exact absurd rfl hnone
  | removeUserRole c t u r =>
    obtain ⟨⟨ids, hg⟩, hbump⟩ := heffect
    apply versionLaw_of_single hg
    rintro _ _ _ ⟨rfl, rfl⟩
    exact hbump
  | createGroup c t key name description =>
    apply versionLaw_of_single heffect
    exact fun _ _ _ ha => ha.elim
  | updateGroup c t gid name description status =>
    obtain ⟨current, ⟨e, he, hname, hrow⟩, hg, e', he', hname', hbumps⟩ := heffect
    obtain ⟨hstatus, hseen⟩ := hcurrent
    apply versionLaw_of_single hg
    rintro _ u hactive ⟨rfl, hm, row, hmem, hrt, hrg, hne⟩
    have hdb := groupRow?_of_mem hmem hrt hrg
    have hsame : current.status = row.status := by
      have h := hstatus e he hname
      rw [hrow, hdb] at h
      exact Option.some.inj h
    cases status with
    | none => exact absurd hsame.symm hne
    | some s =>
      rw [Option.getD_some] at hne hbumps
      have hchanges : ∃ s' ∈ some s, (db.groupRow? t gid).map (·.status) ≠ some s' :=
        ⟨s, rfl, by rw [hdb]; simpa using hne⟩
      have hchange : current.status ≠ s := by
        rw [hsame]
        exact hne
      apply hbumps
      dsimp only
      rw [if_pos hchange]
      exact hseen hchanges e' he' hname' (Database.mem_effectiveGroupUsers.mpr ⟨hm, hactive⟩)
  | addGroupMember c t gid u =>
    obtain ⟨hg, hbump⟩ := heffect
    apply versionLaw_of_single hg
    rintro _ _ _ ⟨rfl, rfl⟩
    exact hbump
  | removeGroupMember c t gid u =>
    obtain ⟨⟨ids, hg⟩, hbump⟩ := heffect
    apply versionLaw_of_single hg
    rintro _ _ _ ⟨rfl, rfl⟩
    exact hbump
  | assignGroupRole c t gid r =>
    obtain ⟨hg, hbumps⟩ := heffect
    apply versionLaw_of_single hg
    rintro _ u hactive ⟨rfl, hm⟩
    exact bumps_of_seen hbumps hcurrent (Database.mem_effectiveGroupUsers.mpr ⟨hm, hactive⟩)
  | removeGroupRole c t gid r =>
    obtain ⟨⟨ids, hg⟩, hbumps⟩ := heffect
    apply versionLaw_of_single hg
    rintro _ u hactive ⟨rfl, hm⟩
    exact bumps_of_seen hbumps hcurrent (Database.mem_effectiveGroupUsers.mpr ⟨hm, hactive⟩)
  | createRole c t key name description keys =>
    obtain ⟨_, _, hg⟩ := heffect
    apply versionLaw_of_governing
    intro _ _ _ _
    rw [hg]
    exact effective_createRole (R := roleRow c t key name description) hfresh
  | createTemplateRole c bindingId t key name description templateKeys keys =>
    obtain ⟨_, _, keys, hg⟩ := heffect
    apply versionLaw_of_governing
    intro _ _ _ _
    rw [hg]
    exact effective_createRole (R := roleRow c t key name description) hfresh
  | updateRole c t r name description status =>
    obtain ⟨current, ⟨e, he, hname, hrow⟩, hg, e', he', hname', hbumps⟩ := heffect
    obtain ⟨hstatus, hseen⟩ := hcurrent
    apply versionLaw_of_single hg
    rintro _ u hactive ⟨rfl, hreach, row, hmem, hrt, hrr, hne⟩
    have hdb := roleRow?_of_mem hmem hrt hrr
    have hsame : current.status = row.status := by
      have h := hstatus e he hname
      rw [hrow, hdb] at h
      exact Option.some.inj h
    cases status with
    | none => exact absurd hsame.symm hne
    | some s =>
      rw [Option.getD_some] at hne hbumps
      have hchanges : ∃ s' ∈ some s, (db.roleRow? t r).map (·.status) ≠ some s' :=
        ⟨s, rfl, by rw [hdb]; simpa using hne⟩
      have hchange : current.status ≠ s := by
        rw [hsame]
        exact hne
      apply hbumps
      dsimp only
      rw [if_pos hchange]
      exact hseen hchanges e' he' hname' (Database.mem_effectiveRoleUsers.mpr ⟨hreach, hactive⟩)
  | addRolePermission c t r p =>
    obtain ⟨hg, hbumps⟩ := heffect
    apply versionLaw_of_single hg
    rintro _ u hactive ⟨rfl, hreach⟩
    exact bumps_of_seen hbumps hcurrent (Database.mem_effectiveRoleUsers.mpr ⟨hreach, hactive⟩)
  | removeRolePermission c t r p =>
    obtain ⟨hg, hbumps⟩ := heffect
    apply versionLaw_of_single hg
    rintro _ u hactive ⟨rfl, hreach⟩
    exact bumps_of_seen hbumps hcurrent (Database.mem_effectiveRoleUsers.mpr ⟨hreach, hactive⟩)
  | upgradeTemplate c t r key =>
    obtain ⟨⟨keys, hg⟩, hbumps⟩ := heffect
    apply versionLaw_of_governing
    intro t' u hactive hbump
    rw [hg]
    apply Database.effective_insertRolePermissions
    rintro ⟨rfl, hreach⟩
    exact hbump (bumps_of_seen hbumps hcurrent (Database.mem_templateAuthzUsers hreach hactive))

/-! ## Operations alone -/

/-- The reading that the operation queries its affected users with. -/
def now : TenantOperation → Instant
  | assignUserRole _ innerNow .. | requestOrAssignUserRole _ _ innerNow .. => innerNow
  | approve c .. | reject c .. | removeUserRole c .. | createGroup c .. | updateGroup c ..
  | addGroupMember c .. | removeGroupMember c .. | assignGroupRole c .. | removeGroupRole c ..
  | createRole c .. | createTemplateRole c .. | updateRole c .. | addRolePermission c ..
  | removeRolePermission c .. | upgradeTemplate c .. => c.now

def result (op : TenantOperation) (db : Database) : Database := (op.program.alone db).2

theorem result_cases (op : TenantOperation) (db : Database) :
    op.result db = db ∨ ∃ g, op.Effect g ∧ (∀ e ∈ g.history, e.committed = db) ∧
      op.result db = replayAll g.pending db := by
  rcases Program.alone_upholds op.commits db with h | ⟨g, _, heffect, hhistory, h⟩
  · exact Or.inl h
  · exact Or.inr ⟨g, heffect, hhistory, h⟩

theorem usersSeen_of_alone {g : TxProgress} {db : Database} {name : StatementName}
    {found : Database → List Uuid} {users : List Uuid} (h : ∀ e ∈ g.history, e.committed = db)
    (husers : users = found db) : UsersSeen g name found users := by
  intro e he _
  rw [h e he, husers]
  exact List.Subset.refl _

theorem current_of_alone (op : TenantOperation) {g : TxProgress} {db : Database}
    (h : ∀ e ∈ g.history, e.committed = db) : op.Current op.now db g := by
  cases op with
  | updateGroup | updateRole =>
    exact ⟨fun e he _ => by rw [h e he], fun _ => usersSeen_of_alone h rfl⟩
  | assignGroupRole | removeGroupRole | addRolePermission | removeRolePermission
  | upgradeTemplate =>
    unfold Current
    exact usersSeen_of_alone h rfl
  | _ => trivial

theorem fresh_of_insert? {db : Database} {row : Role} (h : (db.roles.insert? row).isSome = true) :
    ∀ r ∈ db.roles.rows, r.roleId ≠ row.roleId := by
  intro r hr hid
  apply Table.isSome_insert?.mp h r hr (.primary, [r.roleId]) List.mem_cons_self
  rw [hid]
  exact List.mem_cons_self

theorem fresh_of_alone (op : TenantOperation) {g : TxProgress} {db : Database}
    (heffect : op.Effect g) (h : ∀ e ∈ g.history, e.committed = db) : op.Fresh db := by
  cases op with
  | createRole | createTemplateRole =>
    obtain ⟨_, ⟨e, he, _, hinsert⟩, _⟩ := heffect
    rw [h e he] at hinsert
    exact fresh_of_insert? hinsert
  | _ => trivial

/-- Whatever an operation changes alone, it raises the version of every ACTIVE user whose
effective permissions change, and it lowers no version. -/
theorem result_keeps_version_law (op : TenantOperation) (db : Database) :
    VersionLaw op.now db (op.result db) ∧
      ∀ t u, db.authorizationVersion t u ≤ (op.result db).authorizationVersion t u := by
  rcases op.result_cases db with h | ⟨g, heffect, hhistory, h⟩
  · rw [h]
    exact ⟨fun _ _ _ hne => absurd rfl hne, fun _ _ => Nat.le_refl _⟩
  · rw [h]
    exact ⟨op.lawful heffect (op.current_of_alone hhistory) (op.fresh_of_alone heffect hhistory),
      Database.authorizationVersion_le_replayAll g.pending db⟩

end TenantOperation

end VerigenceSecurity
