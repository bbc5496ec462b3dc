import VerigenceSecurity.AuthorizationGraph
import VerigenceSecurity.Library.ProgramLogic

/-! # What the tenant operations commit

Each operation has a program and an effect. The effect says which writes to the
access graph are pending when the operation commits, whose versions it bumps,
and what the query saw that it bumps by. The programs keep their effects in
every interleaving.
-/

namespace VerigenceSecurity
set_option autoImplicit false

open Transaction Program

inductive TenantOperation
  | assignUserRole (c : AdminCall) (innerNow : Instant) (tenantId userId roleId : Uuid)
  | requestOrAssignUserRole (c : AdminCall) (gateNow innerNow : Instant)
      (tenantId userId roleId : Uuid)
  | approve (c : AdminCall) (tenantId requestId : Uuid) (reason : Option String)
  | reject (c : AdminCall) (tenantId requestId : Uuid) (reason : Option String)
  | removeUserRole (c : AdminCall) (tenantId userId roleId : Uuid)
  | createGroup (c : AdminCall) (tenantId : Uuid) (groupKey groupName : String)
      (description : Option String)
  | updateGroup (c : AdminCall) (tenantId groupId : Uuid) (groupName description : Option String)
      (status : Option ActiveStatus)
  | addGroupMember (c : AdminCall) (tenantId groupId userId : Uuid)
  | removeGroupMember (c : AdminCall) (tenantId groupId userId : Uuid)
  | assignGroupRole (c : AdminCall) (tenantId groupId roleId : Uuid)
  | removeGroupRole (c : AdminCall) (tenantId groupId roleId : Uuid)
  | createRole (c : AdminCall) (tenantId : Uuid) (roleKey roleName : String)
      (description : Option String) (permissionKeys : List String)
  | createTemplateRole (c : AdminCall) (bindingId : Nat → Uuid) (tenantId : Uuid)
      (roleKey roleName : String) (description : Option String)
      (templateKeys permissionKeys : List String)
  | updateRole (c : AdminCall) (tenantId roleId : Uuid) (roleName description : Option String)
      (status : Option ActiveStatus)
  | addRolePermission (c : AdminCall) (tenantId roleId : Uuid) (permissionKey : String)
  | removeRolePermission (c : AdminCall) (tenantId roleId : Uuid) (permissionKey : String)
  | upgradeTemplate (c : AdminCall) (tenantId roleId : Uuid) (templateKey : String)

def discard {α : Type} (p : Tx α) : Tx Unit := do
  let _ ← p
  pure ()

namespace TenantOperation

def program : TenantOperation → Tx Unit
  | assignUserRole c innerNow t u r => discard (VerigenceSecurity.assignUserRole c innerNow t u r)
  | requestOrAssignUserRole c gateNow innerNow t u r =>
    discard (VerigenceSecurity.requestOrAssignUserRole c gateNow innerNow t u r)
  | approve c t request reason => discard (VerigenceSecurity.approve c t request reason)
  | reject c t request reason => discard (VerigenceSecurity.reject c t request reason)
  | removeUserRole c t u r => discard (VerigenceSecurity.removeUserRole c t u r)
  | createGroup c t key name description =>
    discard (VerigenceSecurity.createGroup c t key name description)
  | updateGroup c t g name description status =>
    discard (VerigenceSecurity.updateGroup c t g name description status)
  | addGroupMember c t g u => discard (VerigenceSecurity.addGroupMember c t g u)
  | removeGroupMember c t g u => discard (VerigenceSecurity.removeGroupMember c t g u)
  | assignGroupRole c t g r => discard (VerigenceSecurity.assignGroupRole c t g r)
  | removeGroupRole c t g r => discard (VerigenceSecurity.removeGroupRole c t g r)
  | createRole c t key name description keys =>
    discard (VerigenceSecurity.createRole c t key name description keys)
  | createTemplateRole c bindingId t key name description templateKeys keys =>
    discard (VerigenceSecurity.createTemplateRole c bindingId t key name description templateKeys keys)
  | updateRole c t r name description status =>
    discard (VerigenceSecurity.updateRole c t r name description status)
  | addRolePermission c t r p => discard (VerigenceSecurity.addRolePermission c t r p)
  | removeRolePermission c t r p => discard (VerigenceSecurity.removeRolePermission c t r p)
  | upgradeTemplate c t r key => discard (VerigenceSecurity.upgradeTemplate c t r key)

end TenantOperation

abbrev TxProgress := Progress Database Write RowLock StatementName

/-! ## Effects -/

def Write.governs (w : Write) : Bool :=
  w.graphic || match w with
    | .insertPrivilegedAccessRequest _ | .decidePrivilegedAccessRequest .. => true
    | _ => false

def governing (g : TxProgress) : List Write := g.pending.filter Write.governs

def Bumps (g : TxProgress) (tenantId userId : Uuid) : Prop :=
  Write.bumpAuthorizationVersion tenantId userId ∈ g.pending

/-- A statement of that name ran when these rows were committed. -/
def Saw (g : TxProgress) (name : StatementName) (P : Database → Prop) : Prop :=
  ∃ e ∈ g.history, e.label = name ∧ P e.committed

/-- The ids that a conditional `UPDATE` has found, by its snapshot and again when it locked them, with
these writes pending. -/
def FoundTwice (g : TxProgress) (pending : List Write) (name : StatementName)
    (find : Database → List Uuid) (ids : List Uuid) : Prop :=
  ∃ db db', ⟨.snapshot name, db, pending⟩ ∈ g.history ∧ ⟨name, db', pending⟩ ∈ g.history ∧
    ids = (find (replayAll pending db')).filter fun id =>
      decide (id ∈ find (replayAll pending db))

theorem FoundTwice.extends {g g' : TxProgress} {pending es : List Write} {name : StatementName}
    {find : Database → List Uuid} {ids : List Uuid} (h : FoundTwice g pending name find ids)
    (hext : g.Extends es g') : FoundTwice g' pending name find ids := by
  obtain ⟨db, db', hsnapshot, hlocked, hids⟩ := h
  exact ⟨db, db', hext.history _ hsnapshot, hext.history _ hlocked, hids⟩

/-- What the statement has found whenever it looked is among its ids. -/
theorem FoundTwice.mem {g : TxProgress} {pending : List Write} {name : StatementName}
    {find : Database → List Uuid} {ids : List Uuid} (h : FoundTwice g pending name find ids) {id : Uuid}
    (hfound : ∀ e ∈ g.history, e.label = .snapshot name ∨ e.label = name →
      e.pending = pending → id ∈ find e.view) : id ∈ ids := by
  obtain ⟨db, db', hsnapshot, hlocked, rfl⟩ := h
  exact List.mem_filter.mpr ⟨hfound _ hlocked (Or.inr rfl) rfl,
    decide_eq_true (hfound _ hsnapshot (Or.inl rfl) rfl)⟩

def userRoleRow (c : AdminCall) (tenantId userId roleId assignedBy : Uuid) : UserRoleAssignment :=
  ⟨c.newId, tenantId, userId, roleId, .active, some c.now, none, assignedBy⟩

def roleRow (c : AdminCall) (tenantId : Uuid) (roleKey roleName : String)
    (description : Option String) : Role :=
  ⟨c.newId, tenantId, roleKey, roleName, description, .active, c.now, c.now⟩

/-- Assigning a role writes a request, or it assigns a role seen not to be privileged. -/
def AssignEffect (c : AdminCall) (innerNow : Instant) (t u r : Uuid) (g : TxProgress) : Prop :=
  (∃ now, governing g = [.insertPrivilegedAccessRequest (requestRow { c with now := now } t u r)]) ∨
    governing g = [.insertUserRoleAssignment
      (userRoleRow { c with now := innerNow } t u r c.actorUserId)] ∧ Bumps g t u ∧
      Saw g .roleKeyAndStatus fun db =>
        ∃ role, db.roleRow? t r = some role ∧ role.roleKey ∉ privilegedTenantRoleKeys

def DecisionEffect (c : AdminCall) (t request : Uuid) (status : RequestStatus)
    (reason : Option String) (g : TxProgress) (assigned : PrivilegedAccessRequest → List Write) :
    Prop :=
  ∃ row : PrivilegedAccessRequest, row.tenantId = t ∧ row.requestId = request ∧
    row.status = .pending ∧ row.requestedByUserId ≠ c.actorUserId ∧
    row.subjectUserId ≠ c.actorUserId ∧
    (Saw g .lockedRequest fun db => row ∈ db.privilegedAccessRequests.rows) ∧
    (governing g = [.decidePrivilegedAccessRequest t request status c.actorUserId c.now reason] ∨
      assigned row ≠ [] ∧ Bumps g t row.subjectUserId ∧ governing g = assigned row ++
        [.decidePrivilegedAccessRequest t request status c.actorUserId c.now reason])

def BumpsSeen (g : TxProgress) (name : StatementName) (t : Uuid) (users : Database → List Uuid) :
    Prop :=
  Saw g name fun db => ∀ u ∈ users db, Bumps g t u

def TenantOperation.Effect : TenantOperation → TxProgress → Prop
  | assignUserRole c innerNow t u r, g | requestOrAssignUserRole c _ innerNow t u r, g =>
    AssignEffect c innerNow t u r g
  | approve c t request reason, g => DecisionEffect c t request .approved reason g fun row =>
    [.insertUserRoleAssignment (userRoleRow c t row.subjectUserId row.roleId row.requestedByUserId)]
  | reject c t request reason, g => DecisionEffect c t request .rejected reason g fun _ => []
  | removeUserRole c t u r, g =>
    (∃ ids, governing g = [.endUserRoleAssignment ids t u r c.now]) ∧ Bumps g t u
  | createGroup c t key name description, g =>
    governing g = [.insertGroup ⟨c.newId, t, key, name, description, .active, c.now, c.now⟩]
  | updateGroup c t gid name description status, g => ∃ current,
    (Saw g .getGroup fun db => db.groupRow? t gid = some current) ∧
    governing g = [.updateGroup t gid (name.getD current.groupName)
      (description <|> current.description) (status.getD current.status) c.now] ∧
    BumpsSeen g .effectiveGroupUsers t fun db =>
      if current.status ≠ status.getD current.status then db.effectiveGroupUsers t gid c.now else []
  | addGroupMember c t gid u, g =>
    governing g = [.insertGroupMembership
      ⟨c.newId, t, gid, u, .active, some c.now, none, c.actorUserId, none⟩] ∧ Bumps g t u
  | removeGroupMember c t gid u, g =>
    (∃ ids, governing g = [.endGroupMembership ids t gid u c.now]) ∧ Bumps g t u
  | assignGroupRole c t gid r, g =>
    governing g = [.insertGroupRoleAssignment ⟨c.newId, t, gid, r, .active, c.actorUserId, none⟩] ∧
    BumpsSeen g .effectiveGroupUsers t (·.effectiveGroupUsers t gid c.now)
  | removeGroupRole c t gid r, g =>
    (∃ ids, governing g = [.endGroupRoleAssignment ids t gid r c.now]) ∧
    BumpsSeen g .effectiveGroupUsers t (·.effectiveGroupUsers t gid c.now)
  | createRole c t key name description keys, g => reservedRoleKey key = false ∧
    (Saw g .insertRole fun db => (db.roles.insert? (roleRow c t key name description)).isSome = true) ∧
    governing g = .insertRole (roleRow c t key name description) ::
      keys.map fun k => .insertRolePermission ⟨t, c.newId, k⟩
  | createTemplateRole c _ t key name description _ _, g => reservedRoleKey key = false ∧
    (Saw g .insertRole fun db => (db.roles.insert? (roleRow c t key name description)).isSome = true) ∧
    ∃ keys : List String, governing g = .insertRole (roleRow c t key name description) ::
      keys.map fun k => .insertRolePermission ⟨t, c.newId, k⟩
  | updateRole c t r name description status, g => ∃ current,
    (Saw g .getRole fun db => db.roleRow? t r = some current) ∧
    governing g = [.updateRole t r (name.getD current.roleName)
      (description <|> current.description) (status.getD current.status) c.now] ∧
    BumpsSeen g .effectiveRoleUsers t fun db =>
      if current.status ≠ status.getD current.status then db.effectiveRoleUsers t r c.now else []
  | addRolePermission c t r p, g => governing g = [.insertRolePermission ⟨t, r, p⟩] ∧
    BumpsSeen g .effectiveRoleUsers t (·.effectiveRoleUsers t r c.now)
  | removeRolePermission c t r p, g => governing g = [.deleteRolePermission t r p] ∧
    BumpsSeen g .effectiveRoleUsers t (·.effectiveRoleUsers t r c.now)
  | upgradeTemplate _ t r _, g =>
    (∃ keys : List String, governing g = keys.map fun k => .insertRolePermission ⟨t, r, k⟩) ∧
    BumpsSeen g .bind t (·.templateAuthzUsers t r)

/-! ## Rules for the shared parts -/

theorem governing_of_extends {g g' : TxProgress} {ws : List Write} (h : g.Extends ws g') :
    governing g' = governing g ++ ws.filter Write.governs := by
  unfold governing
  rw [h.pending, List.filter_append]

theorem Bumps.of_extends {g g' : TxProgress} {ws : List Write} {t u : Uuid} (h : Bumps g t u)
    (hext : g.Extends ws g') : Bumps g' t u := by
  unfold Bumps at *
  rw [hext.pending]
  exact List.mem_append_left _ h

theorem Saw.of_extends {g g' : TxProgress} {ws : List Write} {name : StatementName}
    {P : Database → Prop} (h : Saw g name P) (hext : g.Extends ws g') : Saw g' name P := by
  obtain ⟨e, he, hname, hP⟩ := h
  exact ⟨e, hext.history e he, hname, hP⟩

theorem filter_bumps (t : Uuid) (users : List Uuid) :
    (users.map (Write.bumpAuthorizationVersion t)).filter Write.governs = [] := by
  simp [List.filter_eq_nil_iff, Write.governs, Write.graphic]

def ending (t : Uuid) (users : List Uuid) (row : AdminChangeRecord) : List Write :=
  (sortedSet users).map (.bumpAuthorizationVersion t) ++ [.insertAdminChange row]

theorem filter_ending (t : Uuid) (users : List Uuid) (row : AdminChangeRecord) :
    (ending t users row).filter Write.governs = [] := by
  rw [ending, List.filter_append, filter_bumps]
  rfl

theorem governing_of_ending {g g' : TxProgress} {t : Uuid} {users : List Uuid}
    {row : AdminChangeRecord} (h : g.Extends (ending t users row) g') :
    governing g' = governing g := by
  rw [governing_of_extends h, filter_ending, List.append_nil]

theorem mem_ending {t u : Uuid} {users : List Uuid} {row : AdminChangeRecord} (hu : u ∈ users) :
    Write.bumpAuthorizationVersion t u ∈ ending t users row :=
  List.mem_append_left _ (List.mem_map_of_mem (mem_sortedSet.mpr hu))

theorem bumps_of_ending {g g' : TxProgress} {t u : Uuid} {users : List Uuid}
    {row : AdminChangeRecord} (h : g.Extends (ending t users row) g') (hu : u ∈ users) :
    Bumps g' t u := by
  unfold Bumps
  rw [h.pending]
  exact List.mem_append_right _ (mem_ending hu)

/-- A removal's pending writes: the end of its row, then the end of the operation. -/
theorem governing_of_end {g g' : TxProgress} {w : Write} {t : Uuid} {users : List Uuid}
    {row : AdminChangeRecord} (h : g.Extends (w :: ending t users row) g')
    (hw : w.governs = true) : governing g' = governing g ++ [w] := by
  rw [governing_of_extends h, List.filter_cons_of_pos hw, filter_ending]

theorem bumps_of_end {g g' : TxProgress} {w : Write} {t u : Uuid} {users : List Uuid}
    {row : AdminChangeRecord} (h : g.Extends (w :: ending t users row) g') (hu : u ∈ users) :
    Bumps g' t u := by
  unfold Bumps
  rw [h.pending]
  exact List.mem_append_right _ (List.mem_cons_of_mem _ (mem_ending hu))

section Rules

variable {α : Type} {P : TxProgress → Prop} {g : TxProgress}

theorem commits_bumpVersions_bind {t : Uuid} {users : List Uuid} {k : Unit → Tx α}
    (h : ∀ g', g.Extends ((sortedSet users).map (.bumpAuthorizationVersion t)) g' →
      (k ()).Commits P g') : (bumpVersions t users >>= k).Commits P g := by
  refine commits_each_writes_bind (fun u => [.bumpAuthorizationVersion t u]) ?_ ?_
  · intro u db o ho
    dsimp only at ho
    split at ho
    · cases ho
    · cases ho
      rfl
  · intro g' hg'
    rw [← List.map_eq_flatMap] at hg'
    exact h g' hg'

theorem commits_audit_bind {c : AdminCall} {t : Uuid} {key type id : String} {k : Unit → Tx α}
    (h : ∀ g', g.Extends (ending t [] (auditRow c t key type id)) g' → (k ()).Commits P g') :
    (audit c t key type id >>= k).Commits P g := by
  apply commits_execute_bind
  intro db o ho
  apply h
  change g.Extends [.insertAdminChange (auditRow c t key type id)] _
  rw [← (insertRow_ok ho).2.2]
  exact Progress.Extends.ran _ _ _ g

/-- Bumps, an audit record and the commit end the operations that change permissions. -/
theorem commits_ending {c : AdminCall} {t : Uuid} {users : List Uuid} {key type id : String}
    {k : Unit → Tx α} (hP : ∀ g', g.Extends (ending t users (auditRow c t key type id)) g' → P g')
    (hk : ∀ g', (k ()).Commits (fun _ => False) g') :
    (bumpVersions t users >>= fun _ => audit c t key type id >>= fun _ =>
      commitNow >>= k).Commits P g := by
  apply commits_bumpVersions_bind
  intro g₁ hbumps
  apply commits_audit_bind
  intro g₂ haudit
  exact commits_commitNow_bind (hP g₂ (hbumps.trans haudit)) (hk _)

theorem commits_insertRow_bind {ρ : Type} [Row ρ] {name : StatementName} {T : Database → Rows ρ}
    {row : ρ} {references : Database → List Reference} {write : Write} {k : Unit → Tx α}
    (h : ∀ db g', ((T (replayAll g.pending db)).insert? row).isSome = true →
      ⟨name, db, g.pending⟩ ∈ g'.history → g.Extends [write] g' → (k ()).Commits P g') :
    (execute name (fun db => insertRow (T db) row (references db) write) >>= k).Commits P g := by
  apply commits_execute_bind
  intro db o ho
  obtain ⟨hunique, _, hedits⟩ := insertRow_ok ho
  apply h db _ hunique List.mem_cons_self
  rw [← hedits]
  exact Progress.Extends.ran _ _ _ g

theorem commits_foundTwice_bind {name : StatementName} {relation : Relation} {mode : LockMode}
    {find : Database → List Uuid} {write : List Uuid → Write} {k : List Uuid → Tx α}
    (h : ∀ ids g', FoundTwice g' g.pending name find ids → g.Extends [write ids] g' →
      (k ids).Commits P g') : (updateWhere name relation mode find write >>= k).Commits P g := by
  apply upholds_bind
  apply upholds_query_bind trivial
  · intro db found hfound
    obtain rfl := Except.ok.inj hfound
    apply upholds_execute trivial
    · intro db' o ho
      have hext := (Progress.Extends.failed (.snapshot name) db g).trans
        (Progress.Extends.ran name db' o _)
      cases ho
      refine ⟨trivial, h _ _ ⟨db, db', ?_, List.mem_cons_self, rfl⟩ hext⟩
      exact List.mem_cons_of_mem _ List.mem_cons_self
    · intro _ _ ho
      cases ho
  · intro _ _ _
    exact ⟨trivial, trivial⟩

theorem commits_updateWhere_bind {name : StatementName} {relation : Relation} {mode : LockMode}
    {find : Database → List Uuid} {write : List Uuid → Write} {k : List Uuid → Tx α}
    (h : ∀ ids g', g.Extends [write ids] g' → (k ids).Commits P g') :
    (updateWhere name relation mode find write >>= k).Commits P g :=
  commits_foundTwice_bind fun ids g' _ hext => h ids g' hext

/-- A removal commits the write that ends its row. -/
theorem commits_removeRow {c : AdminCall} {t : Uuid} {ended : Tx (List Uuid)} {affected : List Uuid}
    {key type id : String} (write : List Uuid → Write)
    (hended : ∀ k : List Uuid → Tx Bool,
      (∀ ids g', g.Extends [write ids] g' → (k ids).Commits P g') → (ended >>= k).Commits P g)
    (hP : ∀ ids g', g.Extends (write ids :: ending t affected (auditRow c t key type id)) g' → P g') :
    (removeRow c t ended affected key type id).Commits P g := by
  apply hended
  intro ids g₁ hwrite
  split
  · exact commits_rollbackNow_bind (commits_pure _)
  · exact commits_ending (fun g' hending => hP ids g' (hwrite.trans hending)) fun _ => commits_pure _

theorem commits_ensureActivePermissions_bind {keys : List String} {k : Unit → Tx α}
    (h : ∀ g', g.Extends [] g' → (k ()).Commits P g') :
    (each ensureActivePermission keys >>= k).Commits P g := by
  refine commits_each_writes_bind (fun _ => []) ?_ ?_
  · intro key db o ho
    dsimp only at ho
    split at ho
    · cases ho
      rfl
    · cases ho
  · intro g' hg'
    rw [List.flatMap_eq_nil_iff.mpr fun _ _ => rfl] at hg'
    exact h g' hg'

theorem commits_insertRolePermissions_bind {t r : Uuid} {keys : List String} {k : Unit → Tx α}
    (h : ∀ g', g.Extends (keys.map fun key => .insertRolePermission ⟨t, r, key⟩) g' →
      (k ()).Commits P g') : (each (insertRolePermission t r) keys >>= k).Commits P g := by
  refine commits_each_writes_bind (fun key => [.insertRolePermission ⟨t, r, key⟩]) ?_ ?_
  · intro key db o ho
    exact (insertRow_ok ho).2.2
  · intro g' hg'
    rw [← List.map_eq_flatMap] at hg'
    exact h g' hg'

/-- Reading the templates leaves nothing pending. -/
theorem templates_upholds {keys : List String} {g : TxProgress} : (templates keys).Upholds
    ⟨fun _ => True, fun _ => False, fun r g' => ∀ found, r = .ok found → g.Extends [] g'⟩ g := by
  induction keys generalizing g with
  | nil => exact upholds_pure trivial fun _ _ => Progress.Extends.refl g
  | cons key keys ih =>
    apply upholds_query_bind trivial
    · intro db first _
      apply upholds_bind
      refine Upholds.weaken ih (fun _ h => h) (fun _ _ h => h) ?_
      intro r g' _ hr
      cases r with
      | error e => exact fun _ h => nomatch h
      | ok rest =>
        exact upholds_pure trivial fun _ _ =>
          (Progress.Extends.failed .template db g).trans (hr rest rfl)
    · exact fun _ _ _ => ⟨trivial, fun _ h => nomatch h⟩

theorem commits_templates_bind {keys : List String} {k : List Template → Tx α}
    (h : ∀ found g', g.Extends [] g' → (k found).Commits P g') :
    (templates keys >>= k).Commits P g := by
  apply upholds_bind
  refine Upholds.weaken templates_upholds (fun _ h => h) (fun _ _ h => h) ?_
  intro r g' _ hr
  cases r with
  | error e => trivial
  | ok found => exact h found g' (hr found rfl)

theorem commits_discard {p : Tx α} (h : p.Commits P g) : (discard p).Commits P g :=
  commits_bind_closed h fun _ _ => commits_pure ()

end Rules

/-! ## The operations keep their effects -/

namespace TenantOperation

theorem commits_createGroup (c : AdminCall) (t : Uuid) (key name : String)
    (description : Option String) :
    (VerigenceSecurity.createGroup c t key name description).Commits
      (createGroup c t key name description).Effect Progress.start := by
  apply commits_insertRow_bind (T := fun db => db.groups)
  intro db g₁ _ _ hinsert
  apply commits_audit_bind
  intro g' hending
  apply commits_commitNow_bind
  · exact (governing_of_ending hending).trans (governing_of_extends hinsert)
  · apply commits_query_bind
    intro db group _
    cases group with
    | none => exact commits_raise _
    | some group => exact commits_pure group

theorem commits_updateGroup (c : AdminCall) (t gid : Uuid) (name description : Option String)
    (status : Option ActiveStatus) :
    (VerigenceSecurity.updateGroup c t gid name description status).Commits
      (updateGroup c t gid name description status).Effect Progress.start := by
  apply commits_query_bind
  intro db current hcurrent
  cases current with
  | none => exact commits_pure _
  | some current =>
    apply commits_query_bind
    intro db' affected haffected
    apply commits_execute_bind
    intro db'' o ho
    cases haffected
    cases ho
    refine commits_ending ?_ fun _ => commits_query
    intro g' hending
    refine ⟨current, ?_, (governing_of_ending hending).trans rfl, ?_⟩
    · refine Saw.of_extends ⟨_, List.mem_cons_of_mem _ (List.mem_cons_of_mem _ List.mem_cons_self),
        rfl, ?_⟩ hending
      exact Except.ok.inj hcurrent
    · refine Saw.of_extends ⟨_, List.mem_cons_of_mem _ List.mem_cons_self, rfl, ?_⟩ hending
      intro u hu
      exact bumps_of_ending hending hu

theorem commits_addGroupMember (c : AdminCall) (t gid u : Uuid) :
    (VerigenceSecurity.addGroupMember c t gid u).Commits
      (addGroupMember c t gid u).Effect Progress.start := by
  apply commits_query_bind
  intro _ active _
  split
  · exact commits_raise _
  · apply commits_query_bind
    intro _ member _
    split
    · exact commits_raise _
    · apply commits_query_bind
      intro _ existing _
      split
      · exact commits_pure _
      · apply commits_insertRow_bind (T := fun db => db.groupMemberships)
        intro _ g₁ _ _ hinsert
        refine commits_ending ?_ fun _ => commits_pure _
        intro g' hending
        exact ⟨(governing_of_ending hending).trans (governing_of_extends hinsert),
          bumps_of_ending hending List.mem_cons_self⟩

theorem commits_removeGroupMember (c : AdminCall) (t gid u : Uuid) :
    (VerigenceSecurity.removeGroupMember c t gid u).Commits
      (removeGroupMember c t gid u).Effect Progress.start := by
  apply commits_removeRow (.endGroupMembership · t gid u c.now)
  · exact fun _ => commits_updateWhere_bind
  · intro ids g' h
    exact ⟨⟨ids, governing_of_end h rfl⟩, bumps_of_end h List.mem_cons_self⟩

theorem commits_assignGroupRole (c : AdminCall) (t gid r : Uuid) :
    (VerigenceSecurity.assignGroupRole c t gid r).Commits
      (assignGroupRole c t gid r).Effect Progress.start := by
  apply commits_query_bind
  intro _ active _
  split
  · exact commits_raise _
  · apply commits_query_bind
    intro _ activeRole _
    split
    · exact commits_raise _
    · apply commits_query_bind
      intro _ existing _
      split
      · exact commits_pure _
      · apply commits_insertRow_bind (T := fun db => db.groupRoleAssignments)
        intro _ g₁ _ _ hinsert
        apply commits_query_bind
        intro db affected haffected
        cases haffected
        refine commits_ending ?_ fun _ => commits_pure _
        intro g' hending
        refine ⟨(governing_of_ending hending).trans (governing_of_extends hinsert), ?_⟩
        refine Saw.of_extends ⟨_, List.mem_cons_self, rfl, ?_⟩ hending
        intro u hu
        apply bumps_of_ending hending
        rw [hinsert.pending]
        exact hu

theorem commits_removeGroupRole (c : AdminCall) (t gid r : Uuid) :
    (VerigenceSecurity.removeGroupRole c t gid r).Commits
      (removeGroupRole c t gid r).Effect Progress.start := by
  apply commits_query_bind
  intro db affected haffected
  cases haffected
  apply commits_removeRow (.endGroupRoleAssignment · t gid r c.now)
  · exact fun _ => commits_updateWhere_bind
  · intro ids g' h
    refine ⟨⟨ids, governing_of_end h rfl⟩, ?_⟩
    refine Saw.of_extends ⟨_, List.mem_cons_self, rfl, ?_⟩ h
    exact fun u hu => bumps_of_end h hu

theorem commits_updateRole (c : AdminCall) (t r : Uuid) (name description : Option String)
    (status : Option ActiveStatus) :
    (VerigenceSecurity.updateRole c t r name description status).Commits
      (updateRole c t r name description status).Effect Progress.start := by
  apply commits_query_bind
  intro db current hcurrent
  cases current with
  | none => exact commits_pure _
  | some current =>
    apply commits_query_bind
    intro db' affected haffected
    apply commits_execute_bind
    intro db'' o ho
    cases haffected
    cases ho
    refine commits_ending ?_ fun _ => commits_query
    intro g' hending
    refine ⟨current, ?_, (governing_of_ending hending).trans rfl, ?_⟩
    · refine Saw.of_extends ⟨_, List.mem_cons_of_mem _ (List.mem_cons_of_mem _ List.mem_cons_self),
        rfl, ?_⟩ hending
      exact Except.ok.inj hcurrent
    · refine Saw.of_extends ⟨_, List.mem_cons_of_mem _ List.mem_cons_self, rfl, ?_⟩ hending
      intro u hu
      exact bumps_of_ending hending hu

theorem commits_addRolePermission (c : AdminCall) (t r : Uuid) (p : String) :
    (VerigenceSecurity.addRolePermission c t r p).Commits
      (addRolePermission c t r p).Effect Progress.start := by
  apply commits_query_bind
  intro _ _ _
  apply commits_query_bind
  intro _ active _
  split
  · exact commits_raise _
  · apply commits_query_bind
    intro _ existing _
    split
    · exact commits_pure _
    · apply commits_insertRow_bind (T := fun db => db.rolePermissions)
      intro _ g₁ _ _ hinsert
      apply commits_query_bind
      intro db affected haffected
      cases haffected
      refine commits_ending ?_ fun _ => commits_pure _
      intro g' hending
      refine ⟨(governing_of_ending hending).trans (governing_of_extends hinsert), ?_⟩
      refine Saw.of_extends ⟨_, List.mem_cons_self, rfl, ?_⟩ hending
      intro u hu
      apply bumps_of_ending hending
      rw [hinsert.pending]
      exact hu

theorem commits_removeRolePermission (c : AdminCall) (t r : Uuid) (p : String) :
    (VerigenceSecurity.removeRolePermission c t r p).Commits
      (removeRolePermission c t r p).Effect Progress.start := by
  apply commits_query_bind
  intro db affected haffected
  cases haffected
  apply commits_removeRow fun _ => Write.deleteRolePermission t r p
  · intro k hk
    apply commits_execute_bind
    intro db' o ho
    have hext := Progress.Extends.ran StatementName.deleteRolePermission db' o
      (Progress.start.failed StatementName.effectiveRoleUsers db)
    cases ho
    exact hk _ _ hext
  · intro ids g' h
    refine ⟨governing_of_end h rfl, ?_⟩
    refine Saw.of_extends ⟨_, List.mem_cons_self, rfl, ?_⟩ h
    exact fun u hu => bumps_of_end h hu

theorem commits_removeUserRole (c : AdminCall) (t u r : Uuid) :
    (VerigenceSecurity.removeUserRole c t u r).Commits
      (removeUserRole c t u r).Effect Progress.start := by
  apply commits_removeRow (.endUserRoleAssignment · t u r c.now)
  · exact fun _ => commits_updateWhere_bind
  · intro ids g' h
    exact ⟨⟨ids, governing_of_end h rfl⟩, bumps_of_end h List.mem_cons_self⟩

theorem filter_rolePermissions (t r : Uuid) (keys : List String) :
    (keys.map fun key => Write.insertRolePermission ⟨t, r, key⟩).filter Write.governs =
      keys.map fun key => .insertRolePermission ⟨t, r, key⟩ := by
  simp [List.filter_eq_self, Write.governs, Write.graphic]

theorem commits_createRole (c : AdminCall) (t : Uuid) (key name : String)
    (description : Option String) (keys : List String) :
    (VerigenceSecurity.createRole c t key name description keys).Commits
      (createRole c t key name description keys).Effect Progress.start := by
  unfold VerigenceSecurity.createRole
  split
  · exact commits_raise _
  · rename_i hkey
    apply commits_ensureActivePermissions_bind
    intro g₁ hread
    apply commits_insertRow_bind (T := fun db => db.roles)
    intro db g₂ hunique hentry hrole
    apply commits_insertRolePermissions_bind
    intro g₃ hkeys
    apply commits_audit_bind
    intro g' hending
    apply commits_commitNow_bind
    · refine ⟨Bool.of_not_eq_true hkey, ?_, ?_⟩
      · refine Saw.of_extends ⟨_, hentry, rfl, ?_⟩ (hkeys.trans hending)
        rw [hread.pending] at hunique
        exact hunique
      · rw [governing_of_ending hending, governing_of_extends hkeys, governing_of_extends hrole,
          governing_of_extends hread, filter_rolePermissions]
        rfl
    · apply commits_query_bind
      intro _ role _
      cases role with
      | none => exact commits_raise _
      | some role => exact commits_pure role

theorem commits_createTemplateRole (c : AdminCall) (bindingId : Nat → Uuid) (t : Uuid)
    (key name : String) (description : Option String) (templateKeys keys : List String) :
    (VerigenceSecurity.createTemplateRole c bindingId t key name description templateKeys keys).Commits
      (createTemplateRole c bindingId t key name description templateKeys keys).Effect
      Progress.start := by
  unfold VerigenceSecurity.createTemplateRole
  split
  · exact commits_raise _
  · rename_i hkey
    apply commits_templates_bind
    intro found g₀ htemplates
    apply commits_ensureActivePermissions_bind
    intro g₁ hread
    refine commits_bind_closed (commits_attempt ?_ ?_) fun _ _ => commits_query
    · apply commits_insertRow_bind (T := fun db => db.roles)
      intro db g₂ hunique hentry hrole
      apply commits_insertRolePermissions_bind
      intro g₃ hkeys
      refine commits_each_execute_bind (fun _ ws => ws.filter Write.governs = []) ?_ ?_
      · intro template db' o ho
        rw [insertBinding_ok ho, List.filter_cons_of_neg Bool.noConfusion, filter_bumps]
      · intro rounds g₄ hrounds hbound
        have hnone : rounds.flatten.filter Write.governs = [] := by
          clear hbound
          generalize found.zipIdx = bindings at hrounds
          induction hrounds with
          | nil => rfl
          | cons hround _ ih => rw [List.flatten_cons, List.filter_append, hround, ih]; rfl
        apply commits_audit_bind
        intro g' hending
        apply commits_commitNow
        refine ⟨Bool.of_not_eq_true hkey, ?_, sortedSet (keys ++ found.flatMap (·.permissionKeys)), ?_⟩
        · refine Saw.of_extends ⟨_, hentry, rfl, ?_⟩ ((hkeys.trans hbound).trans hending)
          rw [(htemplates.trans hread).pending] at hunique
          exact hunique
        · rw [governing_of_ending hending, governing_of_extends hbound, hnone, List.append_nil,
            governing_of_extends hkeys, governing_of_extends hrole,
            governing_of_extends (htemplates.trans hread), filter_rolePermissions]
          rfl
    · exact fun e _ => commits_rollbackNow_bind (commits_raise e)

theorem kept_rounds {t r : Uuid} {keys : List String} {rounds : List (List Write)}
    (h : List.Forall₂ (fun key ws => ws = [] ∨ ws = [Write.insertRolePermission ⟨t, r, key⟩])
      keys rounds) :
    ∃ kept : List String,
      rounds.flatten = kept.map fun key => .insertRolePermission ⟨t, r, key⟩ := by
  induction h with
  | nil => exact ⟨[], rfl⟩
  | @cons key _ _ _ hround _ ih =>
    obtain ⟨kept, hkept⟩ := ih
    rcases hround with rfl | rfl
    · exact ⟨kept, hkept⟩
    · exact ⟨key :: kept, by rw [List.flatten_cons, hkept]; rfl⟩

/-- The trigger's users depend on no permission and on no binding. -/
theorem templateAuthzUsers_replayAll {t r : Uuid} {ws : List Write}
    (hws : ∀ w ∈ ws, ∀ db, (w.apply db).templateAuthzUsers t r = db.templateAuthzUsers t r)
    (db : Database) : (replayAll ws db).templateAuthzUsers t r = db.templateAuthzUsers t r := by
  induction ws generalizing db with
  | nil => rfl
  | cons w ws ih =>
    rw [replayAll_cons, ih fun w' hw' => hws w' (List.mem_cons_of_mem _ hw')]
    exact hws w List.mem_cons_self db

theorem commits_upgradeTemplate (c : AdminCall) (t r : Uuid) (key : String) :
    (VerigenceSecurity.upgradeTemplate c t r key).Commits
      (upgradeTemplate c t r key).Effect Progress.start := by
  apply commits_query_bind
  intro db₀ template _
  apply commits_ensureActivePermissions_bind
  intro g₁ hread
  apply commits_query_bind
  intro db₁ users _
  refine commits_bind_closed (commits_attempt ?_ ?_) fun _ _ => commits_query
  · apply commits_query_bind
    intro db₂ role _
    cases role with
    | none => exact commits_raise _
    | some role =>
      apply commits_each_execute_bind
        (fun key ws => ws = [] ∨ ws = [Write.insertRolePermission ⟨t, r, key⟩])
      · intro key db o ho
        dsimp only at ho
        split at ho
        · cases ho
          exact Or.inl rfl
        · exact Or.inr (insertRow_ok ho).2.2
      · intro rounds g₂ hrounds hkept
        obtain ⟨kept, hflatten⟩ := kept_rounds hrounds
        rw [hflatten] at hkept
        apply commits_updateWhere_bind
        intro ids g₃ hsuperseded
        apply commits_execute_bind
        intro db₃ o ho
        have hbound := Progress.Extends.ran .bind db₃ o g₃
        have hpending : g₃.pending = kept.map (fun key => .insertRolePermission ⟨t, r, key⟩) ++
            [.supersedeRoleTemplateBindings ids t r template.templateId c.now] := by
          rw [hsuperseded.pending, hkept.pending]
          change (g₁.pending ++ _) ++ _ = _
          rw [hread.pending]
          rfl
        refine commits_each_writes_bind (fun u => [.bumpMembershipVersion t u]) ?_ ?_
        · intro u db o ho
          cases ho
          rfl
        · intro g₄ hmembers
          rw [← List.map_eq_flatMap] at hmembers
          apply commits_audit_bind
          intro g' hending
          apply commits_commitNow
          have hedits := insertBinding_ok ho
          dsimp only at hedits
          have husers : (replayAll g₃.pending db₃).templateAuthzUsers t r =
              db₃.templateAuthzUsers t r := by
            apply templateAuthzUsers_replayAll
            intro w hw db
            rw [hpending, List.mem_append, List.mem_map, List.mem_singleton] at hw
            rcases hw with ⟨key, _, rfl⟩ | rfl
            · rfl
            · rfl
          rw [husers] at hedits
          rw [hedits] at hbound
          refine ⟨⟨kept, ?_⟩, ?_⟩
          · rw [governing_of_ending hending, governing_of_extends hmembers,
              governing_of_extends hbound, governing, hpending, List.filter_append,
              filter_rolePermissions]
            simp [Write.governs, Write.graphic, List.filter_eq_nil_iff]
          · refine Saw.of_extends ⟨⟨.bind, db₃, g₃.pending⟩, ?_, rfl, ?_⟩ (hmembers.trans hending)
            · exact List.mem_cons_self
            · intro u hu
              refine Bumps.of_extends ?_ (hmembers.trans hending)
              unfold Bumps
              rw [hbound.pending]
              exact List.mem_append_right _ (List.mem_cons_of_mem _ (List.mem_map_of_mem hu))
  · exact fun e _ => commits_rollbackNow_bind (commits_raise e)

theorem commits_adminAssignUserRole (c : AdminCall) (t u r : Uuid) (g : TxProgress) :
    (adminAssignUserRole c t u r).Commits (fun g' => ∃ ws, g.Extends ws g' ∧
      ws.filter Write.governs =
        [.insertUserRoleAssignment (userRoleRow c t u r c.actorUserId)] ∧ Bumps g' t u) g := by
  apply commits_query_bind
  intro db₁ active _
  split
  · exact commits_raise _
  · apply commits_query_bind
    intro db₂ activeRole _
    split
    · exact commits_raise _
    · apply commits_query_bind
      intro db₃ existing _
      split
      · exact commits_pure _
      · apply commits_insertRow_bind (T := fun db => db.userRoleAssignments)
        intro _ g₁ _ _ hinsert
        refine commits_ending ?_ fun _ => commits_pure _
        intro g' hending
        have hread := ((Progress.Extends.failed .activeMembership db₁ g).trans
          (Progress.Extends.failed .activeRole db₂ _)).trans
          (Progress.Extends.failed .existingUserRole db₃ _)
        refine ⟨_, (hread.trans hinsert).trans hending, ?_, bumps_of_ending hending List.mem_cons_self⟩
        rw [List.filter_append, List.filter_append, filter_ending]
        rfl

theorem commits_insertRequest (c : AdminCall) (t u r : Uuid) {g : TxProgress}
    (hg : governing g = []) : (insertRequest c t u r).Commits
      (fun g' => governing g' = [.insertPrivilegedAccessRequest (requestRow c t u r)]) g := by
  apply commits_insertRow_bind (T := fun db => db.privilegedAccessRequests)
  intro _ g₁ _ _ hinsert
  apply commits_audit_bind
  intro g' hending
  apply commits_commitNow
  rw [governing_of_ending hending, governing_of_extends hinsert, hg]
  rfl

theorem commits_onIntegrityError {α : Type} {found : Tx (Option α)} {g : TxProgress}
    {P : TxProgress → Prop} (hfound : ∀ g, found.Commits (fun _ => False) g) (error : Failure) :
    (onIntegrityError found error).Commits P g := by
  unfold onIntegrityError
  split
  · apply commits_rollbackNow_bind
    apply commits_bind_closed
    · exact (hfound _).weaken fun _ h => h.elim
    · intro result g
      cases result with
      | none => exact commits_raise _
      | some result => exact commits_pure result
  · exact commits_raise _

theorem commits_assignUserRole_of {c : AdminCall} {innerNow : Instant} {t u r : Uuid}
    {g : TxProgress} (hg : g.pending = []) :
    (VerigenceSecurity.assignUserRole c innerNow t u r).Commits (AssignEffect c innerNow t u r) g := by
  have hgoverning : governing g = [] := by
    rw [governing, hg]
    rfl
  apply commits_query_bind
  intro db role hrole
  rw [hg] at hrole
  split
  · exact commits_raise _
  · exact commits_raise _
  · rename_i key
    split
    · rename_i hkey
      refine (commits_adminAssignUserRole _ t u r _).weaken ?_
      rintro g' ⟨ws, hext, hws, hbumps⟩
      refine Or.inr ⟨?_, hbumps, Saw.of_extends ⟨_, List.mem_cons_self, rfl, ?_⟩ hext⟩
      · rw [governing_of_extends hext, hws]
        change governing g ++ _ = _
        rw [hgoverning]
        rfl
      · obtain ⟨row, hrow, heq⟩ := Option.map_eq_some_iff.mp (Except.ok.inj hrole)
        refine ⟨row, hrow, ?_⟩
        rw [(Prod.mk.inj heq).1]
        exact hkey
    · apply commits_query_bind
      intro _ active _
      split
      · exact commits_raise _
      · apply commits_query_bind
        intro _ assigned _
        split
        · exact commits_rollbackNow_bind (commits_pure _)
        · apply commits_query_bind
          intro _ pending _
          split
          · exact commits_rollbackNow_bind (commits_pure _)
          · apply commits_attempt
            · apply commits_bind_closed
              · refine (commits_insertRequest c t u r ?_).weaken fun _ h => Or.inl ⟨c.now, h⟩
                exact hgoverning
              · exact fun _ _ => commits_pure _
            · refine fun e _ => commits_onIntegrityError (fun _ => ?_) e
              exact commits_query_bind fun _ _ _ => commits_pure _

theorem commits_requestOrAssignUserRole (c : AdminCall) (gateNow innerNow : Instant)
    (t u r : Uuid) :
    (VerigenceSecurity.requestOrAssignUserRole c gateNow innerNow t u r).Commits
      (AssignEffect c innerNow t u r) Progress.start := by
  apply commits_query_bind
  intro _ active _
  split
  · exact commits_raise _
  · apply commits_query_bind
    intro _ role _
    split
    · exact commits_raise _
    · exact commits_raise _
    · split
      · apply commits_bind_closed
        · exact commits_assignUserRole_of (c := { c with now := gateNow }) rfl
        · exact fun _ _ => commits_pure _
      · apply commits_query_bind
        intro _ assigned _
        split
        · exact commits_rollbackNow_bind (commits_pure _)
        · apply commits_query_bind
          intro _ pending _
          split
          · exact commits_rollbackNow_bind (commits_pure _)
          · apply commits_attempt
            · apply commits_bind_closed
              · refine (commits_insertRequest c t u r ?_).weaken fun _ h => Or.inl ⟨c.now, h⟩
                rfl
              · exact fun _ _ => commits_pure _
            · refine fun e _ => commits_onIntegrityError (fun _ => ?_) e
              exact commits_query_bind fun _ _ _ => commits_pure _

/-- The decision, its audit record and the commit. -/
theorem commits_recordDecision {c : AdminCall} {t request : Uuid} {roleKey : String}
    {status : RequestStatus} {reason : Option String} {key : String} {g : TxProgress}
    {P : TxProgress → Prop}
    (hP : ∀ ws g', g.Extends ws g' → ws.filter Write.governs =
      [.decidePrivilegedAccessRequest t request status c.actorUserId c.now reason] → P g') :
    (recordDecision c t request roleKey status reason key).Commits P g := by
  apply commits_execute_bind
  intro db o ho
  split at ho
  · cases ho
  · have hdecide := Progress.Extends.ran .decideRequest db o g
    cases ho
    apply commits_audit_bind
    intro g' hending
    apply commits_commitNow_bind
    · refine hP _ g' (hdecide.trans hending) ?_
      rw [List.filter_append, filter_ending]
      rfl
    · exact commits_query_bind fun _ _ _ => commits_pure _

theorem requirePendingAndIndependent_ok {row : PrivilegedAccessRequest} {approver : Uuid}
    (h : requirePendingAndIndependent row approver = .ok ()) :
    row.status = .pending ∧ row.requestedByUserId ≠ approver ∧ row.subjectUserId ≠ approver := by
  unfold requirePendingAndIndependent at h
  split at h
  · cases h
  · split at h
    · cases h
    · split at h
      · cases h
      · rename_i hstatus hrequester hsubject
        exact ⟨not_not.mp hstatus, hrequester, hsubject⟩

theorem requestWithRole?_some {db : Database} {t request : Uuid} {found : RequestWithRole}
    (h : db.requestWithRole? t request = some found) :
    found.row ∈ db.privilegedAccessRequests.rows ∧ found.row.tenantId = t ∧
      found.row.requestId = request := by
  obtain ⟨row, hrow, hwith⟩ := Option.bind_eq_some_iff.mp h
  obtain ⟨role, _, rfl⟩ := Option.map_eq_some_iff.mp hwith
  obtain ⟨ht, hr⟩ : row.tenantId = t ∧ row.requestId = request := by
    simpa using List.find?_some hrow
  exact ⟨List.mem_of_find?_eq_some hrow, ht, hr⟩

theorem commits_lockedRequest_bind {α : Type} {t request : Uuid} {k : RequestWithRole → Tx α}
    {P : TxProgress → Prop}
    (h : ∀ found g, (Saw g .lockedRequest fun db => found.row ∈ db.privilegedAccessRequests.rows) →
      found.row.tenantId = t → found.row.requestId = request → g.pending = [] →
      (k found).Commits P g) :
    (lockedRequest t request >>= k).Commits P Progress.start := by
  apply commits_execute_bind
  intro db o ho
  split at ho
  · cases ho
  · rename_i found hfound
    cases ho
    obtain ⟨hrow, ht, hr⟩ := requestWithRole?_some hfound
    exact h found _ ⟨_, List.mem_cons_self, rfl, hrow⟩ ht hr rfl

theorem commits_approve (c : AdminCall) (t request : Uuid) (reason : Option String) :
    (VerigenceSecurity.approve c t request reason).Commits
      (approve c t request reason).Effect Progress.start := by
  apply commits_lockedRequest_bind
  intro found g hlocked ht hr hg
  split
  · exact commits_raise _
  · rename_i hpending
    obtain ⟨hstatus, hrequester, hsubject⟩ := requirePendingAndIndependent_ok hpending
    apply commits_query_bind
    intro db₁ active _
    split
    · exact commits_raise _
    · apply commits_query_bind
      intro db₂ activeRole _
      split
      · exact commits_raise _
      · apply commits_query_bind
        intro db₃ existing _
        have hread := ((Progress.Extends.failed .activeMembership db₁ g).trans
          (Progress.Extends.failed .activeRole db₂ _)).trans
          (Progress.Extends.failed .existingUserRole db₃ _)
        split
        · apply commits_recordDecision
          intro ws g' hext hws
          have hall := hread.trans hext
          refine ⟨found.row, ht, hr, hstatus, hrequester, hsubject, hlocked.of_extends hall, Or.inl ?_⟩
          rw [governing_of_extends hall, governing, hg]
          exact hws
        · apply commits_insertRow_bind (T := fun db => db.userRoleAssignments)
          intro _ g₁ _ _ hinsert
          apply commits_bumpVersions_bind
          intro g₂ hbumps
          apply commits_recordDecision
          intro ws g' hext hws
          have hall := ((hread.trans hinsert).trans hbumps).trans hext
          refine ⟨found.row, ht, hr, hstatus, hrequester, hsubject, hlocked.of_extends hall,
            Or.inr ⟨List.cons_ne_nil _ _, ?_, ?_⟩⟩
          · refine Bumps.of_extends ?_ hext
            unfold Bumps
            rw [hbumps.pending]
            exact List.mem_append_right _
              (List.mem_map_of_mem (mem_sortedSet.mpr List.mem_cons_self))
          · rw [governing_of_extends hall, governing, hg, List.filter_append, List.filter_append,
              filter_bumps, hws]
            rfl

theorem commits_reject (c : AdminCall) (t request : Uuid) (reason : Option String) :
    (VerigenceSecurity.reject c t request reason).Commits
      (reject c t request reason).Effect Progress.start := by
  apply commits_lockedRequest_bind
  intro found g hlocked ht hr hg
  split
  · exact commits_raise _
  · rename_i hpending
    obtain ⟨hstatus, hrequester, hsubject⟩ := requirePendingAndIndependent_ok hpending
    apply commits_recordDecision
    intro ws g' hext hws
    refine ⟨found.row, ht, hr, hstatus, hrequester, hsubject, hlocked.of_extends hext, Or.inl ?_⟩
    rw [governing_of_extends hext, governing, hg]
    exact hws

/-- Whatever the others commit meanwhile, an operation commits its effect. -/
theorem commits (op : TenantOperation) : op.program.Commits op.Effect Progress.start := by
  cases op with
  | assignUserRole => exact commits_discard (commits_assignUserRole_of rfl)
  | requestOrAssignUserRole => exact commits_discard (commits_requestOrAssignUserRole ..)
  | approve => exact commits_discard (commits_approve ..)
  | reject => exact commits_discard (commits_reject ..)
  | removeUserRole => exact commits_discard (commits_removeUserRole ..)
  | createGroup => exact commits_discard (commits_createGroup ..)
  | updateGroup => exact commits_discard (commits_updateGroup ..)
  | addGroupMember => exact commits_discard (commits_addGroupMember ..)
  | removeGroupMember => exact commits_discard (commits_removeGroupMember ..)
  | assignGroupRole => exact commits_discard (commits_assignGroupRole ..)
  | removeGroupRole => exact commits_discard (commits_removeGroupRole ..)
  | createRole => exact commits_discard (commits_createRole ..)
  | createTemplateRole => exact commits_discard (commits_createTemplateRole ..)
  | updateRole => exact commits_discard (commits_updateRole ..)
  | addRolePermission => exact commits_discard (commits_addRolePermission ..)
  | removeRolePermission => exact commits_discard (commits_removeRolePermission ..)
  | upgradeTemplate => exact commits_discard (commits_upgradeTemplate ..)

end TenantOperation

end VerigenceSecurity
