import VerigenceSecurity.AuthorizationVersion

/-! # Overlapping tenant operations

Statements of different operations interleave under READ COMMITTED. New role
identifiers stay new until their commit because their index entries are locked,
and so every commit of a current operation keeps the authorization-version law.
-/

namespace VerigenceSecurity
set_option autoImplicit false

open Transaction Relational Program

/-! ## New roles are new until they are committed -/

/-- A new role locks its identifier and claims that nobody else has it. Requests and direct
assignments lock their index entries, and a decision its request. -/
def roleProtocol : Protocol Database Write RowLock where
  needs
    | .insertRole row => [⟨.roles, (.primary, [row.roleId]), .update⟩]
    | .insertPrivilegedAccessRequest row =>
      (Row.entries row).map fun e => ⟨.privilegedAccessRequests, e, .update⟩
    | .insertUserRoleAssignment row =>
      (Row.entries row).map fun e => ⟨.userRoleAssignments, e, .update⟩
    | .decidePrivilegedAccessRequest _ requestId .. =>
      [rowLock .privilegedAccessRequests [requestId] .noKeyUpdate]
    | _ => []
  claim
    | .insertRole row, db => ∀ r ∈ db.roles.rows, r.roleId ≠ row.roleId
    | _, _ => True

theorem roleIds_apply {w : Write} (h : ∀ row, w ≠ .insertRole row) (db : Database) :
    (w.apply db).roles.rows.map (·.roleId) = db.roles.rows.map (·.roleId) := by
  cases w with
  | insertRole row => exact absurd rfl (h row)
  | updateRole tenantId roleId name description status now =>
    simp only [Write.apply, RbacTables.updateRole, Table.rows_update, List.map_map]
    apply List.map_congr_left
    intro r _
    simp only [Function.comp]
    split <;> rfl
  | _ => rfl

theorem roleId_kept {ws : List Write} {db : Database} {id : Uuid}
    (h : ∀ r ∈ (replayAll ws db).roles.rows, r.roleId ≠ id) : ∀ r ∈ db.roles.rows, r.roleId ≠ id := by
  induction ws generalizing db with
  | nil => exact h
  | cons w ws ih =>
    have hw := ih h
    by_cases hrole : ∃ row, w = .insertRole row
    · obtain ⟨row, rfl⟩ := hrole
      exact fun r hr => hw r (Table.mem_insert_of_mem hr)
    · intro r hr hid
      have hmem : r.roleId ∈ (w.apply db).roles.rows.map (·.roleId) := by
        rw [roleIds_apply fun row hrow => hrole ⟨row, hrow⟩]
        exact List.mem_map_of_mem hr
      obtain ⟨r', hr', hid'⟩ := List.mem_map.mp hmem
      exact hw r' hr' (hid'.trans hid)

theorem roleProtocol_stable : roleProtocol.Stable RowLock.conflicts := by
  intro e e' db hlocks hclaim
  cases e with
  | insertRole row =>
    by_cases hrole : ∃ row', e' = .insertRole row'
    · obtain ⟨row', rfl⟩ := hrole
      intro r hr
      rcases Table.mem_insert hr with hr | rfl
      · exact hclaim r hr
      · intro hid
        have hfree := hlocks _ List.mem_cons_self _ List.mem_cons_self
        simp [RowLock.conflicts, LockMode.conflicts, hid] at hfree
    · intro r hr hid
      have hmem : r.roleId ∈ (e'.apply db).roles.rows.map (·.roleId) := List.mem_map_of_mem hr
      rw [roleIds_apply fun row' hrow => hrole ⟨row', hrow⟩] at hmem
      obtain ⟨r', hr', hid'⟩ := List.mem_map.mp hmem
      exact hclaim r' hr' (hid'.trans hid)
  | _ => trivial

def Write.Plain (w : Write) : Prop := roleProtocol.needs w = [] ∧ ∀ db, roleProtocol.claim w db

section Follows

theorem follows_plain {α : Type} {name : StatementName} {run : Database → Except Failure (Outcome Write RowLock α)}
    (h : ∀ db o, run db = .ok o → ∀ w ∈ o.edits, w.Plain) :
    (execute name run : Tx α).Follows roleProtocol := by
  apply follows_execute
  intro pending db o ho w hw
  obtain ⟨hneeds, hclaim⟩ := h _ o ho w hw
  refine ⟨fun l hl => ?_, hclaim db⟩
  rw [hneeds] at hl
  cases hl

/-- An insertion locks the entries of its row. -/
theorem follows_locking {ρ : Type} [Row ρ] {name : StatementName} {T : Database → Rows ρ}
    {row : ρ} {references : Database → List Reference} {write : Write}
    (hneeds : roleProtocol.needs write =
      (Row.entries row).map fun e => ⟨Row.relation ρ, e, .update⟩)
    (hclaim : ∀ db, roleProtocol.claim write db) :
    (execute name (fun db => insertRow (T db) row (references db) write) : Tx Unit).Follows
      roleProtocol := by
  apply follows_execute
  intro pending db o ho w hw
  rw [(insertRow_ok ho).2.2, List.mem_singleton] at hw
  subst hw
  refine ⟨fun l hl => ?_, hclaim db⟩
  rw [hneeds] at hl
  obtain ⟨e, he, rfl⟩ := List.mem_map.mp hl
  exact insertRow_locks ho he

theorem follows_insertRow {ρ : Type} [Row ρ] {name : StatementName} {T : Database → Rows ρ}
    {row : ρ} {references : Database → List Reference} {write : Write}
    (h : write.Plain) :
    (execute name (fun db => insertRow (T db) row (references db) write) : Tx Unit).Follows
      roleProtocol := by
  apply follows_plain
  intro db o ho w hw
  rw [(insertRow_ok ho).2.2, List.mem_singleton] at hw
  rw [hw]
  exact h

theorem follows_updateWhere {name : StatementName} {relation : Relation} {mode : LockMode}
    {find : Database → List Uuid} {write : List Uuid → Write} (h : ∀ ids, (write ids).Plain) :
    (updateWhere name relation mode find write).Follows roleProtocol := by
  apply follows_bind follows_query
  intro found
  apply follows_plain
  intro db o ho w hw
  cases ho
  rw [List.mem_singleton.mp hw]
  exact h _

theorem follows_audit (c : AdminCall) (t : Uuid) (key type id : String) :
    (audit c t key type id).Follows roleProtocol :=
  follows_insertRow (T := fun db => db.adminChangeRecords) ⟨rfl, fun _ => trivial⟩

theorem follows_bumpVersions (t : Uuid) (users : List Uuid) :
    (bumpVersions t users).Follows roleProtocol := by
  apply follows_each
  intro u
  apply follows_plain
  intro db o ho w hw
  dsimp only at ho
  split at ho
  · cases ho
  · cases ho
    rw [List.mem_singleton.mp hw]
    exact ⟨rfl, fun _ => trivial⟩

theorem follows_insertRole (c : AdminCall) (t : Uuid) (key name : String) (description : Option String) :
    (insertRole c t key name description).Follows roleProtocol := by
  apply follows_execute
  intro pending db o ho w hw
  obtain ⟨hunique, _, hedits⟩ := insertRow_ok ho
  rw [hedits, List.mem_singleton] at hw
  rw [hw]
  refine ⟨fun l hl => ?_, roleId_kept (TenantOperation.fresh_of_insert? hunique)⟩
  rw [List.mem_singleton.mp hl]
  exact insertRow_locks ho List.mem_cons_self

theorem follows_removeRow {c : AdminCall} {t : Uuid} {ended : Tx (List Uuid)} {affected : List Uuid}
    {key type id : String} (h : ended.Follows roleProtocol) :
    (removeRow c t ended affected key type id).Follows roleProtocol := by
  apply follows_bind h
  intro ids
  split
  · exact follows_bind follows_rollbackNow fun _ => follows_pure _
  · exact follows_bind (follows_bumpVersions ..) fun _ => follows_bind (follows_audit ..) fun _ =>
      follows_bind follows_commitNow fun _ => follows_pure _

theorem follows_ensureActivePermissions (keys : List String) :
    (each ensureActivePermission keys).Follows roleProtocol :=
  follows_each (fun _ => follows_query) keys

theorem follows_insertRolePermissions (t r : Uuid) (keys : List String) :
    (each (insertRolePermission t r) keys).Follows roleProtocol := by
  apply follows_each
  intro key
  have hplain : (Write.insertRolePermission ⟨t, r, key⟩).Plain := ⟨rfl, fun _ => trivial⟩
  exact follows_insertRow (T := fun db => db.rolePermissions) hplain

theorem follows_bindTemplate (c : AdminCall) (bindingId t r : Uuid) (template : Template) :
    (bindTemplate c bindingId t r template).Follows roleProtocol := by
  apply follows_plain
  intro db o ho w hw
  rw [insertBinding_ok ho, List.mem_cons, List.mem_map] at hw
  rcases hw with rfl | ⟨u, _, rfl⟩
  · exact ⟨rfl, fun _ => trivial⟩
  · exact ⟨rfl, fun _ => trivial⟩

theorem follows_rollbackAndRaise {α : Type} (e : Failure) :
    (rollbackAndRaise e : Tx α).Follows roleProtocol :=
  follows_bind follows_rollbackNow fun _ => follows_raise e

theorem follows_templates (keys : List String) : (templates keys).Follows roleProtocol := by
  induction keys with
  | nil => exact follows_pure _
  | cons key keys ih =>
    exact follows_bind follows_query fun _ => follows_bind ih fun _ => follows_pure _

theorem follows_onIntegrityError {α : Type} {found : Tx (Option α)} (h : found.Follows roleProtocol)
    (e : Failure) : (onIntegrityError found e).Follows roleProtocol := by
  unfold onIntegrityError
  split
  · refine follows_bind follows_rollbackNow fun _ => follows_bind h fun result => ?_
    cases result with
    | none => exact follows_raise _
    | some result => exact follows_pure result
  · exact follows_raise _

theorem follows_insertRequest (c : AdminCall) (t u r : Uuid) :
    (insertRequest c t u r).Follows roleProtocol :=
  follows_bind (follows_locking (T := fun db => db.privilegedAccessRequests) rfl
    fun _ => trivial) fun _ => follows_bind (follows_audit ..) fun _ => follows_commitNow

theorem follows_insertUserRole (c : AdminCall) (t u r assigner : Uuid) :
    (insertUserRole c t u r assigner).Follows roleProtocol :=
  follows_locking (T := fun db => db.userRoleAssignments) rfl fun _ => trivial

theorem follows_adminAssignUserRole (c : AdminCall) (t u r : Uuid) :
    (adminAssignUserRole c t u r).Follows roleProtocol := by
  refine follows_bind follows_query fun active => ?_
  split
  · exact follows_raise _
  · refine follows_bind follows_query fun activeRole => ?_
    split
    · exact follows_raise _
    · refine follows_bind follows_query fun existing => ?_
      split
      · exact follows_pure _
      · exact follows_bind (follows_insertUserRole ..) fun _ =>
          follows_bind (follows_bumpVersions ..) fun _ => follows_bind (follows_audit ..) fun _ =>
            follows_bind follows_commitNow fun _ => follows_pure _

theorem follows_assignUserRole (c : AdminCall) (innerNow : Instant) (t u r : Uuid) :
    (assignUserRole c innerNow t u r).Follows roleProtocol := by
  refine follows_bind follows_query fun role => ?_
  split
  · exact follows_raise _
  · exact follows_raise _
  · split
    · exact follows_adminAssignUserRole ..
    · refine follows_bind follows_query fun active => ?_
      split
      · exact follows_raise _
      · refine follows_bind follows_query fun assigned => ?_
        split
        · exact follows_bind follows_rollbackNow fun _ => follows_pure _
        · refine follows_bind follows_query fun pending => ?_
          split
          · exact follows_bind follows_rollbackNow fun _ => follows_pure _
          · refine follows_attempt ?_ ?_
            · exact follows_bind (follows_insertRequest ..) fun _ => follows_pure _
            · exact follows_onIntegrityError (follows_bind follows_query fun _ => follows_pure _)

theorem follows_requestOrAssignUserRole (c : AdminCall) (gateNow innerNow : Instant) (t u r : Uuid) :
    (requestOrAssignUserRole c gateNow innerNow t u r).Follows roleProtocol := by
  refine follows_bind follows_query fun active => ?_
  split
  · exact follows_raise _
  · refine follows_bind follows_query fun role => ?_
    split
    · exact follows_raise _
    · exact follows_raise _
    · split
      · exact follows_bind (follows_assignUserRole ..) fun _ => follows_pure _
      · refine follows_bind follows_query fun assigned => ?_
        split
        · exact follows_bind follows_rollbackNow fun _ => follows_pure _
        · refine follows_bind follows_query fun pending => ?_
          split
          · exact follows_bind follows_rollbackNow fun _ => follows_pure _
          · refine follows_attempt ?_ ?_
            · exact follows_bind (follows_insertRequest ..) fun _ => follows_pure _
            · exact follows_onIntegrityError (follows_bind follows_query fun _ => follows_pure _)

theorem follows_lockedRequest (t request : Uuid) : (lockedRequest t request).Follows roleProtocol := by
  apply follows_plain
  intro db o ho w hw
  split at ho
  · cases ho
  · cases ho
    cases hw

theorem follows_recordDecision (c : AdminCall) (t request : Uuid) (roleKey : String)
    (status : RequestStatus) (reason : Option String) (key : String) :
    (recordDecision c t request roleKey status reason key).Follows roleProtocol := by
  refine follows_bind (follows_execute ?_) fun _ => follows_bind (follows_audit ..) fun _ =>
    follows_bind follows_commitNow fun _ => follows_bind follows_query fun _ => follows_pure _
  intro pending db o ho w hw
  split at ho
  · cases ho
  · cases ho
    rw [List.mem_singleton.mp hw]
    exact ⟨fun l hl => hl, trivial⟩

theorem follows_approve (c : AdminCall) (t request : Uuid) (reason : Option String) :
    (approve c t request reason).Follows roleProtocol := by
  refine follows_bind (follows_lockedRequest ..) fun found => ?_
  split
  · exact follows_raise _
  · refine follows_bind follows_query fun active => ?_
    split
    · exact follows_raise _
    · refine follows_bind follows_query fun activeRole => ?_
      split
      · exact follows_raise _
      · refine follows_bind follows_query fun existing => ?_
        split
        · exact follows_recordDecision ..
        · exact follows_bind (follows_insertUserRole ..) fun _ =>
            follows_bind (follows_bumpVersions ..) fun _ => follows_recordDecision ..

theorem follows_reject (c : AdminCall) (t request : Uuid) (reason : Option String) :
    (reject c t request reason).Follows roleProtocol := by
  refine follows_bind (follows_lockedRequest ..) fun found => ?_
  split
  · exact follows_raise _
  · exact follows_recordDecision ..

theorem follows_createGroup (c : AdminCall) (t : Uuid) (key name : String)
    (description : Option String) : (createGroup c t key name description).Follows roleProtocol := by
  refine follows_bind (follows_insertRow (T := fun db => db.groups) ⟨rfl, fun _ => trivial⟩) fun _ =>
    follows_bind (follows_audit ..) fun _ => follows_bind follows_commitNow fun _ =>
      follows_bind follows_query fun group => ?_
  cases group with
  | none => exact follows_raise _
  | some group => exact follows_pure group

theorem follows_updateGroup (c : AdminCall) (t gid : Uuid) (name description : Option String)
    (status : Option ActiveStatus) :
    (updateGroup c t gid name description status).Follows roleProtocol := by
  refine follows_bind follows_query fun current => ?_
  cases current with
  | none => exact follows_pure _
  | some current =>
    refine follows_bind follows_query fun affected => follows_bind (follows_plain ?_) fun _ =>
      follows_bind (follows_bumpVersions ..) fun _ => follows_bind (follows_audit ..) fun _ =>
        follows_bind follows_commitNow fun _ => follows_query
    intro db o ho w hw
    cases ho
    rw [List.mem_singleton.mp hw]
    exact ⟨rfl, fun _ => trivial⟩

theorem follows_addGroupMember (c : AdminCall) (t gid u : Uuid) :
    (addGroupMember c t gid u).Follows roleProtocol := by
  refine follows_bind follows_query fun activeGroup => ?_
  split
  · exact follows_raise _
  · refine follows_bind follows_query fun active => ?_
    split
    · exact follows_raise _
    · refine follows_bind follows_query fun existing => ?_
      split
      · exact follows_pure _
      · exact follows_bind (follows_insertRow (T := fun db => db.groupMemberships)
          ⟨rfl, fun _ => trivial⟩) fun _ => follows_bind (follows_bumpVersions ..) fun _ =>
            follows_bind (follows_audit ..) fun _ => follows_bind follows_commitNow fun _ =>
              follows_pure _

theorem follows_assignGroupRole (c : AdminCall) (t gid r : Uuid) :
    (assignGroupRole c t gid r).Follows roleProtocol := by
  refine follows_bind follows_query fun activeGroup => ?_
  split
  · exact follows_raise _
  · refine follows_bind follows_query fun activeRole => ?_
    split
    · exact follows_raise _
    · refine follows_bind follows_query fun existing => ?_
      split
      · exact follows_pure _
      · exact follows_bind (follows_insertRow (T := fun db => db.groupRoleAssignments)
          ⟨rfl, fun _ => trivial⟩) fun _ => follows_bind follows_query fun _ =>
            follows_bind (follows_bumpVersions ..) fun _ => follows_bind (follows_audit ..) fun _ =>
              follows_bind follows_commitNow fun _ => follows_pure _

theorem follows_createRole (c : AdminCall) (t : Uuid) (key name : String)
    (description : Option String) (keys : List String) :
    (createRole c t key name description keys).Follows roleProtocol := by
  unfold createRole
  split
  · exact follows_raise _
  · refine follows_bind (follows_ensureActivePermissions keys) fun _ =>
      follows_bind (follows_insertRole ..) fun _ =>
        follows_bind (follows_insertRolePermissions ..) fun _ =>
          follows_bind (follows_audit ..) fun _ => follows_bind follows_commitNow fun _ =>
            follows_bind follows_query fun role => ?_
    cases role with
    | none => exact follows_raise _
    | some role => exact follows_pure role

theorem follows_createTemplateRole (c : AdminCall) (bindingId : Nat → Uuid) (t : Uuid)
    (key name : String) (description : Option String) (templateKeys keys : List String) :
    (createTemplateRole c bindingId t key name description templateKeys keys).Follows
      roleProtocol := by
  unfold createTemplateRole
  split
  · exact follows_raise _
  · refine follows_bind (follows_templates _) fun found =>
      follows_bind (follows_ensureActivePermissions _) fun _ =>
        follows_bind (follows_attempt ?_ follows_rollbackAndRaise) fun _ => follows_query
    exact follows_bind (follows_insertRole ..) fun _ =>
      follows_bind (follows_insertRolePermissions ..) fun _ =>
        follows_bind (follows_each (fun _ => follows_bindTemplate ..) _) fun _ =>
          follows_bind (follows_audit ..) fun _ => follows_commitNow

theorem follows_updateRole (c : AdminCall) (t r : Uuid) (name description : Option String)
    (status : Option ActiveStatus) :
    (updateRole c t r name description status).Follows roleProtocol := by
  refine follows_bind follows_query fun current => ?_
  cases current with
  | none => exact follows_pure _
  | some current =>
    refine follows_bind follows_query fun affected => follows_bind (follows_plain ?_) fun _ =>
      follows_bind (follows_bumpVersions ..) fun _ => follows_bind (follows_audit ..) fun _ =>
        follows_bind follows_commitNow fun _ => follows_query
    intro db o ho w hw
    cases ho
    rw [List.mem_singleton.mp hw]
    exact ⟨rfl, fun _ => trivial⟩

theorem follows_addRolePermission (c : AdminCall) (t r : Uuid) (p : String) :
    (addRolePermission c t r p).Follows roleProtocol := by
  refine follows_bind follows_query fun _ => follows_bind follows_query fun activeRole => ?_
  split
  · exact follows_raise _
  · refine follows_bind follows_query fun existing => ?_
    split
    · exact follows_pure _
    · exact follows_bind (follows_insertRow (T := fun db => db.rolePermissions)
        ⟨rfl, fun _ => trivial⟩) fun _ => follows_bind follows_query fun _ =>
          follows_bind (follows_bumpVersions ..) fun _ => follows_bind (follows_audit ..) fun _ =>
            follows_bind follows_commitNow fun _ => follows_pure _

theorem follows_removeRolePermission (c : AdminCall) (t r : Uuid) (p : String) :
    (removeRolePermission c t r p).Follows roleProtocol := by
  refine follows_bind follows_query fun _ => follows_removeRow (follows_plain ?_)
  intro db o ho w hw
  cases ho
  rw [List.mem_singleton.mp hw]
  exact ⟨rfl, fun _ => trivial⟩

theorem follows_upgradeTemplate (c : AdminCall) (t r : Uuid) (key : String) :
    (upgradeTemplate c t r key).Follows roleProtocol := by
  refine follows_bind follows_query fun template =>
    follows_bind (follows_ensureActivePermissions _) fun _ => follows_bind follows_query fun users =>
      follows_bind (follows_attempt ?_ follows_rollbackAndRaise) fun _ => follows_query
  refine follows_bind follows_query fun role => ?_
  cases role with
  | none => exact follows_raise _
  | some role =>
    refine follows_bind (follows_each (fun key => follows_plain ?_) _) fun _ =>
      follows_bind (follows_updateWhere fun _ => ⟨rfl, fun _ => trivial⟩) fun _ =>
        follows_bind (follows_bindTemplate ..) fun _ =>
          follows_bind (follows_each (fun u => follows_plain ?_) _) fun _ =>
            follows_bind (follows_audit ..) fun _ => follows_commitNow
    · intro db o ho w hw
      dsimp only at ho
      split at ho
      · cases ho
        cases hw
      · rw [(insertRow_ok ho).2.2, List.mem_singleton] at hw
        rw [hw]
        exact ⟨rfl, fun _ => trivial⟩
    · intro db o ho w hw
      cases ho
      rw [List.mem_singleton.mp hw]
      exact ⟨rfl, fun _ => trivial⟩

end Follows

theorem TenantOperation.follows (op : TenantOperation) : op.program.Follows roleProtocol := by
  have hdiscard : ∀ {α : Type} {p : Tx α}, p.Follows roleProtocol →
      (discard p).Follows roleProtocol := fun h => follows_bind h fun _ => follows_pure ()
  cases op with
  | assignUserRole => exact hdiscard (follows_assignUserRole ..)
  | requestOrAssignUserRole => exact hdiscard (follows_requestOrAssignUserRole ..)
  | approve => exact hdiscard (follows_approve ..)
  | reject => exact hdiscard (follows_reject ..)
  | removeUserRole | removeGroupMember =>
    exact hdiscard (follows_removeRow (follows_updateWhere fun _ => ⟨rfl, fun _ => trivial⟩))
  | createGroup => exact hdiscard (follows_createGroup ..)
  | updateGroup => exact hdiscard (follows_updateGroup ..)
  | addGroupMember => exact hdiscard (follows_addGroupMember ..)
  | assignGroupRole => exact hdiscard (follows_assignGroupRole ..)
  | removeGroupRole =>
    exact hdiscard (follows_bind follows_query fun _ =>
      follows_removeRow (follows_updateWhere fun _ => ⟨rfl, fun _ => trivial⟩))
  | createRole => exact hdiscard (follows_createRole ..)
  | createTemplateRole => exact hdiscard (follows_createTemplateRole ..)
  | updateRole => exact hdiscard (follows_updateRole ..)
  | addRolePermission => exact hdiscard (follows_addRolePermission ..)
  | removeRolePermission => exact hdiscard (follows_removeRolePermission ..)
  | upgradeTemplate => exact hdiscard (follows_upgradeTemplate ..)

/-! ## Every commit of a current operation keeps the law -/

namespace TenantOperation

def overlapping (ops : List TenantOperation) (db : Database) : TxState Unit :=
  State.initial db (ops.map program)

/-- If the call with this index commits next, what its operation saw is current. -/
def CommitsCurrent (ops : List TenantOperation) (now : Instant) (s : TxState Unit) (i : Nat) : Prop :=
  match ops[i]?, s.calls[i]? with
  | some op, some c => c.committing = true → op.Current now s.committed c.progress
  | _, _ => True

instance (now : Instant) (db : Database) (g : TxProgress) (op : TenantOperation) :
    Decidable (op.Current now db g) := by
  cases op <;> unfold Current UsersSeen <;> infer_instance

instance (ops : List TenantOperation) (now : Instant) (s : TxState Unit) (i : Nat) :
    Decidable (CommitsCurrent ops now s i) := by
  unfold CommitsCurrent
  split <;> infer_instance

def contract (ops : List TenantOperation) (i : Nat) :
    Contract Database Write RowLock StatementName Failure Unit where
  always _ := True
  commits g := ∃ op, ops[i]? = some op ∧ op.Effect g
  returns _ _ := True

theorem upholds_overlapping (ops : List TenantOperation) (db : Database) :
    (overlapping ops db).Upholds (contract ops) :=
  State.upholds_initial_map TenantOperation.commits

theorem protected_overlapping (ops : List TenantOperation) (db : Database) :
    (overlapping ops db).Protected roleProtocol RowLock.conflicts := by
  apply State.protected_initial
  intro p hp
  obtain ⟨op, _, rfl⟩ := List.mem_map.mp hp
  exact op.follows

/-- The claim of a pending role insertion says that the operation is fresh. -/
theorem fresh_of_claims {op : TenantOperation} {db : Database}
    {c : Call Database Write RowLock StatementName Failure Unit} (heffect : op.Effect c.progress)
    (hc : c.Claims roleProtocol db) (hcommit : c.committing = true) : op.Fresh db := by
  have hunfinished := Call.unfinished_of_committing hcommit
  have hpending : ∀ w ∈ governing c.progress, w ∈ c.progress.pending :=
    fun w hw => (List.mem_filter.mp hw).1
  cases op with
  | createRole admin t key name description keys =>
    obtain ⟨_, _, hg⟩ := heffect
    have hrole : .insertRole (roleRow admin t key name description) ∈ governing c.progress := by
      rw [hg]
      exact List.mem_cons_self
    exact hc.true_claims hunfinished _ (hpending _ hrole)
  | createTemplateRole admin bindingId t key name description templateKeys keys =>
    obtain ⟨_, _, _, hg⟩ := heffect
    have hrole : .insertRole (roleRow admin t key name description) ∈ governing c.progress := by
      rw [hg]
      exact List.mem_cons_self
    exact hc.true_claims hunfinished _ (hpending _ hrole)
  | _ => trivial

/-- In a run whose commits are all current, every step keeps the authorization-version law. -/
theorem overlapping_keep_version_law (ops : List TenantOperation) (db : Database) (now : Instant)
    {s s' : TxState Unit} {i : Nat}
    (hreach : State.Reaches RowLock.conflicts (CommitsCurrent ops now) (overlapping ops db) s)
    (hcurrent : CommitsCurrent ops now s i) (hstep : s.step RowLock.conflicts i = some s') :
    VersionLaw now s.committed s'.committed := by
  have hupholds := hreach.upholds (upholds_overlapping ops db)
  have hprotected := hreach.protected RowLock.conflicts_comm roleProtocol_stable
    (protected_overlapping ops db)
  rcases hupholds.committed hstep with hsame | ⟨c, hc, hcommit, _, ⟨op, hop, heffect⟩, hcommitted⟩
  · rw [hsame]
    exact fun _ _ _ hne => absurd rfl hne
  · unfold CommitsCurrent at hcurrent
    rw [hop, hc] at hcurrent
    rw [hcommitted]
    exact op.lawful heffect (hcurrent hcommit)
      (fresh_of_claims heffect (hprotected.claims i c hc) hcommit)

def teamDatabase : Database :=
  replayAll [.insertGroup ⟨"group", "tenant", "team", "Team", none, .active, 0, 0⟩,
      .insertRole ⟨"role", "tenant", "clerk", "Clerk", none, .active, 0, 0⟩,
      .insertRolePermission ⟨"tenant", "role", "sales.order.read"⟩]
    { (default : Database) with
      tenants := Table.empty.insert ⟨"tenant", "TENANT", "Tenant", .active, 0, 0⟩
      users := (Table.empty.insert ⟨"admin", "Admin", none, none, none, none, .active, 0, 0⟩).insert
        ⟨"user", "User", none, none, none, none, .active, 0, 0⟩
      securityPrincipals := (Table.empty.insert ⟨"admin", .user, "admin", .active⟩).insert
        ⟨"user", .user, "user", .active⟩
      permissions := Table.empty.insert
        ⟨"sales.order.read", "sales", "order", "read", none, none, .active, none⟩ }

def joinDuringAssignment : List TenantOperation :=
  [.assignGroupRole ⟨"admin", "first", 0, "assignment", "audit-1"⟩ "tenant" "group" "role",
    .addGroupMember ⟨"admin", "second", 0, "membership", "audit-2"⟩ "tenant" "group" "user"]

def changesPermissions (before after : Database) : Bool :=
  before.activeUser "user" && decide (effectivePermissions before "tenant" "user" 0 ≠
    effectivePermissions after "tenant" "user" 0)

/-- The member joins first: the assignment that follows is current, and bumps. -/
theorem join_before_assignment_bumps : ∃ s s' : TxState Unit,
    changesPermissions s.committed s'.committed = true ∧ VersionLaw 0 s.committed s'.committed := by
  have hcurrent : (overlapping joinDuringAssignment teamDatabase).Meets RowLock.conflicts
      (CommitsCurrent joinDuringAssignment 0) ([1, 1, 1, 1, 1, 1, 1, 0, 0, 0, 0, 0, 0, 0] ++ [0]) := by
    decide +kernel
  have hrun : (((overlapping joinDuringAssignment teamDatabase).run RowLock.conflicts
      [1, 1, 1, 1, 1, 1, 1, 0, 0, 0, 0, 0, 0, 0]).bind fun s =>
        (s.step RowLock.conflicts 0).map fun s' =>
          changesPermissions s.committed s'.committed) = some true := by
    decide +kernel
  obtain ⟨s, s', hreach, hcurrent, hstep, hchanges⟩ :=
    State.exists_step_of_run (P := changesPermissions) hcurrent hrun
  exact ⟨s, s', hchanges, overlapping_keep_version_law _ _ _ hreach hcurrent hstep⟩

/-- The assignment looked for members before the membership was committed, so its
own commit changes the new member's permissions and bumps nobody. -/
theorem overlapping_lose_a_bump : ¬ ∀ (ops : List TenantOperation) (db : Database) (now : Instant)
    (s s' : TxState Unit) (i : Nat),
    State.Reaches RowLock.conflicts (fun _ _ => True) (overlapping ops db) s →
    s.step RowLock.conflicts i = some s' → VersionLaw now s.committed s'.committed := by
  intro hlaw
  have hrun : (((overlapping joinDuringAssignment teamDatabase).run RowLock.conflicts
      [0, 0, 0, 0, 0, 0, 1, 1, 1, 1, 1, 1, 1]).bind fun s =>
        (s.step RowLock.conflicts 0).map fun s' =>
          changesPermissions s.committed s'.committed &&
            decide (¬ s.committed.authorizationVersion "tenant" "user" <
              s'.committed.authorizationVersion "tenant" "user")) = some true := by
    decide +kernel
  obtain ⟨s, s', hreach, _, hstep, hcheck⟩ := State.exists_step_of_run
    (P := fun before after => changesPermissions before after &&
      decide (¬ before.authorizationVersion "tenant" "user" <
        after.authorizationVersion "tenant" "user")) (State.meets_true _ _) hrun
  simp only [changesPermissions, Bool.and_eq_true, decide_eq_true_eq] at hcheck
  obtain ⟨⟨hactive, hchanges⟩, hversion⟩ := hcheck
  exact hversion (hlaw _ _ 0 s s' 0 hreach hstep "tenant" "user" hactive hchanges)

end TenantOperation

end VerigenceSecurity
