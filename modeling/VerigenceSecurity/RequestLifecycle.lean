import VerigenceSecurity.OverlappingOperations
import VerigenceSecurity.MakerChecker
import VerigenceSecurity.Library.Lease

/-! # The lifecycle of privileged requests

Requests, approvals and rejections of any actors overlap. A decision locks its request
and finds it pending until the commit; an approval finds the role assigned, or locks the
free entries of the assignment that it inserts.
-/

namespace VerigenceSecurity
set_option autoImplicit false

open Transaction Relational Program

/-! ## What the locks keep -/

/-- Whoever has locked a request finds it unchanged. -/
def requestLease (row : PrivilegedAccessRequest) : Lease Database RowLock where
  lock := rowLock .privilegedAccessRequests [row.requestId] .update
  holds db := row ∈ db.privilegedAccessRequests.rows

/-- Whoever has locked an entry of the assignments finds it free. -/
def entryLease (k : IndexEntry) : Lease Database RowLock where
  lock := ⟨.userRoleAssignments, k, .update⟩
  holds db := k ∉ db.userRoleAssignments.taken

theorem requestLease_respects (row : PrivilegedAccessRequest) (w : Write) :
    (requestLease row).Respects RowLock.conflicts roleProtocol.needs w := by
  cases w with
  | insertPrivilegedAccessRequest r => exact Or.inl fun db h => Table.mem_insert_of_mem h
  | decidePrivilegedAccessRequest t request status approver now reason =>
    by_cases hid : request = row.requestId
    · right
      refine ⟨_, List.mem_cons_self, ?_⟩
      simp [requestLease, rowLock, RowLock.conflicts, LockMode.conflicts, hid]
    · left
      intro db h
      simp only [requestLease, replay_eq, Write.apply] at h ⊢
      refine Table.mem_update_of_not h (decide_eq_false ?_)
      exact fun hrow => hid hrow.2.symm
  | _ => exact Or.inl fun _ h => h

theorem entryLease_respects (k : IndexEntry) (w : Write) :
    (entryLease k).Respects RowLock.conflicts roleProtocol.needs w := by
  cases w with
  | insertUserRoleAssignment row =>
    by_cases hk : k ∈ Row.entries row
    · right
      refine ⟨_, List.mem_map_of_mem hk, ?_⟩
      simp [entryLease, RowLock.conflicts, LockMode.conflicts]
    · left
      intro db h htaken
      simp only [replay_eq, Write.apply, RbacTables.insertUserRoleAssignment] at htaken
      split at htaken
      · rcases Table.mem_taken_insert htaken with htaken | hrow
        · exact h htaken
        · exact hk hrow
      · exact h htaken
  | endUserRoleAssignment ids tenantId userId roleId now =>
    left
    intro db h htaken
    simp only [replay_eq, Write.apply, RbacTables.endUserRoleAssignment] at htaken
    exact h (Table.taken_update_subset htaken)
  | _ => exact Or.inl fun _ h => h

structure RolesGrow (db db' : Database) : Prop where
  roles : db.roles.rows ⊆ db'.roles.rows
  assignments : db.userRoleAssignments.rows ⊆ db'.userRoleAssignments.rows

theorem RolesGrow.refl (db : Database) : RolesGrow db db := ⟨List.Subset.refl _, List.Subset.refl _⟩

theorem RolesGrow.trans {a b c : Database} (h : RolesGrow a b) (k : RolesGrow b c) : RolesGrow a c :=
  ⟨List.Subset.trans h.roles k.roles, List.Subset.trans h.assignments k.assignments⟩

theorem RolesGrow.activeUserRole {db db' : Database} (h : RolesGrow db db') {t u r : Uuid}
    (hactive : db.activeUserRole t u r = true) : db'.activeUserRole t u r = true := by
  obtain ⟨a, ha, hP⟩ := List.any_eq_true.mp hactive
  exact List.any_eq_true.mpr ⟨a, h.assignments ha, hP⟩

/-! ## Decisions -/

inductive PrivilegedDecision (c : AdminCall) (t request : Uuid) (reason : Option String) :
    RequestStatus → TenantOperation → Prop
  | approve : PrivilegedDecision c t request reason .approved (.approve c t request reason)
  | reject : PrivilegedDecision c t request reason .rejected (.reject c t request reason)

/-- The request is pending, and the actor neither asked for the role nor would get it. -/
structure Undecided (c : AdminCall) (t request : Uuid) (row : PrivilegedAccessRequest) : Prop where
  tenant : row.tenantId = t
  id : row.requestId = request
  pending : row.status = .pending
  requester : row.requestedByUserId ≠ c.actorUserId
  subject : row.subjectUserId ≠ c.actorUserId

def PrivilegedAccessRequest.assignment (c : AdminCall) (row : PrivilegedAccessRequest) :
    UserRoleAssignment :=
  userRoleRow c row.tenantId row.subjectUserId row.roleId row.requestedByUserId

def Assigns (c : AdminCall) (row : PrivilegedAccessRequest) (g : TxProgress) (db : Database) : Prop :=
  db.activeUserRole row.tenantId row.subjectUserId row.roleId = true ∨
    .insertUserRoleAssignment (row.assignment c) ∈ g.pending ∧
      (∃ r ∈ db.roles.rows, r.tenantId = row.tenantId ∧ r.roleId = row.roleId) ∧
      ∀ k ∈ Row.entries (row.assignment c), k ∉ db.userRoleAssignments.taken

def Decides (c : AdminCall) (t request : Uuid) (status : RequestStatus) (g : TxProgress)
    (db : Database) : Prop :=
  ∃ row ∈ db.privilegedAccessRequests.rows, Undecided c t request row ∧
    (status = .approved → Assigns c row g db)

namespace TenantOperation

def OfPrivilegedAccess : TenantOperation → Prop
  | assignUserRole .. | requestOrAssignUserRole .. | approve .. | reject .. => True
  | _ => False

theorem governing_of_decision {c : AdminCall} {t request : Uuid} {reason : Option String}
    {status : RequestStatus} {op : TenantOperation} {g : TxProgress}
    (h : PrivilegedDecision c t request reason status op) (heffect : op.Effect g) :
    ∃ ws, governing g =
        ws ++ [.decidePrivilegedAccessRequest t request status c.actorUserId c.now reason] ∧
      (ws = [] ∨ status = .approved ∧ ∃ row, ws = [.insertUserRoleAssignment row]) := by
  cases h with
  | approve =>
    obtain ⟨row, _, _, _, _, _, _, hg | ⟨_, _, hg⟩⟩ := heffect
    · exact ⟨[], hg, Or.inl rfl⟩
    · exact ⟨_, hg, Or.inr ⟨rfl, _, rfl⟩⟩
  | reject =>
    obtain ⟨row, _, _, _, _, _, _, hg | ⟨hnone, _⟩⟩ := heffect
    · exact ⟨[], hg, Or.inl rfl⟩
    · exact absurd rfl hnone

theorem governing_cases {op : TenantOperation} (hop : op.OfPrivilegedAccess) {g : TxProgress}
    (heffect : op.Effect g) :
    (∃ row, governing g = [.insertPrivilegedAccessRequest row]) ∨
      (∃ row, governing g = [.insertUserRoleAssignment row]) ∨
      ∃ c t request reason status, PrivilegedDecision c t request reason status op := by
  cases op with
  | assignUserRole | requestOrAssignUserRole =>
    rcases heffect with ⟨_, hg⟩ | ⟨hg, _⟩
    · exact Or.inl ⟨_, hg⟩
    · exact Or.inr (Or.inl ⟨_, hg⟩)
  | approve c t request reason => exact Or.inr (Or.inr ⟨c, t, request, reason, _, .approve⟩)
  | reject c t request reason => exact Or.inr (Or.inr ⟨c, t, request, reason, _, .reject⟩)
  | _ => exact hop.elim

end TenantOperation

/-! ## What a commit does -/

theorem rbac_replayAll (g : TxProgress) (db : Database) :
    (replayAll g.pending db).toRbacTables = (replayAll (governing g) db).toRbacTables := by
  have hsame : SameGraph (replayAll g.pending db) (replayAll (governing g) db) := by
    apply (SameGraph.refl db).replayAll_filter
    intro w hw
    exact (Bool.or_eq_false_iff.mp hw).1
  exact hsame.rbac

theorem requests_governing (g : TxProgress) (db : Database) :
    (replayAll g.pending db).privilegedAccessRequests =
      (replayAll (governing g) db).privilegedAccessRequests := requests_replayAll rfl

theorem rolesGrow_assign (row : UserRoleAssignment) (db : Database) :
    RolesGrow db (Write.apply db (.insertUserRoleAssignment row)) := by
  refine ⟨List.Subset.refl _, fun a ha => ?_⟩
  simp only [Write.apply, RbacTables.insertUserRoleAssignment]
  split
  · exact Table.mem_insert_of_mem ha
  · exact ha

theorem RolesGrow.of_rbac {a b c : Database} (h : RolesGrow a b) (hbc : c.toRbacTables = b.toRbacTables) :
    RolesGrow a c := by
  constructor
  · rw [hbc]
    exact h.roles
  · rw [hbc]
    exact h.assignments

/-- Requests and decisions take back no role and no assignment. -/
theorem rolesGrow_commit {op : TenantOperation} (hop : op.OfPrivilegedAccess) {g : TxProgress}
    (heffect : op.Effect g) (db : Database) : RolesGrow db (replayAll g.pending db) := by
  refine RolesGrow.of_rbac ?_ (rbac_replayAll g db)
  rcases op.governing_cases hop heffect with ⟨row, hg⟩ | ⟨row, hg⟩ | ⟨c, t, request, reason, status, h⟩
  · rw [hg]
    exact ⟨List.Subset.refl _, List.Subset.refl _⟩
  · rw [hg]
    exact rolesGrow_assign row db
  · obtain ⟨ws, hg, rfl | ⟨_, row, rfl⟩⟩ := TenantOperation.governing_of_decision h heffect
    · rw [hg]
      exact ⟨List.Subset.refl _, List.Subset.refl _⟩
    · rw [hg]
      exact (rolesGrow_assign row db).trans ⟨List.Subset.refl _, List.Subset.refl _⟩

def Database.activeAssignments (db : Database) (t u r : Uuid) : List UserRoleAssignment :=
  db.userRoleAssignments.rows.filter fun a => decide (a.tenantId = t ∧ a.userId = u ∧
    a.roleId = r ∧ a.status = .active)

theorem length_activeAssignments {db : Database} {t u r : Uuid}
    (h : db.activeUserRole t u r = true) : (db.activeAssignments t u r).length = 1 := by
  have hle : (db.activeAssignments t u r).length ≤ 1 := by
    apply Table.length_filter_le_one (Index.active, [t, u, r])
    intro a ha
    obtain ⟨ht, hu, hr, hs⟩ := of_decide_eq_true ha
    simp [Row.entries, ht, hu, hr, hs]
  obtain ⟨a, ha, hactive⟩ := List.any_eq_true.mp h
  have hmem : a ∈ db.activeAssignments t u r := List.mem_filter.mpr ⟨ha, hactive⟩
  exact Nat.le_antisymm hle (List.length_pos_of_mem hmem)

section Decided

variable {c : AdminCall} {t request : Uuid} {reason : Option String} {status : RequestStatus}
  {op : TenantOperation} {g : TxProgress} {db : Database}

theorem requests_decision (h : PrivilegedDecision c t request reason status op)
    (heffect : op.Effect g) : (replayAll g.pending db).privilegedAccessRequests =
      (Write.apply db (.decidePrivilegedAccessRequest t request status c.actorUserId c.now
        reason)).privilegedAccessRequests := by
  rw [requests_governing]
  obtain ⟨ws, hg, rfl | ⟨_, row, rfl⟩⟩ := TenantOperation.governing_of_decision h heffect
  · rw [hg]
    rfl
  · rw [hg]
    rfl

theorem status_of_decision (h : PrivilegedDecision c t request reason status op) :
    status ≠ .pending := by
  cases h <;> exact RequestStatus.noConfusion

/-- The decided request names its approver and the time of the decision. -/
theorem decided_of_decision (h : PrivilegedDecision c t request reason status op)
    (heffect : op.Effect g) {row : PrivilegedAccessRequest}
    (hrow : row ∈ db.privilegedAccessRequests.rows) (hopen : Undecided c t request row) :
    ∃ after ∈ (replayAll g.pending db).privilegedAccessRequests.rows, after.requestId = request ∧
      after.status = status ∧ after.approvedByUserId = some c.actorUserId ∧
      after.decidedAt = some c.now := by
  have hallowed : c.actorUserId ≠ row.subjectUserId ∧ c.actorUserId ≠ row.requestedByUserId ∧
      status ≠ .pending := ⟨hopen.subject.symm, hopen.requester.symm, status_of_decision h⟩
  rw [requests_decision h heffect]
  simp only [Write.apply]
  refine ⟨_, Table.mem_update_set hrow (decide_eq_true ⟨hopen.tenant, hopen.id⟩), ?_⟩
  unfold PrivilegedAccessRequest.decided
  rw [dif_pos hallowed]
  exact ⟨hopen.id, rfl, rfl, rfl⟩

/-- A decision changes no other request than its own, which was pending. -/
theorem settled_of_decision (h : PrivilegedDecision c t request reason status op)
    (heffect : op.Effect g) {row : PrivilegedAccessRequest}
    (hrow : row ∈ db.privilegedAccessRequests.rows) (hopen : Undecided c t request row)
    {settled : PrivilegedAccessRequest} (hsettled : settled ∈ db.privilegedAccessRequests.rows)
    (hstatus : settled.status ≠ .pending) :
    settled ∈ (replayAll g.pending db).privilegedAccessRequests.rows := by
  rw [requests_decision h heffect]
  simp only [Write.apply]
  refine Table.mem_update_of_not hsettled (decide_eq_false ?_)
  rintro ⟨_, hid⟩
  have hsame : settled = row := by
    apply Table.shared_entry hsettled hrow (k := (Index.primary, [request]))
    · simp [Row.entries, hid]
    · simp [Row.entries, hopen.id]
  rw [hsame] at hstatus
  exact hstatus hopen.pending

/-- After an approval the role is assigned. -/
theorem assigned_of_approval (h : PrivilegedDecision c t request reason status op)
    (heffect : op.Effect g) {row : PrivilegedAccessRequest} (hassigns : Assigns c row g db) :
    (replayAll g.pending db).activeUserRole row.tenantId row.subjectUserId row.roleId = true := by
  rcases hassigns with hactive | ⟨hpending, hrole, hfree⟩
  · have hop : op.OfPrivilegedAccess := by cases h <;> trivial
    exact (rolesGrow_commit hop heffect db).activeUserRole hactive
  have hgoverning : .insertUserRoleAssignment (row.assignment c) ∈ governing g :=
    List.mem_filter.mpr ⟨hpending, rfl⟩
  obtain ⟨ws, hg, rfl | ⟨_, inserted, rfl⟩⟩ := TenantOperation.governing_of_decision h heffect
  · simp [hg] at hgoverning
  have hsame : row.assignment c = inserted := by simpa [hg] using hgoverning
  have hmem : row.assignment c ∈ (replayAll g.pending db).userRoleAssignments.rows := by
    rw [rbac_replayAll, hg, ← hsame]
    simp only [List.cons_append, List.nil_append, replayAll_cons, replayAll_nil, replay_eq,
      Write.apply, RbacTables.insertUserRoleAssignment]
    have hassigned : ∃ r ∈ db.roles.rows, r.tenantId = (row.assignment c).tenantId ∧
        r.roleId = (row.assignment c).roleId := hrole
    rw [if_pos hassigned]
    exact Table.mem_insert_of_free hfree
  exact List.any_eq_true.mpr ⟨_, hmem, decide_eq_true ⟨rfl, rfl, rfl, rfl⟩⟩

/-- A rejection leaves the assignments as they were. -/
theorem assignments_of_rejection (h : PrivilegedDecision c t request reason .rejected op)
    (heffect : op.Effect g) :
    (replayAll g.pending db).userRoleAssignments = db.userRoleAssignments := by
  rw [rbac_replayAll]
  obtain ⟨ws, hg, rfl | ⟨hstatus, _⟩⟩ := TenantOperation.governing_of_decision h heffect
  · rw [hg]
    rfl
  · cases hstatus

end Decided

/-! ## What a decision knows -/

structure Undisturbed (g : TxProgress) (db : Database) : Prop where
  requests : ∀ row, (requestLease row).Current g db
  entries : ∀ k, (entryLease k).Current g db
  grows : ∀ e ∈ g.history, RolesGrow e.committed db

def decisionTerms (c : AdminCall) (t request : Uuid) (status : RequestStatus) (α : Type) :
    Terms Database Write RowLock StatementName Failure α where
  rely _ := Undisturbed
  always _ _ := True
  commits _ := Decides c t request status
  returns _ _ _ := True

structure HoldsRequest (c : AdminCall) (t request : Uuid) (row : PrivilegedAccessRequest)
    (g : TxProgress) : Prop where
  undecided : Undecided c t request row
  found : (requestLease row).Found g
  role : ∃ e ∈ g.history, ∃ r ∈ e.committed.roles.rows,
    r.tenantId = row.tenantId ∧ r.roleId = row.roleId

def Assigning (c : AdminCall) (row : PrivilegedAccessRequest) (g : TxProgress) : Prop :=
  (∃ e ∈ g.history,
    e.committed.activeUserRole row.tenantId row.subjectUserId row.roleId = true) ∨
    .insertUserRoleAssignment (row.assignment c) ∈ g.pending ∧
      ∀ k ∈ Row.entries (row.assignment c), (entryLease k).Found g

section HoldsRequest

variable {c : AdminCall} {t request : Uuid} {row : PrivilegedAccessRequest} {g : TxProgress}
  {db : Database} {β : Type}

theorem HoldsRequest.ran (h : HoldsRequest c t request row g) (hdb : Undisturbed g db)
    (label : StatementName) (o : Outcome Write RowLock β) :
    HoldsRequest c t request row (g.ran label db o) := by
  refine ⟨h.undecided, h.found.ran (hdb.requests row) label o, ?_⟩
  obtain ⟨e, he, hrole⟩ := h.role
  exact ⟨e, List.mem_cons_of_mem _ he, hrole⟩

theorem Assigning.ran (h : Assigning c row g) (hdb : Undisturbed g db) (label : StatementName)
    (o : Outcome Write RowLock β) : Assigning c row (g.ran label db o) := by
  rcases h with ⟨e, he, hactive⟩ | ⟨hpending, hfree⟩
  · exact Or.inl ⟨e, List.mem_cons_of_mem _ he, hactive⟩
  · refine Or.inr ⟨List.mem_append_left _ hpending, fun k hk => ?_⟩
    exact (hfree k hk).ran (hdb.entries k) label o

theorem Assigning.assigns (h : Assigning c row g) (hheld : HoldsRequest c t request row g)
    (hdb : Undisturbed g db) : Assigns c row g db := by
  rcases h with ⟨e, he, hactive⟩ | ⟨hpending, hfree⟩
  · exact Or.inl ((hdb.grows e he).activeUserRole hactive)
  · obtain ⟨e, he, r, hr, hP⟩ := hheld.role
    refine Or.inr ⟨hpending, ⟨r, (hdb.grows e he).roles hr, hP⟩, fun k hk => ?_⟩
    exact (hfree k hk).holds (hdb.entries k)

theorem undecided_of_require (hrow : row.tenantId = t ∧ row.requestId = request)
    (h : requirePendingAndIndependent row c.actorUserId = .ok ()) : Undecided c t request row := by
  unfold requirePendingAndIndependent at h
  split at h
  · cases h
  rename_i hpending
  split at h
  · cases h
  rename_i hrequester
  split at h
  · cases h
  rename_i hsubject
  exact ⟨hrow.1, hrow.2, not_not.mp hpending, hrequester, hsubject⟩

variable {α : Type} {status : RequestStatus}

/-- The end of a decision keeps what it knows, and commits. -/
theorem recordDecision_keeps {roleKey key : String} {reason : Option String}
    (I : TxProgress → Prop) (hg : I g)
    (hstep : ∀ (g' : TxProgress) (db : Database) (label : StatementName)
      (o : Outcome Write RowLock Unit), I g' → Undisturbed g' db → I (g'.ran label db o))
    (hcommit : ∀ (g' : TxProgress) (db : Database), I g' → Undisturbed g' db →
      Decides c t request status g' db) :
    (recordDecision c t request roleKey status reason key).Keeps
      (decisionTerms c t request status PublicRequest) 0 g := by
  unfold recordDecision decideRequest
  refine keeps_execute_bind trivial ?_ fun _ _ _ _ => ⟨trivial, trivial⟩
  intro db₁ o₁ hdb₁ _
  have h₁ := hstep _ db₁ .decideRequest o₁ hg hdb₁
  refine keeps_execute_bind trivial ?_ fun _ _ _ _ => ⟨trivial, trivial⟩
  intro db₂ o₂ hdb₂ _
  have h₂ := hstep _ db₂ .audit o₂ h₁ hdb₂
  refine keeps_commitNow_bind trivial (fun db hdb => hcommit _ db h₂ hdb) ?_
  refine keeps_query_bind trivial ?_ fun _ _ _ _ => ⟨trivial, trivial⟩
  exact fun _ _ _ _ => keeps_pure trivial trivial

end HoldsRequest

theorem lockedRequest_keeps {c : AdminCall} {t request : Uuid} {status : RequestStatus} {α : Type}
    {k : RequestWithRole → Tx α} (h : ∀ (found : RequestWithRole) (g : TxProgress),
      found.row.tenantId = t ∧ found.row.requestId = request → g.pending = [] →
      (Undecided c t request found.row → HoldsRequest c t request found.row g) →
      (k found).Keeps (decisionTerms c t request status α) 0 g) :
    (lockedRequest t request >>= k).Keeps (decisionTerms c t request status α) 0 Progress.start := by
  refine keeps_execute_bind trivial ?_ fun _ _ _ _ => ⟨trivial, trivial⟩
  intro db o hdb ho
  simp only [Progress.start, replayAll_nil] at ho
  split at ho
  · cases ho
  rename_i found hfound
  cases ho
  obtain ⟨row, hrow, hrole⟩ := Option.bind_eq_some_iff.mp hfound
  obtain ⟨r, hr, rfl⟩ := Option.map_eq_some_iff.mp hrole
  have hid : row.tenantId = t ∧ row.requestId = request := by simpa using List.find?_some hrow
  have hrid : r.tenantId = row.tenantId ∧ r.roleId = row.roleId := by simpa using List.find?_some hr
  refine h _ _ hid rfl fun hopen => ⟨hopen, Lease.found_ran ?_ ?_, ?_⟩
  · simp [requestLease, hid.2]
  · exact List.mem_of_find?_eq_some hrow
  · exact ⟨_, List.mem_cons_self, r, List.mem_of_find?_eq_some hr, hrid⟩

theorem reject_keeps (c : AdminCall) (t request : Uuid) (reason : Option String) :
    (reject c t request reason).Keeps (decisionTerms c t request .rejected PublicRequest) 0
      Progress.start := by
  apply lockedRequest_keeps
  intro found g hid _ hfound
  split
  · exact keeps_raise trivial trivial
  · rename_i hok
    have hheld := hfound (undecided_of_require hid hok)
    refine recordDecision_keeps (HoldsRequest c t request found.row) hheld ?_ ?_
    · exact fun g' db label o hg' hdb => hg'.ran hdb label o
    · intro g' db hg' hdb
      exact ⟨_, hg'.found.holds (hdb.requests _), hg'.undecided, fun h => nomatch h⟩

/-- The end of an approval that has seen or made the assignment. -/
theorem recordApproval_keeps {c : AdminCall} {t request : Uuid} {row : PrivilegedAccessRequest}
    {g : TxProgress} {roleKey key : String} {reason : Option String}
    (hheld : HoldsRequest c t request row g) (hassigning : Assigning c row g) :
    (recordDecision c t request roleKey .approved reason key).Keeps
      (decisionTerms c t request .approved PublicRequest) 0 g := by
  refine recordDecision_keeps (fun g => HoldsRequest c t request row g ∧ Assigning c row g)
    ⟨hheld, hassigning⟩ ?_ ?_
  · exact fun g' db label o hg' hdb => ⟨hg'.1.ran hdb label o, hg'.2.ran hdb label o⟩
  · intro g' db hg' hdb
    exact ⟨row, hg'.1.found.holds (hdb.requests row), hg'.1.undecided,
      fun _ => hg'.2.assigns hg'.1 hdb⟩

theorem within_bumpVersions (t : Uuid) (users : List Uuid) :
    (bumpVersions t users).Within (fun _ => True) ∧ (bumpVersions t users).Only fun _ => True := by
  constructor
  · exact within_each fun u _ => within_execute fun _ _ _ _ _ => trivial
  · exact only_each fun u _ => only_execute trivial

/-- The insertion of the assignment finds its entries free and locks them. -/
theorem assign_keeps {c : AdminCall} {t request : Uuid} {row : PrivilegedAccessRequest}
    {g : TxProgress} {α : Type} {k : Unit → Tx α} (hheld : HoldsRequest c t request row g)
    (hpending : g.pending = []) (hk : ∀ g', HoldsRequest c t request row g' → Assigning c row g' →
      (k ()).Keeps (decisionTerms c t request .approved α) 0 g') :
    (insertUserRole c t row.subjectUserId row.roleId row.requestedByUserId >>= fun _ =>
      bumpVersions t [row.subjectUserId] >>= k).Keeps (decisionTerms c t request .approved α) 0 g := by
  refine keeps_execute_bind trivial ?_ fun _ _ _ _ => ⟨trivial, trivial⟩
  intro db o hdb ho
  rw [hpending, replayAll_nil] at ho
  obtain ⟨hunique, _, hedits⟩ := insertRow_ok ho
  have hrow : row.assignment c = userRoleRow c t row.subjectUserId row.roleId row.requestedByUserId := by
    rw [PrivilegedAccessRequest.assignment, hheld.undecided.tenant]
  have hassigning : Assigning c row (g.ran .insertUserRole db o) := by
    refine Or.inr ⟨?_, fun k hk => ?_⟩
    · have hmem : .insertUserRoleAssignment (row.assignment c) ∈ o.edits := by
        rw [hedits, hrow]
        exact List.mem_cons_self
      exact List.mem_append_right _ hmem
    · rw [hrow] at hk
      refine Lease.found_ran (insertRow_locks ho hk) ?_
      exact Table.isSome_insert?_iff_taken.mp hunique k hk
  obtain ⟨hwithin, honly⟩ := within_bumpVersions t [row.subjectUserId]
  refine keeps_within_bind (fun g => HoldsRequest c t request row g ∧ Assigning c row g) hwithin honly
    ⟨hheld.ran hdb _ o, hassigning⟩ ?_ (fun _ _ _ _ _ => trivial) ?_ fun _ _ _ _ _ _ => trivial
  · exact fun g' db label o hg' hdb => ⟨hg'.1.ran hdb label o, hg'.2.ran hdb label o⟩
  · exact fun _ _ g' hg' _ _ => hk g' hg'.1 hg'.2

theorem approve_keeps (c : AdminCall) (t request : Uuid) (reason : Option String) :
    (approve c t request reason).Keeps (decisionTerms c t request .approved PublicRequest) 0
      Progress.start := by
  apply lockedRequest_keeps
  intro found g hid hpending hfound
  split
  · exact keeps_raise trivial trivial
  rename_i hok
  have hheld := hfound (undecided_of_require hid hok)
  refine keeps_query_bind trivial ?_ fun _ _ _ _ => ⟨trivial, trivial⟩
  intro db₁ active hdb₁ _
  have h₁ := hheld.ran (β := Unit) hdb₁ .activeMembership ⟨(), [], []⟩
  rw [Progress.ran_value] at h₁
  split
  · exact keeps_raise trivial trivial
  refine keeps_query_bind trivial ?_ fun _ _ _ _ => ⟨trivial, trivial⟩
  intro db₂ activeRole hdb₂ _
  have h₂ := h₁.ran (β := Unit) hdb₂ .activeRole ⟨(), [], []⟩
  rw [Progress.ran_value] at h₂
  split
  · exact keeps_raise trivial trivial
  refine keeps_query_bind trivial ?_ fun _ _ _ _ => ⟨trivial, trivial⟩
  intro db₃ assigned hdb₃ hassigned
  have h₃ := h₂.ran (β := Unit) hdb₃ .existingUserRole ⟨(), [], []⟩
  rw [Progress.ran_value] at h₃
  split
  · rename_i hactive
    refine recordApproval_keeps h₃ (Or.inl ⟨_, List.mem_cons_self, ?_⟩)
    simp only [Progress.failed, hpending, replayAll_nil, Except.ok.injEq] at hassigned
    rw [hid.1, hassigned]
    exact hactive
  · exact assign_keeps h₃ hpending fun g' hg' hassigning => recordApproval_keeps hg' hassigning

/-! ## Overlapping requests and decisions -/

def lifecycleTerms (ops : List TenantOperation) (i : Nat) :
    Terms Database Write RowLock StatementName Failure Unit where
  rely _ := Undisturbed
  always _ _ := True
  commits _ g db := ∀ op, ops[i]? = some op → ∀ c t request reason status,
    PrivilegedDecision c t request reason status op → Decides c t request status g db
  returns _ _ _ := True

theorem discard_keeps {c : AdminCall} {t request : Uuid} {reason : Option String}
    {status : RequestStatus} {ops : List TenantOperation} {op : TenantOperation} {i : Nat}
    (hop : ops[i]? = some op) (hdecision : PrivilegedDecision c t request reason status op)
    {α : Type} {p : Tx α} (h : p.Keeps (decisionTerms c t request status α) 0 Progress.start) :
    (discard p).Keeps (lifecycleTerms ops i) 0 Progress.start := by
  refine keeps_bind (h.weaken (fun _ _ _ hdb => hdb) (fun _ _ ha => ha) ?_ ?_)
  · intro _ g db _ _ hdecides op' hop' c' t' request' reason' status' hdecision'
    obtain rfl : op = op' := Option.some.inj (hop.symm.trans hop')
    cases hdecision <;> cases hdecision' <;> exact hdecides
  · intro r n g _ _
    cases r with
    | ok a => exact keeps_pure trivial trivial
    | error e => trivial

theorem operation_keeps {ops : List TenantOperation} {i : Nat} {op : TenantOperation}
    (hop : ops[i]? = some op) : op.program.Keeps (lifecycleTerms ops i) 0 Progress.start := by
  by_cases h : ∃ c t request reason status, PrivilegedDecision c t request reason status op
  · obtain ⟨c, t, request, reason, status, hdecision⟩ := h
    cases hdecision with
    | approve => exact discard_keeps hop .approve (approve_keeps c t request reason)
    | reject => exact discard_keeps hop .reject (reject_keeps c t request reason)
  · refine Keeps.of_forall (fun _ _ => trivial) ?_ (fun _ _ _ => trivial) _ _ _
    intro n g db op' hop' c t request reason status hdecision
    obtain rfl : op = op' := Option.some.inj (hop.symm.trans hop')
    exact absurd ⟨c, t, request, reason, status, hdecision⟩ h

structure Guarded (ops : List TenantOperation) (s : TxState Unit) : Prop where
  upholds : s.Upholds (TenantOperation.contract ops)
  locking : s.Protected roleProtocol RowLock.conflicts
  requests : ∀ row (j : Nat) (c : Call Database Write RowLock StatementName Failure Unit),
    s.calls[j]? = some c → c.finished = false → (requestLease row).Current c.progress s.committed
  entries : ∀ k (j : Nat) (c : Call Database Write RowLock StatementName Failure Unit),
    s.calls[j]? = some c → c.finished = false → (entryLease k).Current c.progress s.committed
  grows : s.Since RolesGrow

theorem guarded_initial (ops : List TenantOperation) (db : Database) :
    Guarded ops (TenantOperation.overlapping ops db) where
  upholds := TenantOperation.upholds_overlapping ops db
  locking := TenantOperation.protected_overlapping ops db
  requests row := Lease.current_initial (requestLease row) db _
  entries k := Lease.current_initial (entryLease k) db _
  grows := State.since_initial RolesGrow db _

theorem Guarded.undisturbed {ops : List TenantOperation} {s : TxState Unit} (h : Guarded ops s)
    {i : Nat} {c : Call Database Write RowLock StatementName Failure Unit}
    (hc : s.calls[i]? = some c) (hunfinished : c.finished = false) :
    Undisturbed c.progress s.committed :=
  ⟨fun row => h.requests row i c hc hunfinished, fun k => h.entries k i c hc hunfinished,
    h.grows i c hc⟩

section Runs

variable {ops : List TenantOperation} {s s' : TxState Unit} {i : Nat}

theorem Guarded.step (hops : ∀ op ∈ ops, op.OfPrivilegedAccess) (h : Guarded ops s)
    (hstep : s.step RowLock.conflicts i = some s') : Guarded ops s' where
  upholds := h.upholds.step hstep
  locking := h.locking.step RowLock.conflicts_comm roleProtocol_stable hstep
  requests row := Lease.current_step (requestLease_respects row) h.locking (h.requests row) hstep
  entries k := Lease.current_step (entryLease_respects k) h.locking (h.entries k) hstep
  grows := by
    refine h.grows.step (fun _ _ _ h k => RolesGrow.trans h k) ?_ hstep
    rcases h.upholds.committed hstep with hsame | ⟨c, _, _, _, ⟨op, hop, heffect⟩, hcommitted⟩
    · rw [hsame]
      exact RolesGrow.refl _
    · rw [hcommitted]
      exact rolesGrow_commit (hops op (List.mem_of_getElem? hop)) heffect _

/-- A step leaves the committed rows alone, or commits the effect of its operation; a
decision has then found what it has to. -/
theorem Guarded.committed {order : List Nat} (h : Guarded ops s)
    (hkeeps : s.Keeps (lifecycleTerms ops) order) (hstep : s.step RowLock.conflicts i = some s') :
    (s.commitsNext i = false ∧ s'.committed = s.committed) ∨ ∃ op g, ops[i]? = some op ∧
      op.Effect g ∧ (∀ c t request reason status, PrivilegedDecision c t request reason status op →
        Decides c t request status g s.committed) ∧
      s'.committed = replayAll g.pending s.committed := by
  rcases hkeeps.committed (fun c hc hunfinished => h.undisturbed hc hunfinished) hstep with
    hsame | ⟨c, hc, _, hcommit, _, hterms, hcommitted⟩
  · exact Or.inl hsame
  · obtain ⟨d, d', hd, ha, _⟩ := State.step_cases hstep
    obtain rfl : c = d := Option.some.inj (hc.symm.trans hd)
    obtain ⟨op, hop, heffect⟩ := ((h.upholds i c hc).advance ha).2 hcommit
    exact Or.inr ⟨op, c.progress, hop, heffect, hterms op hop, hcommitted⟩

theorem guarded_of_reaches (hops : ∀ op ∈ ops, op.OfPrivilegedAccess) {db : Database}
    (hreach : State.Reaches RowLock.conflicts (fun _ _ => True)
      (TenantOperation.overlapping ops db) s) :
    ∃ order, s.Keeps (lifecycleTerms ops) order ∧ Guarded ops s := by
  have hinitial : (TenantOperation.overlapping ops db).Keeps (lifecycleTerms ops) [] := by
    apply State.keeps_initial
    intro i p hp
    rw [List.getElem?_map] at hp
    obtain ⟨op, hop, rfl⟩ := Option.map_eq_some_iff.mp hp
    exact operation_keeps hop
  have hrely : ∀ (order : List Nat) (s : TxState Unit) (i : Nat), s.Keeps (lifecycleTerms ops) order →
      (fun _ => Guarded ops) order s → True →
        ∀ c : Call Database Write RowLock StatementName Failure Unit, s.calls[i]? = some c →
          c.finished = false → (lifecycleTerms ops i).rely (order.count i) c.progress s.committed :=
    fun _ _ _ _ h _ c hc hunfinished => h.undisturbed hc hunfinished
  have hstep : ∀ (order : List Nat) (s t : TxState Unit) (i : Nat),
      s.Keeps (lifecycleTerms ops) order → (fun _ => Guarded ops) order s → True →
        s.step RowLock.conflicts i = some t → (fun _ => Guarded ops) (s.orderAfter i order) t :=
    fun _ _ _ _ _ h _ hstep => h.step hops hstep
  exact State.Reaches.keeps hrely hstep hinitial (guarded_initial ops db) hreach

/-- A request that has been decided stays as it is. -/
theorem settled_step (hops : ∀ op ∈ ops, op.OfPrivilegedAccess) {order : List Nat}
    (h : Guarded ops s) (hkeeps : s.Keeps (lifecycleTerms ops) order)
    (hstep : s.step RowLock.conflicts i = some s') {row : PrivilegedAccessRequest}
    (hrow : row ∈ s.committed.privilegedAccessRequests.rows) (hstatus : row.status ≠ .pending) :
    row ∈ s'.committed.privilegedAccessRequests.rows := by
  rcases h.committed hkeeps hstep with ⟨_, hsame⟩ | ⟨op, g, hop, heffect, hdecides, hcommitted⟩
  · rwa [hsame]
  rw [hcommitted, requests_governing]
  rcases op.governing_cases (hops op (List.mem_of_getElem? hop)) heffect with
    ⟨request, hg⟩ | ⟨assignment, hg⟩ | ⟨c, t, request, reason, status, hdecision⟩
  · rw [hg]
    exact Table.mem_insert_of_mem hrow
  · rw [hg]
    exact hrow
  · rw [← requests_governing]
    obtain ⟨own, hown, hopen, _⟩ := hdecides c t request reason status hdecision
    exact settled_of_decision hdecision heffect hown hopen hrow hstatus

theorem settled_of_reaches (hops : ∀ op ∈ ops, op.OfPrivilegedAccess) {db : Database}
    (hreach : State.Reaches RowLock.conflicts (fun _ _ => True)
      (TenantOperation.overlapping ops db) s)
    (hlater : State.Reaches RowLock.conflicts (fun _ _ => True) s s') {row : PrivilegedAccessRequest}
    (hrow : row ∈ s.committed.privilegedAccessRequests.rows) (hstatus : row.status ≠ .pending) :
    row ∈ s'.committed.privilegedAccessRequests.rows := by
  induction hlater with
  | refl => exact hrow
  | step hreach' _ hstep ih =>
    obtain ⟨order, hkeeps, h⟩ := guarded_of_reaches hops (hreach.trans hreach')
    exact settled_step hops h hkeeps hstep ih hstatus

end Runs

/-- At most one request for a role is pending, and whoever has approved one is independent. -/
structure SoundRequests (db : Database) : Prop where
  pending : ∀ t u r, (db.privilegedAccessRequests.rows.filter fun row => decide (row.tenantId = t ∧
    row.subjectUserId = u ∧ row.roleId = r ∧ row.status = .pending)).length ≤ 1
  approved : ∀ row ∈ db.privilegedAccessRequests.rows, row.status = .approved →
    ∀ a ∈ row.approvedByUserId, a ≠ row.requestedByUserId ∧ a ≠ row.subjectUserId

theorem soundRequests (db : Database) : SoundRequests db := by
  constructor
  · intro t u r
    apply Table.length_filter_le_one (Index.pending, [t, u, r])
    intro row hrow
    obtain ⟨ht, hu, hr, hs⟩ := of_decide_eq_true hrow
    simp [Row.entries, ht, hu, hr, hs]
  · intro row _ _ a ha
    exact (row.independent a ha).symm

/-- What the commit of a decision does: it finds its request pending, decides it in the name of
an independent actor, and assigns the role once or leaves all assignments alone. -/
structure DecidedRequest (c : AdminCall) (t request : Uuid) (status : RequestStatus)
    (before after : Database) : Prop where
  decides : ∃ row ∈ before.privilegedAccessRequests.rows, Undecided c t request row ∧
    (status = .approved →
      (after.activeAssignments row.tenantId row.subjectUserId row.roleId).length = 1)
  decided : ∃ row ∈ after.privilegedAccessRequests.rows, row.requestId = request ∧
    row.status = status ∧ row.approvedByUserId = some c.actorUserId ∧ row.decidedAt = some c.now
  rejected : status = .rejected → after.userRoleAssignments = before.userRoleAssignments

theorem decidedRequest_of_decides {c : AdminCall} {t request : Uuid} {reason : Option String}
    {status : RequestStatus} {op : TenantOperation} {g : TxProgress} {db : Database}
    (h : PrivilegedDecision c t request reason status op) (heffect : op.Effect g)
    (hdecides : Decides c t request status g db) :
    DecidedRequest c t request status db (replayAll g.pending db) := by
  obtain ⟨row, hrow, hopen, hassigns⟩ := hdecides
  constructor
  · refine ⟨row, hrow, hopen, fun happroved => length_activeAssignments ?_⟩
    exact assigned_of_approval h heffect (hassigns happroved)
  · exact decided_of_decision h heffect hrow hopen
  · rintro rfl
    exact assignments_of_rejection h heffect

/-- However requests, approvals and rejections overlap, the requests are sound, decided requests
stay as they are, and every decision is about a pending request. -/
theorem privileged_requests_lifecycle (ops : List TenantOperation)
    (hops : ∀ op ∈ ops, op.OfPrivilegedAccess) (db : Database) {s : TxState Unit}
    (hreach : State.Reaches RowLock.conflicts (fun _ _ => True)
      (TenantOperation.overlapping ops db) s) :
    SoundRequests s.committed ∧
    (∀ s' : TxState Unit, State.Reaches RowLock.conflicts (fun _ _ => True) s s' →
      ∀ row ∈ s.committed.privilegedAccessRequests.rows, row.status ≠ .pending →
        row ∈ s'.committed.privilegedAccessRequests.rows) ∧
    ∀ (i : Nat) (s' : TxState Unit), s.step RowLock.conflicts i = some s' → s.commitsNext i = true →
      ∀ op, ops[i]? = some op → ∀ c t request reason status,
        PrivilegedDecision c t request reason status op →
          DecidedRequest c t request status s.committed s'.committed := by
  refine ⟨soundRequests _, ?_, ?_⟩
  · exact fun s' hlater row hrow hstatus => settled_of_reaches hops hreach hlater hrow hstatus
  · intro i s' hstep hcommits op hop c t request reason status hdecision
    obtain ⟨order, hkeeps, h⟩ := guarded_of_reaches hops hreach
    rcases h.committed hkeeps hstep with ⟨hnot, _⟩ | ⟨op', g, hop', heffect, hdecides, hcommitted⟩
    · rw [hnot] at hcommits
      cases hcommits
    · obtain rfl : op = op' := Option.some.inj (hop.symm.trans hop')
      rw [hcommitted]
      exact decidedRequest_of_decides hdecision heffect
        (hdecides c t request reason status hdecision)

/-- One person requests the owner role for a user; two others decide about it at once. -/
def contestedRequest : List TenantOperation :=
  [.assignUserRole ⟨"admin", "first", 0, "request", "audit-1"⟩ 0 "tenant" "user" "owner",
    .approve ⟨"checker", "second", 1, "assignment", "audit-2"⟩ "tenant" "request" none,
    .reject ⟨"checker", "third", 2, "", "audit-3"⟩ "tenant" "request" none]

/-- The approval commits with one assignment, and the rejection then finds nothing pending. -/
theorem contested_request_is_approved_once : ∃ s s' : TxState Unit,
    DecidedRequest ⟨"checker", "second", 1, "assignment", "audit-2"⟩ "tenant" "request" .approved
      s.committed s'.committed ∧
    ((s'.run RowLock.conflicts [2]).bind fun t => t.calls[2]?.map (·.finished)) = some true := by
  have hrun : (((TenantOperation.overlapping contestedRequest ownerDatabase).run RowLock.conflicts
      [0, 0, 0, 0, 0, 0, 0, 1, 1, 1, 1, 1, 1, 1, 1]).bind fun s =>
        (s.step RowLock.conflicts 1).map fun s' => s.commitsNext 1 &&
          ((s'.run RowLock.conflicts [2]).bind fun t => t.calls[2]?.map (·.finished)) = some true) =
      some true := by
    decide +kernel
  obtain ⟨s, hs, hrest⟩ := Option.bind_eq_some_iff.mp hrun
  obtain ⟨s', hstep, hchecks⟩ := Option.map_eq_some_iff.mp hrest
  rw [Bool.and_eq_true, decide_eq_true_eq] at hchecks
  have hmeets : (TenantOperation.overlapping contestedRequest ownerDatabase).Meets RowLock.conflicts
      (fun _ _ => True) ([0, 0, 0, 0, 0, 0, 0, 1, 1, 1, 1, 1, 1, 1, 1] ++ []) := State.meets_true _ _
  obtain ⟨hreach, _⟩ := State.reaches_of_run hmeets hs
  have hops : ∀ op ∈ contestedRequest, op.OfPrivilegedAccess := by
    simp [contestedRequest, TenantOperation.OfPrivilegedAccess]
  obtain ⟨_, _, hcommit⟩ := privileged_requests_lifecycle contestedRequest hops ownerDatabase hreach
  exact ⟨s, s', hcommit 1 s' hstep hchecks.1 _ rfl _ _ _ _ _ .approve, hchecks.2⟩

end VerigenceSecurity
