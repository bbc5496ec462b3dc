import VerigenceSecurity.CatalogRuns
import VerigenceSecurity.DelegationChain

/-! # The gate of the client-credentials grant

A machine client gets a token exactly when the rows say that it may, and the token,
the session and its evidence then say the same. A refused request leaves no row behind.
-/

namespace VerigenceSecurity
set_option autoImplicit false

open Transaction Relational Program

/-! ## The conditions of the grant -/

def Database.Granted (db : Database) (principalId tenantId : Uuid) (p : String) : Prop :=
  (∃ grant ∈ db.principalPermissionGrants.rows, grant.principalId = principalId ∧
    grant.tenantId = tenantId ∧ grant.permissionKey = p ∧ grant.status = .active) ∧
  db.PermissionActive p

def Database.InScope (db : Database) (principalId tenantId : Uuid) (now : Instant) : Prop :=
  ∃ scope ∈ db.principalTenantScopes.rows, scope.principalId = principalId ∧
    scope.tenantId = tenantId ∧ scope.status = .active ∧
      validAt scope.validFrom scope.validTo now = true

structure Identifies (db : Database) (clientId : String) (now : Instant)
    (credential : PrincipalCredential) (principal : SecurityPrincipal) : Prop where
  credentialRow : credential ∈ db.principalCredentials.rows
  clientId : credential.clientId = clientId
  credentialActive : credential.status = .active
  validFrom : credential.validFrom ≤ now
  validTo : ∀ t ∈ credential.validTo, now < t
  principalRow : principal ∈ db.securityPrincipals.rows
  principalId : principal.principalId = credential.principalId
  principalActive : principal.status = .active
  machine : principal.actorType = .system ∨ principal.actorType = .serviceIntegration

/-- What the request has to meet. The empty permissions of a request do not count. -/
structure MachineGate (rt : MachineRuntime) (db : Database) (now : Instant)
    (request : MachineTokenRequest) (credential : PrincipalCredential)
    (principal : SecurityPrincipal) (policy : TenantSecurityPolicy) : Prop where
  identifies : Identifies db request.clientId now credential principal
  verifier : rt.lower (strip credential.secretHash) = rt.sha256Hex request.clientSecret
  tenant : ∃ tenant ∈ db.tenants.rows, tenant.tenantId = request.tenantId ∧ tenant.status = .active
  policyRow : policy ∈ db.tenantSecurityPolicies.rows
  policyTenant : policy.tenantId = request.tenantId
  policyActive : policy.status = .active
  scope : db.InScope principal.principalId request.tenantId now
  requested : ∃ p ∈ request.requestedPermissions, p ≠ ""
  granted : ∀ p ∈ request.requestedPermissions, p ≠ "" → isCanonicalPermission p = true ∧
    db.Granted principal.principalId request.tenantId p

/-! ## The reads of the gate -/

def PrincipalCredential.of (credential : PrincipalCredential) (principal : SecurityPrincipal) :
    MachineCredential :=
  ⟨principal.principalId, principal.actorType, credential.credentialId, credential.clientId,
    credential.secretHash⟩

section Reads

variable {rt : MachineRuntime} {db : Database} {now : Instant}

theorem head?_of_only {α : Type} {xs : List α} {a : α} (ha : a ∈ xs) (honly : ∀ b ∈ xs, b = a) :
    xs.head? = some a := by
  cases xs with
  | nil => cases ha
  | cons b rest =>
    rw [honly b List.mem_cons_self]
    rfl

/-- The client id and the principal id tell the rows of the join apart. -/
theorem machineCredential_eq_ok_iff {clientId : String} {found : MachineCredential} :
    db.machineCredential clientId now = .ok found ↔
      ∃ credential principal, Identifies db clientId now credential principal ∧
        found = credential.of principal := by
  unfold Database.machineCredential
  constructor
  · intro h
    dsimp only at h
    split at h
    · cases h
    rename_i credential principal hhead
    split at h
    · cases h
    rename_i hactive
    split at h
    · cases h
    rename_i hmachine
    split at h
    · cases h
    rename_i hexpired
    split at h
    · cases h
    rename_i hvalid
    cases h
    have hmem := List.mem_of_mem_head? hhead
    simp only [List.mem_flatMap, List.mem_map, List.mem_filter, decide_eq_true_eq] at hmem
    obtain ⟨c, ⟨hc, hclient⟩, p, ⟨hp, hsame⟩, heq⟩ := hmem
    cases heq
    obtain ⟨_, hto⟩ := not_or.mp hexpired
    obtain ⟨hstatus, hfrom⟩ := not_or.mp hvalid
    refine ⟨credential, principal, ⟨hc, hclient, not_not.mp hstatus, Int.not_lt.mp hfrom, ?_, hp,
      hsame, not_not.mp hactive, ?_⟩, rfl⟩
    · intro t ht
      rw [ht] at hto
      simpa using hto
    · cases htype : principal.actorType with
      | user => exact absurd htype hmachine
      | system => exact Or.inl rfl
      | serviceIntegration => exact Or.inr rfl
  · rintro ⟨credential, principal, h, rfl⟩
    have hhead : ((db.principalCredentials.rows.filter fun c => decide (c.clientId = clientId)).flatMap
        fun c => (db.securityPrincipals.rows.filter fun p =>
          decide (p.principalId = c.principalId)).map fun p => (c, p)).head? =
        some (credential, principal) := by
      apply head?_of_only
      · simp only [List.mem_flatMap, List.mem_map, List.mem_filter, decide_eq_true_eq]
        exact ⟨credential, ⟨h.credentialRow, h.clientId⟩, principal,
          ⟨h.principalRow, h.principalId⟩, rfl⟩
      · rintro ⟨c, p⟩ hmem
        simp only [List.mem_flatMap, List.mem_map, List.mem_filter, decide_eq_true_eq] at hmem
        obtain ⟨c', ⟨hc, hclient⟩, p', ⟨hp, hsame⟩, heq⟩ := hmem
        cases heq
        have hcredential : c = credential := by
          apply db.principalCredentials.shared_entry hc h.credentialRow
            (k := (Index.natural, [clientId]))
          · simp [Row.entries, hclient]
          · simp [Row.entries, h.clientId]
        subst hcredential
        have hprincipal : p = principal := by
          apply db.securityPrincipals.shared_entry hp h.principalRow
            (k := (Index.primary, [c.principalId]))
          · simp [Row.entries, hsame]
          · simp [Row.entries, h.principalId]
        rw [hprincipal]
    have hmachine : principal.actorType ≠ .user := by
      rcases h.machine with hm | hm <;> rw [hm] <;> decide
    have hto : credential.validTo.any (fun t => decide (t ≤ now)) = false := by
      cases hto : credential.validTo with
      | none => rfl
      | some t =>
        have hlt := h.validTo t hto
        simpa using hlt
    have hfrom : ¬ now < credential.validFrom := Int.not_lt.mpr h.validFrom
    simp only [hhead, h.principalActive, hmachine, h.credentialActive, hto, hfrom]
    simp
    rfl

theorem authenticateCredential_eq_ok_iff (hdigest : ∀ s, isHexDigest (rt.sha256Hex s) = true)
    {clientId secret : String} {found : MachineCredential} :
    authenticateCredential rt clientId secret now db = .ok found ↔
      ∃ credential principal, Identifies db clientId now credential principal ∧
        rt.lower (strip credential.secretHash) = rt.sha256Hex secret ∧
          found = credential.of principal := by
  constructor
  · intro h
    obtain ⟨credential, principal, hid, rfl⟩ := machineCredential_eq_ok_iff.mp (authenticate_ok h)
    refine ⟨credential, principal, hid, ?_, rfl⟩
    unfold authenticateCredential at h
    rw [authenticate_ok h] at h
    change (if _ then _ else Except.ok _) = Except.ok _ at h
    split at h
    · cases h
    · rename_i hmatch
      exact not_not.mp (not_or.mp hmatch).2
  · rintro ⟨credential, principal, hid, hverifier, rfl⟩
    unfold authenticateCredential
    rw [machineCredential_eq_ok_iff.mpr ⟨credential, principal, hid, rfl⟩]
    change (if isHexDigest (rt.lower (strip credential.secretHash)) = false ∨
      rt.lower (strip credential.secretHash) ≠ rt.sha256Hex secret then _ else Except.ok _) = _
    rw [hverifier, if_neg]
    simp [hdigest]

theorem requireActiveTenant_exec_ok_iff {tenantId : Uuid} {s t : Session Database} {u : Unit} :
    (requireActiveTenant tenantId).exec s = (.ok u, t) ↔
      (∃ tenant ∈ s.view.tenants.rows, tenant.tenantId = tenantId ∧ tenant.status = .active) ∧
        t = s := by
  unfold requireActiveTenant
  rw [exec_query, Prod.mk.injEq]
  refine and_congr ?_ eq_comm
  unfold Database.tenantStatus
  cases hfind : s.view.tenants.rows.find? fun r => decide (r.tenantId = tenantId) with
  | none =>
    constructor
    · intro h
      cases h
    · rintro ⟨tenant, hrow, hid, _⟩
      exact absurd (decide_eq_true hid) (List.find?_eq_none.mp hfind tenant hrow)
  | some row =>
    have hmem := List.mem_of_find?_eq_some hfind
    have hkey := List.find?_some hfind
    have hid := of_decide_eq_true hkey
    have hactive : (∃ tenant ∈ s.view.tenants.rows, tenant.tenantId = tenantId ∧
        tenant.status = .active) ↔ row.status = .active := by
      constructor
      · rintro ⟨tenant, hrow, htenant, hstatus⟩
        have hsame : tenant = row := by
          apply s.view.tenants.shared_entry hrow hmem (k := (Index.primary, [tenantId]))
          · simp [Row.entries, htenant]
          · simp [Row.entries, hid]
        rwa [← hsame]
      · exact fun h => ⟨row, hmem, hid, h⟩
    rw [hactive]
    dsimp only
    cases hstatus : row.status with
    | active => exact iff_of_true rfl rfl
    | _ =>
      constructor
      all_goals
        intro h
        cases h

theorem tenantPolicy_eq_ok_iff {tenantId : Uuid} {policy : TenantSecurityPolicy} :
    db.tenantPolicy tenantId = .ok policy ↔ policy ∈ db.tenantSecurityPolicies.rows ∧
      policy.tenantId = tenantId ∧ policy.status = .active := by
  unfold Database.tenantPolicy
  cases hfind : db.tenantSecurityPolicies.rows.find? fun r => decide (r.tenantId = tenantId) with
  | none =>
    constructor
    · intro h
      cases h
    · rintro ⟨hrow, hid, _⟩
      exact absurd (decide_eq_true hid) (List.find?_eq_none.mp hfind policy hrow)
  | some row =>
    have hmem := List.mem_of_find?_eq_some hfind
    have hkey := List.find?_some hfind
    have hid := of_decide_eq_true hkey
    dsimp only
    constructor
    · intro h
      split at h
      · cases h
      · rename_i hactive
        cases h
        exact ⟨hmem, hid, not_not.mp hactive⟩
    · rintro ⟨hrow, htenant, hactive⟩
      have hsame : row = policy := by
        apply db.tenantSecurityPolicies.shared_entry hmem hrow (k := (Index.primary, [tenantId]))
        · simp [Row.entries, hid]
        · simp [Row.entries, htenant]
      subst hsame
      rw [if_neg (not_not.mpr hactive)]

theorem machinePermissions_eq_ok {principalId tenantId : Uuid} (h : db.InScope principalId tenantId now) :
    ∃ permissions, db.machinePermissions principalId tenantId now = .ok permissions := by
  obtain ⟨scope, hrow, hprincipal, htenant, hactive, hvalid⟩ := h
  unfold Database.machinePermissions
  rw [if_pos]
  · exact ⟨_, rfl⟩
  · rw [List.any_eq_true]
    exact ⟨scope, hrow, by simp [hprincipal, htenant, hactive, hvalid]⟩

theorem machinePermissions_ok {principalId tenantId : Uuid} {permissions : List String}
    (h : db.machinePermissions principalId tenantId now = .ok permissions) :
    db.InScope principalId tenantId now ∧ ∀ p, p ∈ permissions ↔ db.Granted principalId tenantId p := by
  unfold Database.machinePermissions at h
  split at h
  · rename_i hscope
    cases h
    obtain ⟨scope, hrow, hP⟩ := List.any_eq_true.mp hscope
    simp only [Bool.and_eq_true, decide_eq_true_eq] at hP
    obtain ⟨⟨hprincipal, htenant, hactive⟩, hvalid⟩ := hP
    refine ⟨⟨scope, hrow, hprincipal, htenant, hactive, hvalid⟩, fun p => ?_⟩
    rw [mem_sortedSet]
    simp only [List.mem_flatMap, List.mem_map, List.mem_filter, decide_eq_true_eq]
    constructor
    · rintro ⟨grant, ⟨hgrant, hgp, hgt, hgs⟩, permission, ⟨hpermission, hkey, hstatus⟩, rfl⟩
      exact ⟨⟨grant, hgrant, hgp, hgt, hkey.symm, hgs⟩, permission, hpermission, rfl, hstatus⟩
    · rintro ⟨⟨grant, hgrant, hgp, hgt, hgk, hgs⟩, permission, hpermission, rfl, hstatus⟩
      exact ⟨grant, ⟨hgrant, hgp, hgt, hgs⟩, permission, ⟨hpermission, hgk.symm, hstatus⟩, rfl⟩
  · cases h

/-- The requested permissions that count, in order and once each. -/
def wantedPermissions (requested : List String) : List String :=
  sortedSet (requested.filter fun p => decide (p ≠ ""))

theorem mem_wantedPermissions {requested : List String} {p : String} :
    p ∈ wantedPermissions requested ↔ p ∈ requested ∧ p ≠ "" := by
  simp [wantedPermissions]

theorem requestedPermissions_eq_ok_iff {requested wanted : List String} :
    requestedPermissions requested = .ok wanted ↔ (∃ p ∈ requested, p ≠ "") ∧
      (∀ p ∈ requested, p ≠ "" → isCanonicalPermission p = true) ∧
        wanted = wantedPermissions requested := by
  have hpresent : requested.filter (fun p => decide (p ≠ "")) = [] ↔ ¬ ∃ p ∈ requested, p ≠ "" := by
    simp [List.filter_eq_nil_iff]
  have hcanonical : (∀ p ∈ requested.filter (fun p => decide (p ≠ "")),
      isCanonicalPermission p = true) ↔
        ∀ p ∈ requested, p ≠ "" → isCanonicalPermission p = true := by
    simp
  unfold requestedPermissions wantedPermissions
  dsimp only
  split
  · rename_i hnone
    constructor
    · intro h
      cases h
    · rintro ⟨hsome, _⟩
      exact absurd hsome (hpresent.mp hnone)
  · rename_i hsome
    rw [hpresent, not_not] at hsome
    rw [validatePermissions_eq_ok_iff, hcanonical]
    constructor
    · exact fun h => ⟨hsome, h⟩
    · exact fun h => h.2

/-- The permissions of the gate, where every stored permission key is canonical. -/
theorem authorizedPermissions_exec_ok_iff {credential : MachineCredential} {tenantId : Uuid}
    {requested wanted : List String} {s t : Session Database}
    (hkeys : ∀ p ∈ s.view.permissions.rows, isCanonicalPermission p.permissionKey = true) :
    (authorizedPermissions credential tenantId requested now).exec s = (.ok wanted, t) ↔
      (s.view.InScope credential.principalId tenantId now ∧ (∃ p ∈ requested, p ≠ "") ∧
        ∀ p ∈ requested, p ≠ "" → isCanonicalPermission p = true ∧
          s.view.Granted credential.principalId tenantId p) ∧
      wanted = wantedPermissions requested ∧ t = s := by
  have hallowed : ∀ permissions,
      s.view.machinePermissions credential.principalId tenantId now = .ok permissions →
      validatePermissions permissions = .ok (sortedSet permissions) := by
    intro permissions hpermissions
    apply validatePermissions_eq_ok_iff.mpr ⟨?_, rfl⟩
    intro p hp
    obtain ⟨_, permission, hrow, rfl, _⟩ := ((machinePermissions_ok hpermissions).2 p).mp hp
    exact hkeys permission hrow
  unfold authorizedPermissions
  constructor
  · intro h
    obtain ⟨wanted', _, hrun₁, hrest₁⟩ := exec_bind_ok h
    obtain ⟨hwanted, rfl⟩ := exec_done_ok hrun₁
    obtain ⟨permissions, _, hrun₂, hrest₂⟩ := exec_bind_ok hrest₁
    obtain ⟨hpermissions, rfl⟩ := exec_query_ok hrun₂
    obtain ⟨allowed, _, hrun₃, hrest⟩ := exec_bind_ok hrest₂
    obtain ⟨hvalid, rfl⟩ := exec_done_ok hrun₃
    rw [hallowed permissions hpermissions] at hvalid
    cases hvalid
    obtain ⟨hsome, hcanonical, rfl⟩ := requestedPermissions_eq_ok_iff.mp hwanted
    obtain ⟨hscope, hmembers⟩ := machinePermissions_ok hpermissions
    split at hrest
    · rename_i hall
      cases hrest
      rw [List.all_eq_true] at hall
      refine ⟨⟨hscope, hsome, fun p hp hne => ⟨hcanonical p hp hne, ?_⟩⟩, rfl, rfl⟩
      have hp' := of_decide_eq_true (hall p (mem_wantedPermissions.mpr ⟨hp, hne⟩))
      rw [mem_sortedSet] at hp'
      exact (hmembers p).mp hp'
    · cases hrest
  · rintro ⟨⟨hscope, hsome, hall⟩, rfl, rfl⟩
    have hwanted := requestedPermissions_eq_ok_iff.mpr
      ⟨hsome, fun p hp hne => (hall p hp hne).1, rfl⟩
    obtain ⟨permissions, hpermissions⟩ := machinePermissions_eq_ok hscope
    obtain ⟨_, hmembers⟩ := machinePermissions_ok hpermissions
    refine exec_bind_ok_iff.mpr ⟨_, t, congrArg (·, t) hwanted, ?_⟩
    refine exec_bind_ok_iff.mpr ⟨permissions, t, ?_, ?_⟩
    · rw [exec_query, hpermissions]
    refine exec_bind_ok_iff.mpr ⟨_, t, congrArg (·, t) (hallowed permissions hpermissions), ?_⟩
    rw [if_pos]
    · rfl
    · rw [List.all_eq_true]
      intro p hp
      obtain ⟨hmem, hne⟩ := mem_wantedPermissions.mp hp
      exact decide_eq_true (mem_sortedSet.mpr ((hmembers p).mpr (hall p hmem hne).2))

end Reads

/-! ## The writes of a granted request -/

/-- An `INSERT` whose row is new and whose references are there leaves that row. -/
theorem exec_insertRow_ok_iff {ρ : Type} [Row ρ] {label : StatementName} {table : Database → Rows ρ}
    {row : ρ} {references : Database → List Reference} {write : Write} {s t : Session Database}
    {u : Unit} :
    (execute label fun db => insertRow (table db) row (references db) write).exec s = (.ok u, t) ↔
      ((table s.view).insert? row).isSome = true ∧ (references s.view).all (·.present) = true ∧
        t = { s with view := write.apply s.view } := by
  constructor
  · intro h
    obtain ⟨o, ho, _, rfl⟩ := exec_execute_ok h
    obtain ⟨hfree, hreferences, hedits⟩ := insertRow_ok ho
    refine ⟨hfree, hreferences, ?_⟩
    rw [hedits]
    rfl
  · rintro ⟨hfree, hreferences, rfl⟩
    rw [exec_execute]
    unfold insertRow
    rw [if_neg (by simp [hfree]), if_neg (by simp [hreferences])]
    rfl

def TenantSecurityPolicy.machineExpiry (policy : TenantSecurityPolicy) (now : Instant) : Instant :=
  now + minutes policy.machineTokenTtlMinutes

theorem TenantSecurityPolicy.now_lt_machineExpiry (policy : TenantSecurityPolicy) (now : Instant) :
    now < policy.machineExpiry now := by
  have hpos := minutes_pos policy.machineTokenTtl_pos
  unfold machineExpiry
  unfold Instant at *
  omega

section Writes

variable {rt : MachineRuntime} {draw : MachineTokenDraw} {request : MachineTokenRequest}
  {credential : PrincipalCredential} {principal : SecurityPrincipal} {policy : TenantSecurityPolicy}
  {db : Database}

def MachineGate.session (draw : MachineTokenDraw) (request : MachineTokenRequest)
    (credential : PrincipalCredential) (principal : SecurityPrincipal)
    (policy : TenantSecurityPolicy) : AccessSession :=
  (credential.of principal).session draw request (policy.machineExpiry draw.now)
    (policy.now_lt_machineExpiry draw.now)

def MachineGate.after (draw : MachineTokenDraw) (request : MachineTokenRequest)
    (credential : PrincipalCredential) (principal : SecurityPrincipal)
    (policy : TenantSecurityPolicy) (db : Database) : Database :=
  replayAll [.insertAccessSession (session draw request credential principal policy),
    .insertEvaluation ((credential.of principal).evaluation draw request),
    .markMachineCredentialUsed credential.credentialId draw.now] db

def MachineGate.claims (draw : MachineTokenDraw) (request : MachineTokenRequest)
    (credential : PrincipalCredential) (principal : SecurityPrincipal)
    (policy : TenantSecurityPolicy) : AccessTokenClaims :=
  (credential.of principal).claims draw request (wantedPermissions request.requestedPermissions)
    (policy.machineExpiry draw.now)

structure MachineTokenDraw.Fresh (draw : MachineTokenDraw) (db : Database) : Prop where
  sessionId : ∀ r ∈ db.accessSessions.rows, r.accessSessionId ≠ draw.sessionId
  evaluationId : ∀ r ∈ db.accessContextEvaluations.rows, r.evaluationId ≠ draw.evaluationId

theorem MachineGate.session_free (hfresh : draw.Fresh db) :
    (db.accessSessions.insert? (session draw request credential principal policy)).isSome = true := by
  rw [Table.isSome_insert?]
  have hentries : Row.entries (session draw request credential principal policy) =
      [(Index.primary, [draw.sessionId])] := by
    simp only [session, MachineCredential.session, Row.entries]
    cases (credential.of principal).actorType <;> rfl
  intro r hr k hk hnew
  rw [hentries, List.mem_singleton] at hnew
  subst hnew
  have hid := hfresh.sessionId r hr
  simp only [Row.entries, List.mem_cons] at hk
  rcases hk with hk | hk
  · simp only [Prod.mk.injEq, List.cons.injEq, and_true, true_and] at hk
    exact hid hk.symm
  · split at hk <;> simp at hk

theorem MachineGate.evaluation_free (hfresh : draw.Fresh db) {found : MachineCredential} :
    (db.accessContextEvaluations.insert? (found.evaluation draw request)).isSome = true := by
  rw [Table.isSome_insert?]
  intro r hr k hk hnew
  simp only [Row.entries, List.mem_singleton] at hk hnew
  subst hk
  simp only [MachineCredential.evaluation, Prod.mk.injEq, List.cons.injEq, and_true, true_and] at hnew
  exact hfresh.evaluationId r hr hnew

theorem MachineGate.rows_session (hfresh : draw.Fresh db) :
    (db.accessSessions.insert (session draw request credential principal policy)).rows =
      db.accessSessions.rows ++ [session draw request credential principal policy] := by
  have hfree := @session_free draw request credential principal policy db hfresh
  obtain ⟨sessions, hinsert⟩ := Option.isSome_iff_exists.mp hfree
  exact Table.rows_insert_of_some hinsert

theorem MachineGate.rows_evaluation (hfresh : draw.Fresh db) {found : MachineCredential} :
    (db.accessContextEvaluations.insert (found.evaluation draw request)).rows =
      db.accessContextEvaluations.rows ++ [found.evaluation draw request] := by
  have hfree := @evaluation_free draw request db hfresh found
  obtain ⟨evaluations, hinsert⟩ := Option.isSome_iff_exists.mp hfree
  exact Table.rows_insert_of_some hinsert

theorem exec_createMachineSession_ok_iff {s t : Session Database} {u : Unit} :
    (createMachineSession (credential.of principal) draw request (policy.machineExpiry draw.now)).exec
        s = (.ok u, t) ↔
      (s.view.accessSessions.insert?
        (MachineGate.session draw request credential principal policy)).isSome = true ∧
      [s.view.tenantReference request.tenantId, s.view.principalReference principal.principalId,
        s.view.credentialReference credential.credentialId].all (·.present) = true ∧
      t = { s with view := (Write.insertAccessSession
        (MachineGate.session draw request credential principal policy)).apply s.view } := by
  have hrun : (createMachineSession (credential.of principal) draw request
      (policy.machineExpiry draw.now)) = execute .createMachineSession fun db : Database =>
        insertRow db.accessSessions (MachineGate.session draw request credential principal policy)
          [db.tenantReference request.tenantId, db.principalReference principal.principalId,
            db.credentialReference credential.credentialId]
          (.insertAccessSession (MachineGate.session draw request credential principal policy)) := by
    unfold createMachineSession
    simp only [dif_pos (policy.now_lt_machineExpiry draw.now)]
    rfl
  rw [hrun]
  exact exec_insertRow_ok_iff

theorem exec_markMachineCredentialUsed {credentialId : Uuid} {now : Instant} {s t : Session Database}
    {u : Unit} : (markMachineCredentialUsed credentialId now).exec s = (.ok u, t) ↔
      t = { s with view := (Write.markMachineCredentialUsed credentialId now).apply s.view } := by
  unfold markMachineCredentialUsed
  rw [exec_execute]
  constructor
  · intro h
    exact (congrArg Prod.snd h).symm
  · rintro rfl
    rfl

/-- The references of the session are rows that the gate has found. -/
theorem MachineGate.session_references
    (h : MachineGate rt db draw.now request credential principal policy) :
    [db.tenantReference request.tenantId, db.principalReference principal.principalId,
      db.credentialReference credential.credentialId].all (·.present) = true := by
  obtain ⟨tenant, htenant, hid, _⟩ := h.tenant
  have hcredential : (db.credentialReference credential.credentialId).present = true :=
    List.any_eq_true.mpr ⟨credential, h.identifies.credentialRow, by simp⟩
  have hprincipal : (db.principalReference principal.principalId).present = true :=
    List.any_eq_true.mpr ⟨principal, h.identifies.principalRow, by simp⟩
  have hpresent : (db.tenantReference request.tenantId).present = true :=
    List.any_eq_true.mpr ⟨tenant, htenant, by simp [hid]⟩
  simp [hcredential, hprincipal, hpresent]

theorem MachineGate.claims_shape (hclient : request.clientId ≠ "")
    (h : MachineGate rt db draw.now request credential principal policy) :
    validateActorClaimShape (claims draw request credential principal policy) = .ok () := by
  have hmachine : principal.actorType ≠ .user := by
    rcases h.identifies.machine with hm | hm <;> rw [hm] <;> decide
  have hsubject : credential.clientId ≠ "" := by
    rw [h.identifies.clientId]
    exact hclient
  simp [validateActorClaimShape, claims, MachineCredential.claims, PrincipalCredential.of, hmachine,
    hsubject, isBlank]

/-- The evidence refers to the session that the request has just created. -/
theorem MachineGate.exec_recordEvaluation (hfresh : draw.Fresh db)
    (h : MachineGate rt db draw.now request credential principal policy) :
    (recordEvaluation ((credential.of principal).evaluation draw request)).exec
        ⟨db, (Write.insertAccessSession (session draw request credential principal policy)).apply db⟩ =
      (.ok (), ⟨db, (Write.insertEvaluation ((credential.of principal).evaluation draw request)).apply
        ((Write.insertAccessSession (session draw request credential principal policy)).apply db)⟩) := by
  obtain ⟨tenant, htenant, hid, _⟩ := h.tenant
  have hsession : (((Write.insertAccessSession (session draw request credential principal policy)).apply
      db).sessionReference draw.sessionId).present = true := by
    refine List.any_eq_true.mpr ⟨session draw request credential principal policy, ?_, ?_⟩
    · simp only [Write.apply, rows_session hfresh]
      exact List.mem_append_right _ List.mem_cons_self
    · exact decide_eq_true rfl
  have hprincipal : (db.principalReference principal.principalId).present = true :=
    List.any_eq_true.mpr ⟨principal, h.identifies.principalRow, by simp⟩
  have hpresent : (db.tenantReference request.tenantId).present = true :=
    List.any_eq_true.mpr ⟨tenant, htenant, by simp [hid]⟩
  have hfits : ((credential.of principal).evaluation draw request).fits = true := rfl
  unfold recordEvaluation
  rw [hfits]
  refine exec_insertRow_ok_iff.mpr ⟨evaluation_free hfresh, ?_, rfl⟩
  rw [List.all_eq_true]
  intro reference hreference
  simp only [MachineCredential.evaluation, Option.toList_some, Option.toList_none, List.map_cons,
    List.map_nil, List.append_nil, List.mem_append, List.mem_cons, List.not_mem_nil, or_false]
    at hreference
  rcases hreference with (rfl | rfl) | rfl
  · exact hpresent
  · exact hprincipal
  · exact hsession

/-- A granted request that nothing else stops runs through all its writes. -/
theorem exec_issueMachineToken_of_gate (hdigest : ∀ s, isHexDigest (rt.sha256Hex s) = true)
    (hkeys : ∀ p ∈ db.permissions.rows, isCanonicalPermission p.permissionKey = true)
    (hfresh : draw.Fresh db) {token : String}
    (h : MachineGate rt db draw.now request credential principal policy)
    (htoken : rt.tokens.issue draw.token (MachineGate.claims draw request credential principal policy) =
      .ok token) :
    (issueMachineToken rt draw request).exec ⟨db, db⟩ =
      (.ok ⟨token, policy.machineExpiry draw.now, wantedPermissions request.requestedPermissions⟩,
        ⟨MachineGate.after draw request credential principal policy db,
          MachineGate.after draw request credential principal policy db⟩) := by
  have hcredential : authenticateCredential rt request.clientId request.clientSecret draw.now db =
      .ok (credential.of principal) :=
    (authenticateCredential_eq_ok_iff hdigest).mpr
      ⟨credential, principal, h.identifies, h.verifier, rfl⟩
  have htenant : (requireActiveTenant request.tenantId).exec ⟨db, db⟩ = (.ok (), ⟨db, db⟩) :=
    requireActiveTenant_exec_ok_iff.mpr ⟨h.tenant, rfl⟩
  have hpolicy : db.tenantPolicy request.tenantId = .ok policy :=
    tenantPolicy_eq_ok_iff.mpr ⟨h.policyRow, h.policyTenant, h.policyActive⟩
  have hauthorized : (authorizedPermissions (credential.of principal) request.tenantId
      request.requestedPermissions draw.now).exec ⟨db, db⟩ =
        (.ok (wantedPermissions request.requestedPermissions), ⟨db, db⟩) :=
    (authorizedPermissions_exec_ok_iff hkeys).mpr ⟨⟨h.scope, h.requested, h.granted⟩, rfl, rfl⟩
  have hsession : (createMachineSession (credential.of principal) draw request
      (policy.machineExpiry draw.now)).exec ⟨db, db⟩ =
        (.ok (), ⟨db, (Write.insertAccessSession
          (MachineGate.session draw request credential principal policy)).apply db⟩) :=
    exec_createMachineSession_ok_iff.mpr
      ⟨MachineGate.session_free hfresh, h.session_references, rfl⟩
  have hevaluation := h.exec_recordEvaluation hfresh
  refine exec_rollbackAndRaise_ok_iff.mpr ?_
  refine exec_bind_ok_iff.mpr ⟨credential.of principal, ⟨db, db⟩, ?_, ?_⟩
  · exact (exec_query _ _ _).trans (congrArg (·, _) hcredential)
  refine exec_bind_ok_iff.mpr ⟨_, _, htenant, ?_⟩
  refine exec_bind_ok_iff.mpr ⟨policy, ⟨db, db⟩, ?_, ?_⟩
  · exact (exec_query _ _ _).trans (congrArg (·, _) hpolicy)
  refine exec_bind_ok_iff.mpr ⟨_, _, hauthorized, ?_⟩
  refine exec_bind_ok_iff.mpr ⟨_, _, hsession, ?_⟩
  refine exec_bind_ok_iff.mpr ⟨_, _, hevaluation, ?_⟩
  refine exec_bind_ok_iff.mpr ⟨token, _, congrArg (·, _) htoken, ?_⟩
  refine exec_bind_ok_iff.mpr ⟨(), _, exec_markMachineCredentialUsed.mpr rfl, ?_⟩
  rfl

/-- Whatever the request, an answer comes from the gate and from its writes. -/
theorem issueMachineToken_ok (hdigest : ∀ s, isHexDigest (rt.sha256Hex s) = true)
    (hkeys : ∀ p ∈ db.permissions.rows, isCanonicalPermission p.permissionKey = true)
    {response : ExchangeResponse} {t : Session Database}
    (h : (issueMachineToken rt draw request).exec ⟨db, db⟩ = (.ok response, t)) :
    ∃ credential principal policy,
      MachineGate rt db draw.now request credential principal policy ∧
      rt.tokens.issue draw.token (MachineGate.claims draw request credential principal policy) =
        .ok response.accessToken ∧
      response.expiresAt = policy.machineExpiry draw.now ∧
      response.permissions = wantedPermissions request.requestedPermissions ∧
      t.committed = MachineGate.after draw request credential principal policy db := by
  have hbody := exec_rollbackAndRaise_ok_iff.mp h
  obtain ⟨found, _, hrun₁, hrest₁⟩ := exec_bind_ok hbody
  obtain ⟨hcredential, rfl⟩ := exec_query_ok hrun₁
  obtain ⟨credential, principal, hid, hverifier, rfl⟩ :=
    (authenticateCredential_eq_ok_iff hdigest).mp hcredential
  obtain ⟨_, _, hrun₂, hrest₂⟩ := exec_bind_ok hrest₁
  obtain ⟨htenant, rfl⟩ := requireActiveTenant_exec_ok_iff.mp hrun₂
  obtain ⟨policy, _, hrun₃, hrest₃⟩ := exec_bind_ok hrest₂
  obtain ⟨hpolicy, rfl⟩ := exec_query_ok hrun₃
  obtain ⟨hrow, hpolicyTenant, hactive⟩ := tenantPolicy_eq_ok_iff.mp hpolicy
  obtain ⟨wanted, _, hrun₄, hrest₄⟩ := exec_bind_ok hrest₃
  obtain ⟨⟨hscope, hrequested, hgranted⟩, rfl, rfl⟩ :=
    (authorizedPermissions_exec_ok_iff hkeys).mp hrun₄
  obtain ⟨_, _, hrun₅, hrest₅⟩ := exec_bind_ok hrest₄
  obtain ⟨_, _, rfl⟩ := exec_createMachineSession_ok_iff.mp hrun₅
  obtain ⟨_, _, hrun₆, hrest₆⟩ := exec_bind_ok hrest₅
  obtain ⟨_, _, rfl⟩ := exec_insertRow_ok_iff.mp hrun₆
  obtain ⟨token, _, hrun₇, hrest₇⟩ := exec_bind_ok hrest₆
  obtain ⟨htoken, rfl⟩ := exec_done_ok hrun₇
  obtain ⟨_, _, hrun₈, hrest₈⟩ := exec_bind_ok hrest₇
  obtain rfl := exec_markMachineCredentialUsed.mp hrun₈
  cases hrest₈
  exact ⟨credential, principal, policy, ⟨hid, hverifier, htenant, hrow, hpolicyTenant, hactive, hscope,
    hrequested, hgranted⟩, htoken, rfl, rfl, rfl⟩

end Writes

/-- The commit is the last statement, so an error has committed nothing. -/
theorem endsAtCommit_issueMachineToken (rt : MachineRuntime) (draw : MachineTokenDraw)
    (request : MachineTokenRequest) : (issueMachineToken rt draw request).EndsAtCommit := by
  refine endsAtCommit_attempt ?_ endsAtCommit_rollbackAndRaise
  refine endsAtCommit_bind (Q := fun _ => True) within_query fun found => ?_
  refine endsAtCommit_bind (Q := fun _ => True) within_query fun _ => ?_
  refine endsAtCommit_bind (Q := fun _ => True) within_query fun policy => ?_
  have hauthorized : (authorizedPermissions found request.tenantId request.requestedPermissions
      draw.now).Within fun _ => True := by
    refine within_bind (within_done _) fun wanted => ?_
    refine within_bind within_query fun granted => ?_
    refine within_bind (within_done _) fun allowed => ?_
    split
    · exact within_pure _
    · exact within_raise _
  refine endsAtCommit_bind hauthorized fun permissions => ?_
  refine endsAtCommit_bind (within_execute fun _ _ _ _ _ => trivial) fun _ => ?_
  refine endsAtCommit_bind (within_execute fun _ _ _ _ _ => trivial) fun _ => ?_
  refine endsAtCommit_bind (Q := fun _ => True) (within_done _) fun token => ?_
  refine endsAtCommit_bind (within_execute fun _ _ _ _ _ => trivial) fun _ => ?_
  exact ⟨_, rfl⟩

/-! ## The gate -/

/-- Signing works: the key is configured and the codec signs every payload. -/
structure TokenService.CanSign (tokens : TokenService) : Prop where
  privateKey : tokens.settings.securityPrivateKeyPem ≠ ""
  keyId : tokens.settings.securityKeyId ≠ ""
  signs : ∀ payload, ∃ token, tokens.Signs payload token

/-- The token, the new session and the new evidence of a granted request, which agree. -/
structure MachineArtefacts (rt : MachineRuntime) (draw : MachineTokenDraw)
    (request : MachineTokenRequest) (credential : PrincipalCredential)
    (principal : SecurityPrincipal) (policy : TenantSecurityPolicy) (before after : Database)
    (response : ExchangeResponse) (payload : Payload) (session : AccessSession)
    (evaluation : AccessContextEvaluation) : Prop where
  signed : rt.tokens.Signs payload response.accessToken
  newSession : after.accessSessions.rows = before.accessSessions.rows ++ [session]
  newEvaluation :
    after.accessContextEvaluations.rows = before.accessContextEvaluations.rows ++ [evaluation]
  used : after.principalCredentials.rows = before.principalCredentials.rows.map fun r =>
    if r.credentialId = credential.credentialId then { r with lastUsedAt := some draw.now } else r
  subject : payload.get "sub" = .text request.clientId
  permissions : payload.get "permissions" = .texts response.permissions
  sorted : response.permissions.Pairwise (· < ·)
  requested : ∀ p, p ∈ response.permissions ↔ p ∈ request.requestedPermissions ∧ p ≠ ""
  principalId : session.principalId = principal.principalId ∧
    evaluation.principalId = principal.principalId
  credentialId : session.credentialId = some credential.credentialId
  actorType : payload.get "actor_type" = .text principal.actorType.text ∧
    session.actorType = principal.actorType ∧ evaluation.actorType = principal.actorType
  tenantId : payload.get "tenant_id" = .text request.tenantId ∧
    session.tenantId = request.tenantId ∧ evaluation.tenantId = request.tenantId
  accessSessionId : payload.get "access_session_id" = .text session.accessSessionId ∧
    evaluation.accessSessionId = some session.accessSessionId
  expiry : payload.get "exp" = numericDate session.expiresAt ∧
    response.expiresAt = session.expiresAt ∧ session.expiresAt = policy.machineExpiry draw.now
  decision : session.status = .active ∧ evaluation.decision = .allow

theorem MachineGate.artefacts {rt : MachineRuntime} {draw : MachineTokenDraw}
    {request : MachineTokenRequest} {credential : PrincipalCredential}
    {principal : SecurityPrincipal} {policy : TenantSecurityPolicy} {db : Database}
    {response : ExchangeResponse} (hclient : request.clientId ≠ "") (hfresh : draw.Fresh db)
    (h : MachineGate rt db draw.now request credential principal policy)
    (htoken : rt.tokens.issue draw.token (claims draw request credential principal policy) =
      .ok response.accessToken)
    (hexpiry : response.expiresAt = policy.machineExpiry draw.now)
    (hpermissions : response.permissions = wantedPermissions request.requestedPermissions) :
    ∃ payload session evaluation, MachineArtefacts rt draw request credential principal policy db
      (after draw request credential principal policy db) response payload session evaluation := by
  obtain ⟨_, _, _, _, hsigned⟩ := TokenService.issue_eq_ok_iff.mp htoken
  have hsorted : sortedSet (claims draw request credential principal policy).permissions =
      response.permissions := by
    rw [hpermissions]
    exact sortedSet_congr fun _ => mem_sortedSet
  rw [hsorted] at hsigned
  have hsubject : (claims draw request credential principal policy).tokenSubject = request.clientId := by
    rw [← h.identifies.clientId] at hclient ⊢
    exact if_neg hclient
  have hcarries := rt.tokens.payload_carries draw.token
    (claims draw request credential principal policy) response.permissions
  rw [hsubject] at hcarries
  refine ⟨rt.tokens.payload draw.token (claims draw request credential principal policy)
    response.permissions, session draw request credential principal policy,
    (credential.of principal).evaluation draw request, ?_⟩
  constructor
  · exact hsigned
  · exact rows_session hfresh
  · exact rows_evaluation hfresh
  · simp [after, Write.apply]
  · exact hcarries.sub
  · exact hcarries.permissions
  · rw [hpermissions]
    exact pairwise_sortedSet _
  · intro p
    rw [hpermissions]
    exact mem_wantedPermissions
  · exact ⟨rfl, rfl⟩
  · rfl
  · exact ⟨hcarries.actorType, rfl, rfl⟩
  · exact ⟨hcarries.tenantId, rfl, rfl⟩
  · exact ⟨hcarries.accessSessionId, rfl⟩
  · exact ⟨hcarries.exp, hexpiry, rfl⟩
  · exact ⟨rfl, rfl⟩

/-- The grant succeeds exactly through its gate, what it leaves agrees, and a refusal leaves
the rows as they were. -/
theorem machine_token_gate (rt : MachineRuntime) (hdigest : ∀ s, isHexDigest (rt.sha256Hex s) = true)
    (hsigning : rt.tokens.CanSign) (draw : MachineTokenDraw) (request : MachineTokenRequest)
    (hclient : request.clientId ≠ "") (db : Database)
    (hkeys : ∀ p ∈ db.permissions.rows, isCanonicalPermission p.permissionKey = true)
    (hfresh : draw.Fresh db) :
    ((∃ response, ((issueMachineToken rt draw request).alone db).1 = .ok response) ↔
      ∃ credential principal policy,
        MachineGate rt db draw.now request credential principal policy) ∧
    (∀ response, ((issueMachineToken rt draw request).alone db).1 = .ok response →
      ∃ credential principal policy payload session evaluation,
        MachineGate rt db draw.now request credential principal policy ∧
        MachineArtefacts rt draw request credential principal policy db
          ((issueMachineToken rt draw request).alone db).2 response payload session evaluation) ∧
    ∀ e, ((issueMachineToken rt draw request).alone db).1 = .error e →
      ((issueMachineToken rt draw request).alone db).2 = db := by
  have hgranted : ∀ response, ((issueMachineToken rt draw request).alone db).1 = .ok response →
      ∃ credential principal policy payload session evaluation,
        MachineGate rt db draw.now request credential principal policy ∧
        MachineArtefacts rt draw request credential principal policy db
          ((issueMachineToken rt draw request).alone db).2 response payload session evaluation := by
    intro response h
    have hexec : (issueMachineToken rt draw request).exec ⟨db, db⟩ =
        (.ok response, ((issueMachineToken rt draw request).exec ⟨db, db⟩).2) := Prod.ext h rfl
    obtain ⟨credential, principal, policy, hgate, htoken, hexpiry, hpermissions, hafter⟩ :=
      issueMachineToken_ok hdigest hkeys hexec
    obtain ⟨payload, session, evaluation, hartefacts⟩ :=
      hgate.artefacts hclient hfresh htoken hexpiry hpermissions
    rw [← hafter] at hartefacts
    exact ⟨credential, principal, policy, payload, session, evaluation, hgate, hartefacts⟩
  refine ⟨⟨?_, ?_⟩, hgranted, fun e he => (endsAtCommit_issueMachineToken rt draw request).alone_error he⟩
  · rintro ⟨response, h⟩
    obtain ⟨credential, principal, policy, _, _, _, hgate, _⟩ := hgranted response h
    exact ⟨credential, principal, policy, hgate⟩
  · rintro ⟨credential, principal, policy, hgate⟩
    have hcanonical : ∀ p ∈ wantedPermissions request.requestedPermissions,
        isCanonicalPermission p = true := by
      intro p hp
      obtain ⟨hmem, hne⟩ := mem_wantedPermissions.mp hp
      exact (hgate.granted p hmem hne).1
    have hissued : ∃ token, rt.tokens.issue draw.token
        (MachineGate.claims draw request credential principal policy) = .ok token := by
      obtain ⟨token, hsigned⟩ := hsigning.signs _
      exact ⟨token, TokenService.issue_eq_ok_iff.mpr ⟨hsigning.privateKey, hsigning.keyId,
        hgate.claims_shape hclient, hcanonical, hsigned⟩⟩
    obtain ⟨token, htoken⟩ := hissued
    have hexec := exec_issueMachineToken_of_gate hdigest hkeys hfresh hgate htoken
    exact ⟨_, congrArg Prod.fst hexec⟩

def reportsDatabase : Database :=
  { clientsDatabase with tenantSecurityPolicies := Table.empty.insert workplacePolicy }

def signingRuntime : MachineRuntime where
  lower := id
  sha256Hex := fun _ => secretDigest
  tokens := ⟨clerkSettings, fun _ _ _ => some "token", fun _ _ _ _ _ => .error .invalid⟩

def reportsDraw : MachineTokenDraw := ⟨5, "session", "evaluation", 5, "jti"⟩

/-- The client asks twice for the one permission that it has. -/
def reportsRequest : MachineTokenRequest where
  clientId := "reports"
  clientSecret := "secret"
  tenantId := "tenant"
  requestedPermissions := ["sales.order.read", "", "sales.order.read"]
  sourceIp := "192.0.2.1"
  correlationId := "correlation"

theorem reports_client_is_granted : ∃ payload response,
    ((issueMachineToken signingRuntime reportsDraw reportsRequest).alone reportsDatabase).1 =
      .ok response ∧ signingRuntime.tokens.Signs payload response.accessToken ∧
    payload.get "sub" = .text "reports" ∧ response.permissions = ["sales.order.read"] := by
  have hresponse : ((issueMachineToken signingRuntime reportsDraw reportsRequest).alone
      reportsDatabase).1 = .ok ⟨"token", 5 + minutes 15, ["sales.order.read"]⟩ := by
    decide +kernel
  have hdigest : isHexDigest secretDigest = true := by decide +kernel
  obtain ⟨_, hgranted, _⟩ := machine_token_gate signingRuntime (fun _ => hdigest)
    ⟨by decide, by decide, fun _ => ⟨"token", rfl⟩⟩ reportsDraw reportsRequest (by decide)
    reportsDatabase (by decide +kernel) ⟨by decide +kernel, by decide +kernel⟩
  obtain ⟨_, _, _, payload, _, _, _, hartefacts⟩ := hgranted _ hresponse
  exact ⟨payload, _, hresponse, hartefacts.signed, hartefacts.subject, rfl⟩

end VerigenceSecurity
