import VerigenceSecurity.CatalogEffects

/-! # Runs of the catalogue

Besides `put_catalog`, the internal administration configures single permissions. A run
is any sequence of the two; the statuses that it gives to a permission go forward as
long as each operation submits none that lies before the stored one.
-/

namespace VerigenceSecurity
set_option autoImplicit false

open Transaction Relational Program

/-! ## The configuration of a permission -/

structure PermissionConfiguration where
  permissionKey : String
  moduleKey : String
  resourceKey : String
  actionKey : String
  description : Option String
  status : String

def PermissionConfiguration.row (configuration : PermissionConfiguration)
    (status : LifecycleStatus) : Permission where
  permissionKey := configuration.permissionKey
  moduleKey := configuration.moduleKey
  resourceKey := configuration.resourceKey
  actionKey := configuration.actionKey
  displayName := none
  description := configuration.description
  status := status
  catalogVersion := none

/-- The upsert without a `WHERE`, and the trigger. -/
def overwritePermission (db : Database) (row : Permission) :
    Except Failure (Outcome Write RowLock Unit) := do
  let written ← upsertRow db.permissions (.primary, [row.permissionKey]) row []
    (.configurePermission row)
  let synced ← syncSuperAdminPermission db row
  .ok {
    value := ()
    edits := written.edits ++ synced.edits
    locks := written.locks ++ synced.locks }

/-- `configure_permission`. A status outside the lifecycle violates the `CHECK` of the column. -/
def configurePermission (configuration : PermissionConfiguration) : Tx Unit :=
  if isCanonicalPermission configuration.permissionKey = false then
    raise (.valueError "permission_key must use canonical dot notation")
  else attempt rollbackAndRaise (do
    execute .upsertPermission fun db =>
      match LifecycleStatus.ofText? configuration.status with
      | none => .error (.integrityError .check)
      | some status => overwritePermission db (configuration.row status)
    commitNow)

/-! ## Runs -/

inductive CatalogOperation
  | putCatalog (c : AdminCall) (databaseNow : Instant) (freshId : Nat → Uuid)
    (pathModuleKey : String) (catalog : CatalogInput)
  | configurePermission (configuration : PermissionConfiguration)

namespace CatalogOperation

variable (lower : String → String)

def alone (db : Database) : CatalogOperation → Except Failure Unit × Database
  | putCatalog c databaseNow freshId pathModuleKey catalog =>
    let r := (VerigenceSecurity.putCatalog lower c databaseNow freshId pathModuleKey catalog).alone db
    (r.1.map fun _ => (), r.2)
  | configurePermission configuration => (VerigenceSecurity.configurePermission configuration).alone db

def states (db : Database) : List CatalogOperation → List Database
  | [] => [db]
  | op :: ops => db :: states (op.alone lower db).2 ops

def Along (ok : Database → CatalogOperation → Prop) (db : Database) : List CatalogOperation → Prop
  | [] => True
  | op :: ops => ok db op ∧ Along ok (op.alone lower db).2 ops

instance decidableAlong (ok : Database → CatalogOperation → Prop) [∀ db op, Decidable (ok db op)] :
    (db : Database) → (ops : List CatalogOperation) → Decidable (Along lower ok db ops)
  | _, [] => .isTrue trivial
  | db, op :: ops =>
    have := decidableAlong ok (op.alone lower db).2 ops
    inferInstanceAs (Decidable (ok db op ∧ Along lower ok (op.alone lower db).2 ops))

end CatalogOperation

/-! ## What an operation does to the permissions -/

theorem Database.permissionRow?_configure (db : Database) (row : Permission) (key : String) :
    (Write.apply db (.configurePermission row)).permissionRow? key =
      if key = row.permissionKey then some ((db.permissionRow? key).elim row row.configured)
      else db.permissionRow? key := by
  unfold permissionRow? Write.apply
  rw [Table.find?_upsert (k := (.primary, [key]))]
  · simp only [Prod.mk.injEq, List.cons.injEq, and_true, true_and]
  · intro r
    rw [permissionEntry_mem_iff, decide_eq_true_eq]
  · exact fun r => rfl
  · simp [eq_comm]
  · intro r hr
    rw [permissionEntry_mem_iff] at hr ⊢
    simp [hr]
  · intro hnone
    rw [Table.isSome_insert?]
    intro r hr k hk hrow
    rw [List.mem_singleton.mp hrow] at hk
    exact hnone r hr hk

theorem overwritePermission_cases {db : Database} {row : Permission} {o : Outcome Write RowLock Unit}
    (h : overwritePermission db row = .ok o) : ∃ synced,
      syncSuperAdminPermission db row = .ok synced ∧
        o.edits = .configurePermission row :: synced.edits := by
  unfold overwritePermission at h
  cases hupsert : upsertRow db.permissions (.primary, [row.permissionKey]) row []
      (.configurePermission row) with
  | error e =>
    rw [hupsert] at h
    cases h
  | ok written =>
    cases hsync : syncSuperAdminPermission db row with
    | error e =>
      rw [hupsert, hsync] at h
      cases h
    | ok synced =>
      rw [hupsert, hsync] at h
      cases h
      refine ⟨synced, rfl, ?_⟩
      rw [upsertRow_edits hupsert, List.singleton_append]

/-- A configuration that succeeds has written the row. -/
theorem configurePermission_run {configuration : PermissionConfiguration} {db : Database}
    (h : ((configurePermission configuration).alone db).1 = .ok ()) :
    isCanonicalPermission configuration.permissionKey = true ∧
      ∃ status o, LifecycleStatus.ofText? configuration.status = some status ∧
        overwritePermission db (configuration.row status) = .ok o ∧
        ((configurePermission configuration).alone db).2 = replayAll o.edits db := by
  have hrun : (configurePermission configuration).exec ⟨db, db⟩ =
      (.ok (), ((configurePermission configuration).exec ⟨db, db⟩).2) := Prod.ext h rfl
  simp only [alone]
  generalize ((configurePermission configuration).exec ⟨db, db⟩).2 = t at hrun
  unfold configurePermission at hrun
  split at hrun
  · cases hrun
  rename_i hcanonical
  refine ⟨by simpa using hcanonical, ?_⟩
  rw [exec_attempt] at hrun
  split at hrun
  · rename_i hinner
    cases hrun
    obtain ⟨_, s, hwrite, hcommit⟩ := exec_bind_ok hinner
    obtain ⟨o, ho, _, rfl⟩ := exec_execute_ok hwrite
    cases hcommit
    split at ho
    · cases ho
    · rename_i status hstatus
      exact ⟨status, o, hstatus, ho, rfl⟩
  · cases hrun

theorem configurePermission_row {configuration : PermissionConfiguration} {db : Database}
    (h : ((configurePermission configuration).alone db).1 = .ok ()) (key : String) :
    ∃ status, LifecycleStatus.ofText? configuration.status = some status ∧
      ((configurePermission configuration).alone db).2.permissionRow? key =
        if key = configuration.permissionKey then some ((db.permissionRow? key).elim
          (configuration.row status) (configuration.row status).configured)
        else db.permissionRow? key := by
  obtain ⟨_, status, o, hstatus, ho, hafter⟩ := configurePermission_run h
  obtain ⟨synced, hsync, hedits⟩ := overwritePermission_cases ho
  refine ⟨status, hstatus, ?_⟩
  refine Eq.trans ?_ (Database.permissionRow?_configure db (configuration.row status) key)
  rw [hafter, hedits, replayAll_cons, replay_eq]
  unfold Database.permissionRow?
  rw [syncSuperAdminPermission_frame hsync]

/-! ## Operations that raise -/

theorem endsAtCommit_rollbackAndRaise {α : Type} (e : Failure) :
    (rollbackAndRaise e : Tx α).EndsAtCommit := trivial

theorem within_putPermission (moduleKey catalogVersion : String) (databaseNow : Instant)
    (p : PermissionInput) :
    (putPermission moduleKey catalogVersion databaseNow p).Within fun _ => True := by
  refine within_bind within_query fun existing => ?_
  split
  · exact within_raise _
  · refine within_bind ?_ fun affected => ?_
    · unfold affectedRoles
      split
      · exact within_query
      · exact within_pure _
    · split
      · exact within_raise _
      · exact within_execute fun _ _ _ _ _ => trivial

theorem within_catalogResponse (moduleKey : String) (row : Option Module) :
    (catalogResponse moduleKey row).Within fun _ => False :=
  within_bind within_query fun _ => within_bind within_query fun _ => within_pure _

theorem endsAtCommit_putCatalog (lower : String → String) (c : AdminCall) (databaseNow : Instant)
    (freshId : Nat → Uuid) (pathModuleKey : String) (catalog : CatalogInput) :
    (putCatalog lower c databaseNow freshId pathModuleKey catalog).EndsAtCommit := by
  refine endsAtCommit_bind (within_validateCatalog lower _ catalog) fun _ => ?_
  refine endsAtCommit_attempt ?_ endsAtCommit_rollbackAndRaise
  refine endsAtCommit_bind (within_upsertModule c _ catalog) fun _ => ?_
  refine endsAtCommit_bind (within_each fun p _ => within_putPermission _ _ databaseNow p) fun _ => ?_
  refine endsAtCommit_bind (within_each fun t _ => within_putTemplate (freshId t.2) _ _ t.1) fun _ => ?_
  refine endsAtCommit_bind (Q := fun _ => False) within_query fun row => ?_
  refine endsAtCommit_bind (within_catalogResponse _ row) fun response => ?_
  refine endsAtCommit_bind (within_platformAudit c _ _ _) fun _ => ?_
  exact ⟨response, rfl⟩

theorem endsAtCommit_configurePermission (configuration : PermissionConfiguration) :
    (configurePermission configuration).EndsAtCommit := by
  unfold configurePermission
  split
  · trivial
  · refine endsAtCommit_attempt ?_ endsAtCommit_rollbackAndRaise
    refine endsAtCommit_bind (Q := fun _ => True) (within_execute fun _ _ _ _ _ => trivial) fun _ => ?_
    exact ⟨(), rfl⟩

theorem CatalogOperation.alone_error (lower : String → String) {db : Database} {e : Failure}
    (op : CatalogOperation) (h : (op.alone lower db).1 = .error e) : (op.alone lower db).2 = db := by
  cases op with
  | putCatalog c databaseNow freshId pathModuleKey catalog =>
    refine (endsAtCommit_putCatalog lower c databaseNow freshId pathModuleKey catalog).alone_error
      (e := e) ?_
    simp only [CatalogOperation.alone] at h
    revert h
    cases ((VerigenceSecurity.putCatalog lower c databaseNow freshId pathModuleKey
      catalog).alone db).1 with
    | error f =>
      intro h
      cases h
      rfl
    | ok response => exact fun h => nomatch h
  | configurePermission configuration =>
    exact (endsAtCommit_configurePermission configuration).alone_error h

theorem CatalogOperation.put_ok {lower : String → String} {db : Database} {c : AdminCall}
    {databaseNow : Instant} {freshId : Nat → Uuid} {pathModuleKey : String} {catalog : CatalogInput}
    (h : ((CatalogOperation.putCatalog c databaseNow freshId pathModuleKey catalog).alone lower db).1 =
      .ok ()) : ∃ response, ((VerigenceSecurity.putCatalog lower c databaseNow freshId pathModuleKey
        catalog).alone db).1 = .ok response := by
  simp only [CatalogOperation.alone] at h
  revert h
  cases ((VerigenceSecurity.putCatalog lower c databaseNow freshId pathModuleKey catalog).alone db).1 with
  | error e => exact fun h => nomatch h
  | ok response => exact fun _ => ⟨response, rfl⟩

/-! ## The lifecycle -/

def LifecycleStatus.rank : LifecycleStatus → Nat
  | .active => 0
  | .deprecated => 1
  | .retired => 2

def Database.permissionStatus? (db : Database) (key : String) : Option LifecycleStatus :=
  (db.permissionRow? key).map (·.status)

/-- Every stored permission is still stored, with the same status or a later one. -/
def LaterStatuses (db after : Database) : Prop :=
  ∀ key, ∀ old ∈ db.permissionStatus? key, ∃ new ∈ after.permissionStatus? key, old.rank ≤ new.rank

theorem LaterStatuses.refl (db : Database) : LaterStatuses db db :=
  fun _ old hold => ⟨old, hold, Nat.le_refl _⟩

theorem LaterStatuses.trans {db mid after : Database} (h : LaterStatuses db mid)
    (h' : LaterStatuses mid after) : LaterStatuses db after := by
  intro key old hold
  obtain ⟨m, hm, hle⟩ := h key old hold
  obtain ⟨new, hnew, hle'⟩ := h' key m hm
  exact ⟨new, hnew, hle.trans hle'⟩

def NotEarlier (stored : Permission) (text : String) : Prop :=
  ∀ status ∈ LifecycleStatus.ofText? text, stored.status.rank ≤ status.rank

instance (stored : Permission) (text : String) : Decidable (NotEarlier stored text) :=
  inferInstanceAs (Decidable (∀ status ∈ LifecycleStatus.ofText? text, _))

instance (db : Database) (moduleKey : String) (p : PermissionInput) :
    Decidable (db.Registers moduleKey p) :=
  inferInstanceAs (Decidable (∀ stored ∈ db.permissionRow? p.key, _))

/-- The operation submits no stored permission with an earlier status, as far as it would
write the row: a put writes those of the same action only, and a valid submission only. -/
def CatalogOperation.Forward (lower : String → String) (db : Database) : CatalogOperation → Prop
  | putCatalog _ _ _ pathModuleKey catalog =>
    ((validateCatalog lower (lower (strip pathModuleKey)) catalog).alone db).1 = .ok () →
      ∀ p ∈ catalog.permissions, db.Registers (lower (strip pathModuleKey)) p →
        ∀ stored ∈ db.permissionRow? p.key, NotEarlier stored p.status
  | configurePermission configuration =>
    isCanonicalPermission configuration.permissionKey = true →
      ∀ stored ∈ db.permissionRow? configuration.permissionKey, NotEarlier stored configuration.status

instance (lower : String → String) (db : Database) :
    (op : CatalogOperation) → Decidable (op.Forward lower db)
  | .putCatalog _ _ _ pathModuleKey catalog =>
    inferInstanceAs (Decidable (((validateCatalog lower (lower (strip pathModuleKey)) catalog).alone
      db).1 = .ok () → ∀ p ∈ catalog.permissions, db.Registers (lower (strip pathModuleKey)) p →
        ∀ stored ∈ db.permissionRow? p.key, NotEarlier stored p.status))
  | .configurePermission configuration =>
    inferInstanceAs (Decidable (isCanonicalPermission configuration.permissionKey = true →
      ∀ stored ∈ db.permissionRow? configuration.permissionKey,
        NotEarlier stored configuration.status))

theorem putRow_status {db : Database} {moduleKey catalogVersion : String} {p : PermissionInput}
    {status : LifecycleStatus} {stored : Permission}
    (hstatus : LifecycleStatus.ofText? p.status = some status)
    (hstored : db.permissionRow? p.key = some stored) :
    (db.putRow moduleKey catalogVersion p).map (·.status) =
      some (if db.Registers moduleKey p then status else stored.status) := by
  unfold Database.putRow
  simp only [hstatus, hstored, Option.elim_some, Option.map_some, Option.some.injEq]
  split
  · rename_i hregisters
    have hsame : (permissionRow moduleKey catalogVersion p status).sameAction stored :=
      hregisters stored hstored
    exact registered_status hsame
  · rename_i hskipped
    rw [registered_of_not_same]
    intro hsame
    refine hskipped fun r hr => ?_
    rw [hstored] at hr
    exact Option.mem_some_iff.mp hr ▸ hsame

/-- An operation that succeeds moves the statuses forward exactly when it submits no earlier one. -/
theorem CatalogOperation.laterStatuses_iff {lower : String → String} {db : Database}
    {op : CatalogOperation} (h : (op.alone lower db).1 = .ok ()) :
    LaterStatuses db (op.alone lower db).2 ↔ op.Forward lower db := by
  cases op with
  | putCatalog c databaseNow freshId pathModuleKey catalog =>
    obtain ⟨response, hok⟩ := CatalogOperation.put_ok h
    have hput := putCatalog_put hok
    obtain ⟨s₁, s₂, s₃, s₄, hvalid, _⟩ := putCatalog_run hok
    have hvalidated : ((validateCatalog lower (lower (strip pathModuleKey)) catalog).alone db).1 =
        .ok () := congrArg Prod.fst hvalid
    simp only [CatalogOperation.alone, CatalogOperation.Forward]
    generalize ((VerigenceSecurity.putCatalog lower c databaseNow freshId pathModuleKey
      catalog).alone db).2 = after at hput
    have hafter : ∀ p ∈ catalog.permissions, ∀ stored ∈ db.permissionRow? p.key,
        ∃ status, LifecycleStatus.ofText? p.status = some status ∧ after.permissionStatus? p.key =
          some (if db.Registers (lower (strip pathModuleKey)) p then status else stored.status) := by
      intro p hp stored hstored
      obtain ⟨status, hstatus⟩ := hput.lifecycle p hp
      refine ⟨status, hstatus, ?_⟩
      unfold Database.permissionStatus?
      rw [hput.permissions p hp, putRow_status hstatus hstored]
    constructor
    · intro hlater _ p hp hregisters stored hstored status hstatus
      obtain ⟨status', hstatus', hnew⟩ := hafter p hp stored hstored
      have hold : stored.status ∈ db.permissionStatus? p.key := by
        unfold Database.permissionStatus?
        rw [Option.mem_def.mp hstored]
        rfl
      obtain ⟨new, hnew', hle⟩ := hlater p.key stored.status hold
      rw [hnew, if_pos hregisters, Option.mem_some_iff] at hnew'
      rw [Option.mem_def.mp hstatus, Option.some.injEq] at hstatus'
      rwa [hstatus', hnew']
    · intro hforward key old hold
      by_cases hkey : ∃ p ∈ catalog.permissions, p.key = key
      · obtain ⟨p, hp, rfl⟩ := hkey
        obtain ⟨stored, hstored, rfl⟩ := Option.map_eq_some_iff.mp hold
        obtain ⟨status, hstatus, hnew⟩ := hafter p hp stored hstored
        refine ⟨_, hnew, ?_⟩
        split
        · rename_i hregisters
          exact hforward hvalidated p hp hregisters stored hstored status hstatus
        · exact Nat.le_refl _
      · simp only [not_exists, not_and] at hkey
        refine ⟨old, ?_, Nat.le_refl _⟩
        unfold Database.permissionStatus? at hold ⊢
        rw [hput.otherPermissions key hkey]
        exact hold
  | configurePermission configuration =>
    obtain ⟨hcanonical, _⟩ := configurePermission_run h
    simp only [CatalogOperation.alone, CatalogOperation.Forward]
    constructor
    · intro hlater _ stored hstored status hstatus
      obtain ⟨status', hstatus', hrow⟩ := configurePermission_row h configuration.permissionKey
      have hold : stored.status ∈ db.permissionStatus? configuration.permissionKey := by
        unfold Database.permissionStatus?
        rw [Option.mem_def.mp hstored]
        rfl
      obtain ⟨new, hnew, hle⟩ := hlater _ stored.status hold
      unfold Database.permissionStatus? at hnew
      rw [hrow, if_pos rfl, Option.mem_def.mp hstored] at hnew
      have hnew' : status' = new := Option.some.inj hnew
      rw [Option.mem_def.mp hstatus, Option.some.injEq] at hstatus'
      rwa [hstatus', hnew']
    · intro hforward key old hold
      obtain ⟨status, hstatus, hrow⟩ := configurePermission_row h key
      obtain ⟨stored, hstored, rfl⟩ := Option.map_eq_some_iff.mp hold
      unfold Database.permissionStatus?
      rw [hrow, hstored]
      split
      · rename_i hkey
        rw [hkey] at hstored
        exact ⟨status, rfl, hforward hcanonical stored hstored status hstatus⟩
      · exact ⟨stored.status, rfl, Nat.le_refl _⟩

theorem CatalogOperation.Forward.later {lower : String → String} {db : Database} {op : CatalogOperation}
    (h : op.Forward lower db) : LaterStatuses db (op.alone lower db).2 := by
  cases hresult : (op.alone lower db).1 with
  | error e =>
    rw [op.alone_error lower hresult]
    exact LaterStatuses.refl db
  | ok _ => exact (CatalogOperation.laterStatuses_iff hresult).mpr h

theorem CatalogOperation.later_states {lower : String → String} {ops : List CatalogOperation}
    {db : Database} (h : Along lower (Forward lower) db ops) :
    ∀ after ∈ states lower db ops, LaterStatuses db after := by
  induction ops generalizing db with
  | nil =>
    intro after hafter
    rw [List.mem_singleton.mp hafter]
    exact LaterStatuses.refl db
  | cons op ops ih =>
    intro after hafter
    rcases List.mem_cons.mp hafter with rfl | hafter
    · exact LaterStatuses.refl after
    · exact h.1.later.trans (ih h.2 after hafter)

/-- A run whose operations submit no earlier status never moves a permission back. -/
theorem permission_lifecycle_forward (lower : String → String) (db : Database)
    (ops : List CatalogOperation)
    (h : CatalogOperation.Along lower (CatalogOperation.Forward lower) db ops) (key : String) :
    ((CatalogOperation.states lower db ops).filterMap fun s => s.permissionStatus? key).Pairwise
      fun before after => before.rank ≤ after.rank := by
  rw [List.pairwise_filterMap]
  induction ops generalizing db with
  | nil => exact List.pairwise_singleton _ _
  | cons op ops ih =>
    refine List.pairwise_cons.mpr ⟨fun after hafter old hold new hnew => ?_, ih _ h.2⟩
    obtain ⟨new', hnew', hle⟩ := h.1.later.trans (CatalogOperation.later_states h.2 after hafter)
      key old hold
    rw [hnew] at hnew'
    rwa [Option.some.inj hnew']

def salesOperation (status : String) : CatalogOperation :=
  .putCatalog ⟨"user", "put", 0, "", status⟩ 0 (fun _ => "template") " Sales " (salesCatalog status [])

def orderConfiguration (status : String) : CatalogOperation :=
  .configurePermission ⟨"sales.order.read", "sales", "order", "read", none, status⟩

/-- The permission is deprecated by its module, and the administration retires it. -/
theorem order_permission_retires : ((CatalogOperation.states asciiLower clerkDatabase
    [salesOperation "ACTIVE", salesOperation "DEPRECATED", orderConfiguration "RETIRED"]).filterMap
      fun s => s.permissionStatus? "sales.order.read") = [.active, .active, .deprecated, .retired] ∧
    ((CatalogOperation.states asciiLower clerkDatabase
      [salesOperation "ACTIVE", salesOperation "DEPRECATED", orderConfiguration "RETIRED"]).filterMap
        fun s => s.permissionStatus? "sales.order.read").Pairwise
          fun before after => before.rank ≤ after.rank :=
  ⟨by decide +kernel, permission_lifecycle_forward asciiLower clerkDatabase _ (by decide +kernel) _⟩

/-- A permission that the administration has retired is submitted as `ACTIVE` again. -/
theorem retired_permission_returns : ¬ ∀ (lower : String → String) (db : Database)
    (ops : List CatalogOperation) (key : String),
    ((CatalogOperation.states lower db ops).filterMap fun s => s.permissionStatus? key).Pairwise
      fun before after => before.rank ≤ after.rank := by
  intro hforward
  have hreturned := hforward asciiLower clerkDatabase
    [orderConfiguration "RETIRED", salesOperation "ACTIVE"] "sales.order.read"
  revert hreturned
  decide +kernel

end VerigenceSecurity
