import VerigenceSecurity.OverlappingPuts

/-! # Permissions in use and their retirement

A put asks whether a permission is in use before it retires it, without a lock on the roles
that may carry it. What it has found is still true at its commit only if no other commit
brings the permission into use meanwhile.
-/

namespace VerigenceSecurity
set_option autoImplicit false

open Transaction Relational Program

inductive RetirementCall
  | put (put : ModulePut)
  | tenant (op : TenantOperation)

def RetirementCall.program (lower : String → String) : RetirementCall → Tx Unit
  | put p => discard (p.program lower)
  | tenant op => op.program

def ModulePut.retiredKeys (put : ModulePut) : List String :=
  (put.catalog.permissions.filter fun p => decide (p.status = "RETIRED")).map (·.key)

/-- A tenant role that is effective for some user carries the permission. -/
def Database.InUse (db : Database) (key : String) (now : Instant) : Prop :=
  ∃ r ∈ db.roles.rows, r.status = .active ∧
    ⟨r.tenantId, r.roleId, key⟩ ∈ db.rolePermissions.rows ∧
      (db.roleAssigned r now = true ∨ db.roleGrouped r now = true)

instance (db : Database) (key : String) (now : Instant) : Decidable (db.InUse key now) :=
  inferInstanceAs (Decidable (∃ r ∈ db.roles.rows, _))

def Retires (before after : Database) (key : String) : Prop :=
  (∀ p ∈ before.permissionRow? key, p.status ≠ .retired) ∧
    ∃ p ∈ after.permissionRow? key, p.status = .retired

instance (before after : Database) (key : String) : Decidable (Retires before after key) :=
  inferInstanceAs (Decidable (_ ∧ ∃ p ∈ after.permissionRow? key, _))

theorem effectiveRoleReferences_eq_nil_iff {db : Database} {key : String} {now : Instant} :
    db.effectiveRoleReferences key now = [] ↔ ¬ db.InUse key now := by
  have hmem : ∀ ref, ref ∈ db.effectiveRoleReferences key now ↔ ∃ r ∈ db.roles.rows,
      r.status = .active ∧ ⟨r.tenantId, r.roleId, key⟩ ∈ db.rolePermissions.rows ∧
        (db.roleAssigned r now = true ∨ db.roleGrouped r now = true) ∧
          ref = ⟨r.tenantId, r.roleId, r.roleKey, r.roleName⟩ := by
    intro ref
    have hrow : ∀ r : Role, (db.rolePermissions.rows.any fun rp => decide (rp.tenantId = r.tenantId ∧
        rp.roleId = r.roleId ∧ rp.permissionKey = key)) = true ↔
          ⟨r.tenantId, r.roleId, key⟩ ∈ db.rolePermissions.rows := by
      intro r
      simp only [List.any_eq_true, decide_eq_true_eq]
      constructor
      · rintro ⟨⟨t, i, k⟩, hrp, rfl, rfl, rfl⟩
        exact hrp
      · intro hrp
        exact ⟨_, hrp, rfl, rfl, rfl⟩
    simp only [Database.effectiveRoleReferences, List.mem_insertionSort, List.mem_dedup,
      List.mem_map, List.mem_filter, Bool.and_eq_true, Bool.or_eq_true, decide_eq_true_eq, hrow]
    constructor
    · rintro ⟨r, ⟨hr, ⟨hactive, hcarries⟩, hheld⟩, rfl⟩
      exact ⟨r, hr, hactive, hcarries, hheld, rfl⟩
    · rintro ⟨r, hr, hactive, hcarries, hheld, rfl⟩
      exact ⟨r, ⟨hr, ⟨hactive, hcarries⟩, hheld⟩, rfl⟩
  rw [List.eq_nil_iff_forall_not_mem]
  constructor
  · rintro h ⟨r, hr, hactive, hcarries, hheld⟩
    exact h _ ((hmem _).mpr ⟨r, hr, hactive, hcarries, hheld, rfl⟩)
  · intro h ref href
    obtain ⟨r, hr, hactive, hcarries, hheld, -⟩ := (hmem ref).mp href
    exact h ⟨r, hr, hactive, hcarries, hheld⟩

/-! ## What a put writes -/

def Write.OfCatalog (retired : List String) : Write → Prop
  | upsertModule _ | upsertTemplate _ | deleteTemplatePermissions _ | insertTemplatePermission _
  | insertAdminChange _ | grantSuperAdminPermission _ | revokeSuperAdminPermission _ => True
  | upsertPermission row => row.status = .retired → row.permissionKey ∈ retired
  | _ => False

theorem Write.BesidePermissions.ofCatalog {w : Write} (h : w.BesidePermissions)
    (retired : List String) : w.OfCatalog retired := by
  cases w with
  | upsertModule | upsertTemplate | deleteTemplatePermissions | insertTemplatePermission
  | insertAdminChange => trivial
  | _ => exact h.elim

theorem inUse_of_catalog {retired : List String} {ws : List Write}
    (h : ∀ w ∈ ws, w.OfCatalog retired) (db : Database) (key : String) (now : Instant) :
    (replayAll ws db).InUse key now ↔ db.InUse key now := by
  have hrbac : (replayAll ws db).toRbacTables = db.toRbacTables := by
    refine replayAll_keeps (R := fun view : Database => view.toRbacTables = db.toRbacTables) ?_ h rfl
    intro w view hw hview
    cases w with
    | upsertModule | upsertTemplate | deleteTemplatePermissions | insertTemplatePermission
    | insertAdminChange | grantSuperAdminPermission | revokeSuperAdminPermission
    | upsertPermission => exact hview
    | _ => exact hw.elim
  simp only [Database.InUse, Database.roleAssigned, Database.roleGrouped]
  rw [hrbac]

theorem retired_of_catalog {retired : List String} {ws : List Write}
    (h : ∀ w ∈ ws, w.OfCatalog retired) {db : Database} {key : String}
    (hretires : Retires db (replayAll ws db) key) : key ∈ retired := by
  obtain ⟨hbefore, hafter⟩ := hretires
  by_contra hnot
  have hkeeps : ∀ p ∈ (replayAll ws db).permissionRow? key, p.status ≠ .retired := by
    refine replayAll_keeps (R := fun view : Database => ∀ p ∈ view.permissionRow? key,
      p.status ≠ .retired) ?_ h hbefore
    intro w view hw hview
    cases w with
    | upsertPermission row =>
      intro p hp
      rw [replay_eq, Database.permissionRow?_upsert] at hp
      split at hp
      · rename_i hkey
        have hstatus : row.status ≠ .retired := fun hstatus => hnot (hkey ▸ hw hstatus)
        cases hstored : view.permissionRow? key with
        | none =>
          rw [hstored] at hp
          cases hp
          exact hstatus
        | some stored =>
          rw [hstored] at hp
          cases hp
          by_cases hsame : row.sameAction stored
          · rw [Option.elim_some, registered_status hsame]
            exact hstatus
          · rw [Option.elim_some, registered_of_not_same hsame]
            exact hview stored hstored
      · exact hview p hp
    | upsertModule | upsertTemplate | deleteTemplatePermissions | insertTemplatePermission
    | insertAdminChange | grantSuperAdminPermission | revokeSuperAdminPermission => exact hview
    | _ => exact hw.elim
  obtain ⟨p, hp, hstatus⟩ := hafter
  exact hkeeps p hp hstatus

def FoundUnused (g : TxProgress) (key : String) (databaseNow : Instant) : Prop :=
  Saw g .effectiveRoleReferences fun db => ¬ db.InUse key databaseNow

structure RetirementChecked (put : ModulePut) (g : TxProgress) : Prop where
  writes : ∀ w ∈ g.pending, w.OfCatalog put.retiredKeys
  checked : ∀ key ∈ put.retiredKeys, FoundUnused g key put.databaseNow

theorem saw_of_extends {g g' : TxProgress} {es : List Write} (h : g.Extends es g')
    {name : StatementName} {P : Database → Prop} (hsaw : Saw g name P) : Saw g' name P := by
  obtain ⟨e, he, hlabel, hP⟩ := hsaw
  exact ⟨e, h.history e he, hlabel, hP⟩

theorem pending_ofCatalog {g g' : TxProgress} {es : List Write} {retired : List String}
    (h : g.Extends es g') (hg : ∀ w ∈ g.pending, w.OfCatalog retired)
    (hes : ∀ w ∈ es, w.OfCatalog retired) : ∀ w ∈ g'.pending, w.OfCatalog retired := by
  intro w hw
  rw [h.pending, List.mem_append] at hw
  exact hw.elim (hg w) (hes w)

theorem registerPermission_ofCatalog {db : Database} {row : Permission} {retired : List String}
    {o : Outcome Write RowLock Unit} (h : registerPermission db row = .ok o)
    (hrow : row.status = .retired → row.permissionKey ∈ retired) :
    ∀ w ∈ o.edits, w.OfCatalog retired := by
  intro w hw
  rcases registerPermission_cases h with ⟨-, hedits⟩ | ⟨-, synced, hsync, hedits⟩
  · rw [hedits] at hw
    cases hw
  · rw [hedits] at hw
    rcases List.mem_cons.mp hw with rfl | hw
    · exact hrow
    · unfold syncSuperAdminPermission at hsync
      split at hsync
      · dsimp only at hsync
        split at hsync
        · cases hsync
          cases hw
        · rw [(insertRow_ok hsync).2.2, List.mem_singleton] at hw
          rw [hw]
          trivial
      · cases hsync
        rw [List.mem_singleton.mp hw]
        trivial
      · cases hsync
        rw [List.mem_singleton.mp hw]
        trivial

/-- One round of the loop over the permissions. -/
theorem putPermission_checks {moduleKey catalogVersion : String} {databaseNow : Instant}
    {p : PermissionInput} {retired : List String} (hp : p.status = "RETIRED" → p.key ∈ retired)
    {g : TxProgress} (hg : ∀ w ∈ g.pending, w.OfCatalog retired) :
    (putPermission moduleKey catalogVersion databaseNow p).Upholds
      ⟨fun _ => True, fun _ => False, fun r g' => ∀ u, r = .ok u → ∃ es, g.Extends es g' ∧
        (∀ w ∈ es, w.OfCatalog retired) ∧
          (p.status = "RETIRED" → FoundUnused g' p.key databaseNow)⟩ g := by
  have hupsert : ∀ g₁ : TxProgress, g.Extends [] g₁ →
      (p.status = "RETIRED" → FoundUnused g₁ p.key databaseNow) →
      (upsertPermission moduleKey catalogVersion p).Upholds
        ⟨fun _ => True, fun _ => False, fun r g' => ∀ u, r = .ok u → ∃ es, g.Extends es g' ∧
          (∀ w ∈ es, w.OfCatalog retired) ∧
            (p.status = "RETIRED" → FoundUnused g' p.key databaseNow)⟩ g₁ := by
    intro g₁ hext hfound
    refine upholds_execute trivial ?_ fun _ _ _ => ⟨trivial, fun _ hu => nomatch hu⟩
    intro db o ho
    refine ⟨trivial, fun _ _ => ⟨_, hext.trans (Progress.Extends.ran _ db o g₁), ?_, ?_⟩⟩
    · split at ho
      · cases ho
      · rename_i status hstatus
        refine registerPermission_ofCatalog (fits_ok ho).2 fun hretired => hp ?_
        obtain rfl : status = .retired := hretired
        unfold LifecycleStatus.ofText? at hstatus
        split at hstatus
        · cases hstatus
        · cases hstatus
        · assumption
        · cases hstatus
    · intro hretired
      exact saw_of_extends (Progress.Extends.ran _ db o g₁) (hfound hretired)
  refine upholds_query_bind trivial ?_ fun _ _ _ => ⟨trivial, fun _ hu => nomatch hu⟩
  intro db existing _
  split
  · exact upholds_raise trivial fun _ hu => nomatch hu
  · unfold affectedRoles
    split
    · rename_i hretired
      refine upholds_query_bind trivial ?_ fun _ _ _ => ⟨trivial, fun _ hu => nomatch hu⟩
      intro db' affected haffected
      split
      · exact upholds_raise trivial fun _ hu => nomatch hu
      · rename_i hnone
        apply hupsert
        · exact (Progress.Extends.failed _ db g).trans (Progress.Extends.failed _ db' _)
        · intro _
          refine ⟨_, List.mem_cons_self, rfl, ?_⟩
          have hempty : ¬ (replayAll g.pending db').InUse p.key databaseNow :=
            effectiveRoleReferences_eq_nil_iff.mp
              ((Except.ok.inj haffected).trans (not_not.mp hnone))
          rwa [inUse_of_catalog hg] at hempty
    · rename_i hretired
      rw [Program.pure_bind]
      split
      · exact upholds_raise trivial fun _ hu => nomatch hu
      · apply hupsert _ (Progress.Extends.failed _ db g)
        intro h
        exact absurd h hretired

theorem putCatalog_checks (lower : String → String) (put : ModulePut) :
    (discard (put.program lower)).Commits (RetirementChecked put) Progress.start := by
  apply commits_bind_closed _ fun _ _ => commits_pure _
  unfold ModulePut.program putCatalog
  refine commits_within_bind (within_validateCatalog lower _ put.catalog) ?_
  intro _ es₀ g₀ hext₀ hes₀
  have hpending₀ : ∀ w ∈ g₀.pending, w.OfCatalog put.retiredKeys :=
    pending_ofCatalog hext₀ (fun _ hw => nomatch hw) fun w hw => (hes₀ w hw).elim
  refine commits_attempt ?_ fun e g => commits_rollbackNow_bind (commits_raise e)
  refine commits_within_bind (within_upsertModule put.c _ put.catalog) ?_
  intro _ es₁ g₁ hext₁ hes₁
  have hpending₁ : ∀ w ∈ g₁.pending, w.OfCatalog put.retiredKeys :=
    pending_ofCatalog hext₁ hpending₀ fun w hw => (hes₁ w hw).ofCatalog _
  refine commits_each_bind (fun seen g => (∀ w ∈ g.pending, w.OfCatalog put.retiredKeys) ∧
    ∀ p ∈ seen, p.status = "RETIRED" → FoundUnused g p.key put.databaseNow) ?_ ?_
    ⟨hpending₁, fun _ hp => nomatch hp⟩
  · rintro seen p g hp ⟨hpending, hfound⟩
    have hretired : p.status = "RETIRED" → p.key ∈ put.retiredKeys := by
      intro hstatus
      exact List.mem_map_of_mem (List.mem_filter.mpr ⟨hp, decide_eq_true hstatus⟩)
    refine (putPermission_checks hretired hpending).weaken (fun _ h => h) (fun _ _ hf => hf) ?_
    intro r g' _ hr u hu
    obtain ⟨es, hext, hes, hthis⟩ := hr u hu
    refine ⟨pending_ofCatalog hext hpending hes, fun q hq hstatus => ?_⟩
    rcases List.mem_append.mp hq with hq | hq
    · exact saw_of_extends hext (hfound q hq hstatus)
    · obtain rfl := List.mem_singleton.mp hq
      exact hthis hstatus
  · rintro g₂ ⟨hpending₂, hfound₂⟩
    refine commits_within_bind (within_each fun t _ => within_putTemplate (put.freshId t.2) _ _ t.1) ?_
    intro _ es₃ g₃ hext₃ hes₃
    refine commits_query_bind fun db row _ => ?_
    refine commits_within_bind (within_catalogResponse _ row) ?_
    intro response es₄ g₄ hext₄ hes₄
    refine commits_within_bind (within_platformAudit put.c _ _ _) ?_
    intro _ es₅ g₅ hext₅ hes₅
    have hrest := ((hext₃.trans (Progress.Extends.failed _ db g₃)).trans hext₄).trans hext₅
    refine commits_commitNow_bind ⟨pending_ofCatalog hrest hpending₂ ?_, ?_⟩ (commits_pure _)
    · intro w hw
      simp only [List.mem_append, List.append_nil] at hw
      rcases hw with (hw | hw) | hw
      · exact (hes₃ w hw).ofCatalog _
      · exact (hes₄ w hw).elim
      · exact (hes₅ w hw).ofCatalog _
    · intro key hkey
      obtain ⟨p, hp, rfl⟩ := List.mem_map.mp hkey
      obtain ⟨hp, hstatus⟩ := List.mem_filter.mp hp
      exact saw_of_extends hrest (hfound₂ p hp (of_decide_eq_true hstatus))

/-! ## Puts among tenant operations -/

namespace RetirementCall

def overlapping (lower : String → String) (calls : List RetirementCall) (db : Database) : TxState Unit :=
  State.initial db (calls.map (program lower))

def put? : RetirementCall → Option ModulePut
  | put p => some p
  | tenant _ => none

def Relies (p : ModulePut) (c : Call Database Write RowLock StatementName Failure Unit)
    (key : String) : Prop :=
  c.finished = false ∧ FoundUnused c.progress key p.databaseNow

/-- The commit that comes next brings the permission into use. -/
def BringsIntoUse (s : TxState Unit) (i : Nat) (key : String) (now : Instant) : Prop :=
  ∃ d ∈ s.calls[i]?, d.committing = true ∧ ¬ s.committed.InUse key now ∧
    (replayAll d.progress.pending s.committed).InUse key now

/-- The step brings nothing into use that another open put has found out of use, and a put
that asks finds in use what is in use at this time. -/
def KeepsOutOfUse (calls : List RetirementCall) (now : Instant) (s : TxState Unit) (i : Nat) : Prop :=
  (∀ j < calls.length, j ≠ i → ∀ p ∈ (calls[j]?).bind put?, ∀ c ∈ s.calls[j]?,
    ∀ key ∈ p.retiredKeys, Relies p c key → ¬ BringsIntoUse s i key now) ∧
  ∀ p ∈ (calls[i]?).bind put?, ∀ c ∈ s.calls[i]?, c.nextLabel = some .effectiveRoleReferences →
    ∀ key ∈ p.retiredKeys, s.committed.InUse key now → s.committed.InUse key p.databaseNow

instance (p : ModulePut) (c : Call Database Write RowLock StatementName Failure Unit)
    (key : String) : Decidable (Relies p c key) :=
  inferInstanceAs (Decidable (_ ∧ ∃ e ∈ c.progress.history, _))

instance (s : TxState Unit) (i : Nat) (key : String) (now : Instant) :
    Decidable (BringsIntoUse s i key now) :=
  inferInstanceAs (Decidable (∃ d ∈ s.calls[i]?, _))

instance (calls : List RetirementCall) (now : Instant) (s : TxState Unit) (i : Nat) :
    Decidable (KeepsOutOfUse calls now s i) := by
  unfold KeepsOutOfUse
  infer_instance

def Finding (calls : List RetirementCall) (now : Instant) (i : Nat)
    (e : Entry Database Write StatementName) (db : Database) : Prop :=
  ∀ p ∈ (calls[i]?).bind put?, e.label = .effectiveRoleReferences → ∀ key ∈ p.retiredKeys,
    ¬ e.committed.InUse key p.databaseNow → ¬ db.InUse key now

def contract (calls : List RetirementCall) (i : Nat) :
    Contract Database Write RowLock StatementName Failure Unit where
  always _ := True
  commits g := ∀ p ∈ (calls[i]?).bind put?, RetirementChecked p g
  returns _ _ := True

theorem upholds_overlapping (lower : String → String) (calls : List RetirementCall) (db : Database) :
    (overlapping lower calls db).Upholds (contract calls) := by
  apply State.upholds_initial
  intro i program hprogram
  rw [List.getElem?_map] at hprogram
  obtain ⟨call, hcall, rfl⟩ := Option.map_eq_some_iff.mp hprogram
  cases call with
  | put p =>
    refine Upholds.weaken (putCatalog_checks lower p) (fun _ h => h) ?_ fun _ _ _ h => h
    intro g _ hchecked q hq
    rw [hcall] at hq
    cases hq
    exact hchecked
  | tenant op =>
    refine Upholds.weaken op.commits (fun _ h => h) ?_ fun _ _ _ h => h
    intro g _ _ q hq
    rw [hcall] at hq
    cases hq

theorem finds_step {calls : List RetirementCall} {now : Instant} {s t : TxState Unit} {i : Nat}
    (hupholds : s.Upholds (contract calls)) (hs : s.Finds (Finding calls now))
    (hkeeps : KeepsOutOfUse calls now s i) (hstep : s.step RowLock.conflicts i = some t) :
    t.Finds (Finding calls now) := by
  refine hs.step ?_ ?_ hstep
  · intro c hc e hnext hcommitted p hp hlabel key hkey hunused hused
    rw [hcommitted] at hunused
    rw [hlabel] at hnext
    exact hunused (hkeeps.2 p hp c hc hnext key hkey hused)
  · intro j d hd hopen e he hfinding p hp hlabel key hkey hunused
    have hnow := hfinding p hp hlabel key hkey hunused
    rcases hupholds.committed hstep with hsame | ⟨c, hc, hcommit, -, hchecked, hcommitted⟩
    · rwa [hsame]
    · rw [hcommitted]
      by_cases hji : j = i
      · -- A put writes nothing that brings a permission into use.
        subst hji
        rwa [inUse_of_catalog (hchecked p hp).writes]
      · have hput : j < calls.length := by
          obtain ⟨call, hcall, -⟩ := Option.bind_eq_some_iff.mp hp
          exact (List.getElem?_eq_some_iff.mp hcall).1
        intro hused
        exact hkeeps.1 j hput hji p hp d hd key hkey ⟨hopen, e, he, hlabel, hunused⟩
          ⟨c, hc, hcommit, hnow, hused⟩

theorem reaches_finds {lower : String → String} {calls : List RetirementCall} {db : Database}
    {now : Instant} {s : TxState Unit} (hreach : State.Reaches RowLock.conflicts
      (KeepsOutOfUse calls now) (overlapping lower calls db) s) :
    s.Finds (Finding calls now) := by
  induction hreach with
  | refl => exact State.finds_initial _ _ _
  | step hbefore hkeeps hstep ih =>
    exact finds_step (hbefore.upholds (upholds_overlapping lower calls db)) ih hkeeps hstep

/-- In a run that keeps out of use what its puts have found out of use, no put retires a
permission in use. -/
theorem puts_retire_only_unused (lower : String → String) (calls : List RetirementCall)
    (db : Database) (now : Instant) {s t : TxState Unit} {i : Nat} {p : ModulePut}
    (hreach : State.Reaches RowLock.conflicts (KeepsOutOfUse calls now)
      (overlapping lower calls db) s)
    (hput : calls[i]? = some (put p))
    (hstep : s.step RowLock.conflicts i = some t) {key : String}
    (hretires : Retires s.committed t.committed key) : ¬ t.committed.InUse key now := by
  have hupholds := hreach.upholds (upholds_overlapping lower calls db)
  rcases hupholds.committed hstep with hsame | ⟨c, hc, hcommit, -, hchecked, hcommitted⟩
  · rw [hsame] at hretires
    obtain ⟨hbefore, q, hq, hstatus⟩ := hretires
    exact absurd hstatus (hbefore q hq)
  · have hp : p ∈ (calls[i]?).bind put? := by
      rw [hput]
      rfl
    have hchecks := hchecked p hp
    rw [hcommitted] at hretires ⊢
    have hkey := retired_of_catalog hchecks.writes hretires
    obtain ⟨e, he, hlabel, hunused⟩ := hchecks.checked key hkey
    rw [inUse_of_catalog hchecks.writes]
    exact reaches_finds hreach i c hc (Call.unfinished_of_committing hcommit) e he p hp hlabel key
      hkey hunused

/-! ## A grant between the check and the commit -/

def heldRoleDatabase : Database :=
  replayAll [.insertRole ⟨"role", "tenant", "clerk", "Clerk", none, .active, 0, 0⟩,
      .insertUserRoleAssignment ⟨"assignment", "tenant", "user", "role", .active, none, none, "user"⟩]
    { (default : Database) with
      tenants := Table.empty.insert ⟨"tenant", "TENANT", "Tenant", .active, 0, 0⟩
      users := Table.empty.insert ⟨"user", "User", none, none, none, none, .active, 0, 0⟩
      securityPrincipals := Table.empty.insert ⟨"user", .user, "user", .active⟩
      platformRoles := Table.empty.insert ⟨superAdminRoleKey, .active⟩
      permissions := Table.empty.insert
        ⟨"sales.order.read", "sales", "order", "read", none, none, .active, none⟩ }

def retirementDuringGrant : List RetirementCall :=
  [.put (permissionPut "RETIRED"), .tenant (.addRolePermission
    ⟨"user", "third", 0, "", "third audit"⟩ "tenant" "role" "sales.order.read")]

def retires (before after : Database) : Bool :=
  decide (Retires before after "sales.order.read")

/-- The put commits while the grant has only begun. -/
theorem put_before_grant_retires : ∃ s t : TxState Unit,
    Retires s.committed t.committed "sales.order.read" ∧ ¬ t.committed.InUse "sales.order.read" 0 := by
  have hkeeps : (overlapping asciiLower retirementDuringGrant heldRoleDatabase).Meets
      RowLock.conflicts (KeepsOutOfUse retirementDuringGrant 0)
      (1 :: List.replicate 8 0 ++ [0]) := by
    decide +kernel
  have hrun : (((overlapping asciiLower retirementDuringGrant heldRoleDatabase).run
      RowLock.conflicts (1 :: List.replicate 8 0)).bind fun s =>
        (s.step RowLock.conflicts 0).map fun t => retires s.committed t.committed) = some true := by
    decide +kernel
  obtain ⟨s, t, hreach, -, hstep, hretires⟩ := State.exists_step_of_run (P := retires) hkeeps hrun
  have hretires := of_decide_eq_true hretires
  exact ⟨s, t, hretires,
    puts_retire_only_unused asciiLower retirementDuringGrant _ 0 hreach rfl hstep hretires⟩

/-- The grant commits after the check of the put, whose own commit retires a permission
that the role of a user carries. -/
theorem grant_after_check_retires_used : ¬ ∀ (lower : String → String)
    (calls : List RetirementCall) (db : Database) (now : Instant) (s t : TxState Unit) (i : Nat)
    (p : ModulePut), State.Reaches RowLock.conflicts (fun _ _ => True)
      (overlapping lower calls db) s → calls[i]? = some (put p) →
    s.step RowLock.conflicts i = some t → ∀ key, Retires s.committed t.committed key →
      ¬ t.committed.InUse key now := by
  intro hunused
  have hrun : (((overlapping asciiLower retirementDuringGrant heldRoleDatabase).run
      RowLock.conflicts ([0, 0, 0] ++ List.replicate 8 1 ++ List.replicate 5 0)).bind fun s =>
        (s.step RowLock.conflicts 0).map fun t => retires s.committed t.committed &&
          decide (t.committed.InUse "sales.order.read" 0)) = some true := by
    decide +kernel
  obtain ⟨s, t, hreach, -, hstep, hcheck⟩ := State.exists_step_of_run
    (P := fun before after => retires before after && decide (after.InUse "sales.order.read" 0))
    (State.meets_true _ _) hrun
  obtain ⟨hretires, hused⟩ := Bool.and_eq_true_iff.mp hcheck
  exact hunused _ _ _ 0 s t 0 _ hreach rfl hstep _ (of_decide_eq_true hretires)
    (of_decide_eq_true hused)

end RetirementCall

end VerigenceSecurity
