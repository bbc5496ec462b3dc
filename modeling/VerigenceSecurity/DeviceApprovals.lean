import VerigenceSecurity.DeviceLifecycle
import VerigenceSecurity.GuardedStatements

/-! # Overlapping approvals of devices

Approvals of one user in one tenant lock the membership before they look at a device,
so the devices and enrolment requests that a call finds are those it commits on. The
number of active devices then stays within the limit, and nothing is decided twice.
-/

namespace VerigenceSecurity
set_option autoImplicit false

open Transaction Program Relational

/-- The lock of the membership guards the devices and their requests. -/
def deviceGuard (db : Database) (tenantId userId : Uuid) :
    Guard Database RowLock (Rows RegisteredDevice × Rows DeviceEnrollmentRequest) where
  lock := rowLock .tenantMemberships
    [((db.membershipRow? tenantId userId).map (·.membershipId)).getD ""] .update
  observe db := (db.registeredDevices, db.deviceEnrollmentRequests)

def DeviceApproval.writes (a : DeviceApproval) (tenantId userId : Uuid) : List Write :=
  [.activatePendingDevice tenantId userId a.deviceId a.decidedByUserId a.decidedAt,
    .approveEnrollmentRequest a.enrollmentRequestId tenantId userId a.deviceId a.decidedByUserId
      a.decidedAt]

def ReadPolicy (g : TxProgress) (tenantId : Uuid) (policy : TenantSecurityPolicy) : Prop :=
  Saw g .getTenantPolicy fun db => db.tenantPolicy tenantId = .ok policy

structure Approves (tenantId userId : Uuid) (a : DeviceApproval) (g : TxProgress) (db : Database) :
    Prop where
  writes : g.pending = a.writes tenantId userId
  device : db.pendingDevices tenantId userId a.deviceId ≠ []
  request : db.pendingEnrollments tenantId userId a ≠ []
  limit : ∃ policy, ReadPolicy g tenantId policy ∧
    (db.activeDevices tenantId userId : Int) < policy.maxActiveDevicesPerUser

def approvalTerms (db₀ : Database) (tenantId userId : Uuid) (a : DeviceApproval) :
    Terms Database Write RowLock StatementName Failure Bool where
  rely _ g db := db.tenantMemberships = db₀.tenantMemberships ∧
    (deviceGuard db₀ tenantId userId).Current g db
  always _ g := (deviceGuard db₀ tenantId userId).Covers g
  commits n g db := n = 0 ∧ Approves tenantId userId a g db
  returns r n _ := (r = .ok true ∧ n = 1) ∨ (r ≠ .ok true ∧ n = 0)

/-! ## One approval -/

section Deciding

variable {G : Guard Database RowLock (Rows RegisteredDevice × Rows DeviceEnrollmentRequest)}
  {tenantId : Uuid} {policy : TenantSecurityPolicy} {g : TxProgress} {ws : List Write}
  {obs : Rows RegisteredDevice × Rows DeviceEnrollmentRequest} {db : Database}

structure Deciding (G : Guard Database RowLock (Rows RegisteredDevice × Rows DeviceEnrollmentRequest))
    (tenantId : Uuid) (policy : TenantSecurityPolicy)
    (obs : Rows RegisteredDevice × Rows DeviceEnrollmentRequest) (g : TxProgress) (ws : List Write) :
    Prop where
  found : G.Found g obs
  pending : g.pending = ws
  read : ReadPolicy g tenantId policy

theorem Deciding.failed (h : Deciding G tenantId policy obs g ws) (hdb : G.Current g db)
    (label : StatementName) : Deciding G tenantId policy obs (g.failed label db) ws :=
  ⟨h.found.failed hdb label, h.pending, h.read.of_extends (Progress.Extends.failed label db g)⟩

theorem Deciding.ran {β : Type} (h : Deciding G tenantId policy obs g ws) (hdb : G.Current g db)
    (label : StatementName) (o : Outcome Write RowLock β) :
    Deciding G tenantId policy obs (g.ran label db o) (ws ++ o.edits) :=
  ⟨h.found.ran hdb label o, by rw [← h.pending]; rfl,
    h.read.of_extends (Progress.Extends.ran label db o g)⟩

theorem Deciding.adds {L : StatementName → Prop} {ws' : List Write} {g' : TxProgress}
    (h : Deciding G tenantId policy obs g ws) (hfound : G.Found g' obs) (hadds : g.Adds L ws' g') :
    Deciding G tenantId policy obs g' (ws ++ ws') :=
  ⟨hfound, by rw [hadds.pending, h.pending], h.read.of_extends hadds.toExtends⟩

variable {α : Type} {T : Terms Database Write RowLock StatementName Failure α} {n : Nat}
  {name : StatementName} {relation : Relation} {find : Database → List Uuid}

theorem keeps_decideRows_bind {k : Bool → Tx α} {decidedBy : Uuid} {write : Write}
    (ids : List Uuid) (h : Deciding G tenantId policy obs g ws)
    (halways : ∀ g, G.Covers g → T.always n g) (hrely : ∀ g db, T.rely n g db → G.Current g db)
    (hfind : ∀ db, G.observe db = obs → find (replayAll ws db) = ids)
    (hnone : ids = [] → ∀ g', Deciding G tenantId policy obs g' ws → (k false).Keeps T n g')
    (hsome : ids ≠ [] → ∀ g', Deciding G tenantId policy obs g' (ws ++ [write]) →
      (k true).Keeps T n g')
    (herr : ∀ e g', Deciding G tenantId policy obs g' ws → T.returns (.error e) n g') :
    (decideRows name relation find decidedBy write >>= k).Keeps T n g := by
  refine keeps_execute_bind (halways g h.found.covers) ?_ ?_
  · intro db o hdb ho
    have hcurrent := hrely g db hdb
    rw [h.pending] at ho
    split at ho
    · rename_i hempty
      rw [hfind db (h.found.observe_eq hcurrent)] at hempty
      cases ho
      have hnext := h.ran hcurrent name ({ value := false } : Outcome Write RowLock Bool)
      rw [List.append_nil] at hnext
      exact hnone (List.isEmpty_iff.mp hempty) _ hnext
    · rename_i hempty
      rw [hfind db (h.found.observe_eq hcurrent)] at hempty
      split at ho
      · cases ho
      · cases ho
        exact hsome (fun hids => hempty (List.isEmpty_iff.mpr hids)) _ (h.ran hcurrent name _)
  · intro db e hdb _
    have hnext := h.failed (hrely g db hdb) name
    exact ⟨halways _ hnext.found.covers, herr e _ hnext⟩

end Deciding

section Keeps

variable {db₀ : Database} {tenantId userId : Uuid} {a : DeviceApproval} {e : Failure} {g : TxProgress}

/-- The terms inside the `try` block, whose errors are rolled back and raised again. -/
def approvalBody (db₀ : Database) (tenantId userId : Uuid) (a : DeviceApproval) :
    Terms Database Write RowLock StatementName Failure Bool :=
  (approvalTerms db₀ tenantId userId a).guarded fun e n g =>
    (rollbackAndRaise e).Keeps (approvalTerms db₀ tenantId userId a) n g

theorem body_raises (hg : (deviceGuard db₀ tenantId userId).Covers g) :
    (approvalBody db₀ tenantId userId a).returns (.error e) 0 g :=
  ⟨hg, Guard.covers_ended _ g, Or.inr ⟨nofun, rfl⟩⟩

theorem body_refuses (hg : (deviceGuard db₀ tenantId userId).Covers g) :
    (rollbackNow >>= fun _ => pure false).Keeps (approvalBody db₀ tenantId userId a) 0 g :=
  keeps_rollbackNow_bind hg (keeps_pure (Guard.covers_ended _ g) (Or.inr ⟨nofun, rfl⟩))

/-- An approval that has found the device pending within the limit. -/
theorem activate_keeps {policy : TenantSecurityPolicy} {d : Database}
    (h : Deciding (deviceGuard db₀ tenantId userId) tenantId policy
      ((deviceGuard db₀ tenantId userId).observe d) g [])
    (hdevice : d.pendingDevices tenantId userId a.deviceId ≠ [])
    (hlimit : (d.activeDevices tenantId userId : Int) < policy.maxActiveDevicesPerUser) :
    (activatePendingDevice tenantId userId a >>= fun activated =>
      if activated then commitNow >>= fun _ => pure true
      else rollbackNow >>= fun _ => pure false).Keeps (approvalBody db₀ tenantId userId a) 0 g := by
  have hrely : ∀ g db, (approvalBody db₀ tenantId userId a).rely 0 g db →
      (deviceGuard db₀ tenantId userId).Current g db := fun _ _ hdb => hdb.2
  unfold activatePendingDevice
  rw [bind_assoc]
  refine keeps_lockWhere_bind (d.pendingEnrollments tenantId userId a) h.found hrely ?_
    (fun _ hfound _ => hfound.covers) ?_
  · intro db hdb
    have hsame : db.deviceEnrollmentRequests = d.deviceEnrollmentRequests := congrArg Prod.snd hdb
    simp only [h.pending, replayAll_nil, Database.pendingEnrollments, hsame]
  intro g₁ hfound₁ hadds₁
  have h₁ : Deciding _ tenantId policy _ g₁ [] := h.adds hfound₁ hadds₁
  split
  · exact body_refuses h₁.found.covers
  rename_i hrequest
  rw [bind_assoc]
  refine keeps_decideRows_bind (d.pendingDevices tenantId userId a.deviceId) h₁
    (fun _ hg => hg) hrely ?_ ?_ ?_ fun e g' h' => body_raises h'.found.covers
  · intro db hdb
    have hsame : db.registeredDevices = d.registeredDevices := congrArg Prod.fst hdb
    simp only [replayAll_nil, Database.pendingDevices, hsame]
  · exact fun hids => absurd hids hdevice
  intro _ g₂ h₂
  refine keeps_decideRows_bind (d.pendingEnrollments tenantId userId a) h₂
    (fun _ hg => hg) hrely ?_ ?_ ?_ fun e g' h' => body_raises h'.found.covers
  · intro db hdb
    have hsame : db.deviceEnrollmentRequests = d.deviceEnrollmentRequests := congrArg Prod.snd hdb
    simp only [List.nil_append, replayAll_cons, replayAll_nil, replay_eq, Write.apply,
      Database.pendingEnrollments, hsame]
  · exact fun _ g' h' => body_refuses h'.found.covers
  intro hids g₃ h₃
  refine keeps_commitNow_bind h₃.found.covers ?_
    (keeps_pure (Guard.covers_ended _ g₃) (Or.inl ⟨rfl, rfl⟩))
  intro db hdb
  have hobs := h₃.found.observe_eq hdb.2
  have hdevices : db.registeredDevices = d.registeredDevices := congrArg Prod.fst hobs
  have hrequests : db.deviceEnrollmentRequests = d.deviceEnrollmentRequests := congrArg Prod.snd hobs
  refine ⟨rfl, h₃.pending, ?_, ?_, policy, h₃.read, ?_⟩
  · simpa only [Database.pendingDevices, hdevices] using hdevice
  · simpa only [Database.pendingEnrollments, hrequests] using hids
  · simpa only [Database.activeDevices, hdevices] using hlimit

/-- An approval that holds the lock of an active membership. -/
theorem limited_keeps {d : Database}
    (h : (deviceGuard db₀ tenantId userId).Found g ((deviceGuard db₀ tenantId userId).observe d))
    (hpending : g.pending = []) :
    (getTenantPolicy tenantId >>= fun policy =>
      pendingDeviceForUpdate tenantId userId a.deviceId >>= fun pending =>
      if pending then countActiveDevices tenantId userId >>= fun activeDevices =>
        done (checkDeviceLimit policy activeDevices) >>= fun _ =>
        activatePendingDevice tenantId userId a >>= fun activated =>
        if activated then commitNow >>= fun _ => pure true
        else rollbackNow >>= fun _ => pure false
      else rollbackNow >>= fun _ => pure false).Keeps (approvalBody db₀ tenantId userId a) 0 g := by
  have hrely : ∀ g db, (approvalBody db₀ tenantId userId a).rely 0 g db →
      (deviceGuard db₀ tenantId userId).Current g db := fun _ _ hdb => hdb.2
  refine keeps_query_bind h.covers ?_ ?_
  swap
  · intro db e hdb _
    have hcovers := (h.failed hdb.2 .getTenantPolicy).covers
    exact ⟨hcovers, body_raises hcovers⟩
  intro d' policy hd' hpolicy
  rw [hpending] at hpolicy
  have hdeciding : Deciding (deviceGuard db₀ tenantId userId) tenantId policy
      ((deviceGuard db₀ tenantId userId).observe d) (g.failed .getTenantPolicy d') [] :=
    ⟨h.failed hd'.2 .getTenantPolicy, hpending, _, List.mem_cons_self, rfl, hpolicy⟩
  unfold pendingDeviceForUpdate
  rw [bind_assoc]
  refine keeps_lockWhere_bind (d.pendingDevices tenantId userId a.deviceId) hdeciding.found hrely ?_
    (fun _ hfound _ => hfound.covers) ?_
  · intro db hdb
    have hsame : db.registeredDevices = d.registeredDevices := congrArg Prod.fst hdb
    simp only [hdeciding.pending, replayAll_nil, Database.pendingDevices, hsame]
  intro g₁ hfound₁ hadds₁
  have h₁ : Deciding _ tenantId policy _ g₁ [] := hdeciding.adds hfound₁ hadds₁
  rw [pure_bind]
  split
  swap
  · exact body_refuses h₁.found.covers
  rename_i hdevice
  refine keeps_query_bind h₁.found.covers ?_ fun _ _ _ he => nomatch he
  intro d'' count hd'' hcount
  have h₂ := h₁.failed hd''.2 .countActiveDevices
  rw [h₁.pending] at hcount
  cases hcount
  refine keeps_done_bind ?_ fun e _ => ⟨h₂.found.covers, body_raises h₂.found.covers⟩
  intro _ hlimit
  have hdevices : d''.registeredDevices = d.registeredDevices :=
    congrArg Prod.fst (h₁.found.observe_eq hd''.2)
  refine activate_keeps h₂ ?_ ?_
  · simpa using hdevice
  · unfold checkDeviceLimit at hlimit
    split at hlimit
    · cases hlimit
    · rename_i hlt
      simpa [Database.activeDevices, hdevices] using hlt

theorem approvePendingDevice_keeps (db₀ : Database) (tenantId userId : Uuid) (a : DeviceApproval) :
    (approvePendingDevice tenantId userId a).Keeps (approvalTerms db₀ tenantId userId a) 0
      Progress.start := by
  unfold approvePendingDevice
  refine keeps_attempt (keeps_execute_bind (Guard.covers_start _) ?_ fun _ _ _ he => nomatch he)
  intro d o hd ho
  have hmembership : o.value = d.membershipRow? tenantId userId := by cases ho; rfl
  have hlocks : o.locks = o.value.toList.map fun m =>
      rowLock .tenantMemberships [m.membershipId] .update := by cases ho; rfl
  have hpending : (Progress.start.ran StatementName.lockMembershipForDeviceLimit d o).pending = [] := by
    cases ho; rfl
  have hcovers : (deviceGuard db₀ tenantId userId).Covers
      (Progress.start.ran StatementName.lockMembershipForDeviceLimit d o) :=
    Or.inl fun db => by rw [hpending]; rfl
  refine keeps_done_bind ?_ fun e _ => ⟨hcovers, body_raises hcovers⟩
  intro _ hactive
  cases hm : o.value with
  | none =>
    rw [hm] at hactive
    cases hactive
  | some m =>
    have hsame : db₀.membershipRow? tenantId userId = some m := by
      rw [← hm, hmembership]
      unfold Database.membershipRow?
      rw [hd.1]
    have hlock : (deviceGuard db₀ tenantId userId).lock ∈ o.locks := by
      simp [hlocks, hm, deviceGuard, hsame]
    exact limited_keeps (Guard.found_ran hlock) hpending

end Keeps

/-! ## Overlapping approvals -/

/-- A device and its request are pending before the commit of an approval and decided after it;
no other row of the two tables changes. -/
structure Decided (tenantId userId : Uuid) (a : DeviceApproval) (before after : Database) : Prop where
  device_pending : ∃ d ∈ before.registeredDevices.rows, d.deviceId = a.deviceId ∧
    d.tenantId = tenantId ∧ d.userId = userId ∧ d.status = .pending
  devices : after.registeredDevices.rows = before.registeredDevices.rows.map fun d =>
    if d.deviceId = a.deviceId then d.activated a.decidedByUserId a.decidedAt else d
  request_pending : ∃ r ∈ before.deviceEnrollmentRequests.rows,
    r.enrollmentRequestId = a.enrollmentRequestId ∧ r.tenantId = tenantId ∧ r.userId = userId ∧
      r.deviceId = a.deviceId ∧ r.status = .pending
  requests : after.deviceEnrollmentRequests.rows = before.deviceEnrollmentRequests.rows.map fun r =>
    if r.enrollmentRequestId = a.enrollmentRequestId then r.approved a.decidedByUserId a.decidedAt
    else r

theorem decided_of_approves {tenantId userId : Uuid} {a : DeviceApproval} {g : TxProgress}
    {db : Database} (h : Approves tenantId userId a g db) :
    Decided tenantId userId a db (replayAll g.pending db) := by
  obtain ⟨_, hid⟩ := List.exists_mem_of_ne_nil _ h.device
  obtain ⟨d, hd, _⟩ := List.mem_map.mp hid
  obtain ⟨hd, hdevice⟩ := List.mem_filter.mp hd
  obtain ⟨hdt, hdu, hdi, hds⟩ := of_decide_eq_true hdevice
  obtain ⟨_, hid⟩ := List.exists_mem_of_ne_nil _ h.request
  obtain ⟨r, hr, _⟩ := List.mem_map.mp hid
  obtain ⟨hr, hrequest⟩ := List.mem_filter.mp hr
  obtain ⟨hri, hrt, hru, hrd, hrs⟩ := of_decide_eq_true hrequest
  rw [h.writes]
  refine ⟨⟨d, hd, hdi, hdt, hdu, hds⟩, ?_, ⟨r, hr, hri, hrt, hru, hrd, hrs⟩, ?_⟩
  · apply List.map_congr_left
    intro x hx
    by_cases hxi : x.deviceId = a.deviceId
    · have hxd : x = d := Table.shared_entry hx hd (k := (Index.primary, [a.deviceId]))
        (by simp [Row.entries, hxi]) (by simp [Row.entries, hdi])
      simp [hxd, hdt, hdu, hdi, hds]
    · simp [hxi]
  · apply List.map_congr_left
    intro x hx
    by_cases hxi : x.enrollmentRequestId = a.enrollmentRequestId
    · have hxr : x = r := Table.shared_entry hx hr (k := (Index.primary, [a.enrollmentRequestId]))
        (by simp [Row.entries, hxi]) (by simp [Row.entries, hri])
      simp [hxr, hrt, hru, hrd, hri, hrs]
    · simp [hxi]

theorem Decided.device_settled {tenantId userId : Uuid} {a : DeviceApproval} {before after : Database}
    (h : Decided tenantId userId a before after) (id : Uuid)
    (hid : id = a.deviceId ∨ ∀ d ∈ before.registeredDevices.rows, d.deviceId = id → d.status ≠ .pending) :
    ∀ d ∈ after.registeredDevices.rows, d.deviceId = id → d.status ≠ .pending := by
  intro d hd hdi
  rw [h.devices] at hd
  obtain ⟨x, hx, rfl⟩ := List.mem_map.mp hd
  by_cases hxa : x.deviceId = a.deviceId
  · simp [hxa, RegisteredDevice.activated]
  · rw [if_neg hxa] at hdi ⊢
    rcases hid with rfl | hid
    · exact absurd hdi hxa
    · exact hid x hx hdi

theorem Decided.request_settled {tenantId userId : Uuid} {a : DeviceApproval} {before after : Database}
    (h : Decided tenantId userId a before after) (id : Uuid)
    (hid : id = a.enrollmentRequestId ∨ ∀ r ∈ before.deviceEnrollmentRequests.rows,
      r.enrollmentRequestId = id → r.status ≠ .pending) :
    ∀ r ∈ after.deviceEnrollmentRequests.rows, r.enrollmentRequestId = id → r.status ≠ .pending := by
  intro r hr hri
  rw [h.requests] at hr
  obtain ⟨x, hx, rfl⟩ := List.mem_map.mp hr
  by_cases hxa : x.enrollmentRequestId = a.enrollmentRequestId
  · simp [hxa, DeviceEnrollmentRequest.approved]
  · rw [if_neg hxa] at hri ⊢
    rcases hid with rfl | hid
    · exact absurd hri hxa
    · exact hid x hx hri

/-- What the commits so far have settled: their devices and requests are decided, each once. -/
structure Settled (db₀ : Database) (committed : List DeviceApproval) (db : Database) : Prop where
  memberships : db.tenantMemberships = db₀.tenantMemberships
  devices : ∀ a ∈ committed, ∀ d ∈ db.registeredDevices.rows,
    d.deviceId = a.deviceId → d.status ≠ .pending
  requests : ∀ a ∈ committed, ∀ r ∈ db.deviceEnrollmentRequests.rows,
    r.enrollmentRequestId = a.enrollmentRequestId → r.status ≠ .pending
  devices_nodup : (committed.map (·.deviceId)).Nodup
  requests_nodup : (committed.map (·.enrollmentRequestId)).Nodup

theorem Settled.commit {db₀ db : Database} {committed : List DeviceApproval} {tenantId userId : Uuid}
    {a : DeviceApproval} {g : TxProgress} (h : Settled db₀ committed db)
    (ha : Approves tenantId userId a g db) :
    Settled db₀ (committed ++ [a]) (replayAll g.pending db) := by
  have hdecided := decided_of_approves ha
  obtain ⟨d, hd, hdi, _, _, hds⟩ := hdecided.device_pending
  obtain ⟨r, hr, hri, _, _, _, hrs⟩ := hdecided.request_pending
  constructor
  · rw [ha.writes]
    exact h.memberships
  · intro b hb
    refine hdecided.device_settled b.deviceId ?_
    rcases List.mem_append.mp hb with hb | hb
    · exact Or.inr (h.devices b hb)
    · exact Or.inl (congrArg _ (List.mem_singleton.mp hb))
  · intro b hb
    refine hdecided.request_settled b.enrollmentRequestId ?_
    rcases List.mem_append.mp hb with hb | hb
    · exact Or.inr (h.requests b hb)
    · exact Or.inl (congrArg _ (List.mem_singleton.mp hb))
  · rw [List.map_append, List.map_singleton, ← List.concat_eq_append]
    refine h.devices_nodup.concat ?_
    intro hmem
    obtain ⟨b, hb, hbi⟩ := List.mem_map.mp hmem
    exact h.devices b hb d hd (hdi.trans hbi.symm) hds
  · rw [List.map_append, List.map_singleton, ← List.concat_eq_append]
    refine h.requests_nodup.concat ?_
    intro hmem
    obtain ⟨b, hb, hbi⟩ := List.mem_map.mp hmem
    exact h.requests b hb r hr (hri.trans hbi.symm) hrs

theorem Approves.limit_after {tenantId userId : Uuid} {a : DeviceApproval} {g : TxProgress}
    {db : Database} (h : Approves tenantId userId a g db) : ∃ policy, ReadPolicy g tenantId policy ∧
      ((replayAll g.pending db).activeDevices tenantId userId : Int) ≤
        policy.maxActiveDevicesPerUser := by
  obtain ⟨policy, hread, hlimit⟩ := h.limit
  refine ⟨policy, hread, ?_⟩
  have hcount : (replayAll g.pending db).activeDevices tenantId userId ≤
      db.activeDevices tenantId userId + 1 := by
    rw [h.writes]
    apply Table.countP_update_le (k := (Index.primary, [a.deviceId]))
    · intro r hr
      obtain ⟨_, _, hid, _⟩ := of_decide_eq_true hr
      simp [Row.entries, hid]
    · exact fun _ => List.Subset.refl _
  omega

def deviceApprovals (tenantId userId : Uuid) (approvals : List DeviceApproval) (db : Database) :
    TxState Bool :=
  State.initial db (approvals.map (approvePendingDevice tenantId userId))

def approvalTermsAt (db₀ : Database) (tenantId userId : Uuid) (approvals : List DeviceApproval)
    (i : Nat) : Terms Database Write RowLock StatementName Failure Bool :=
  match approvals[i]? with
  | some a => approvalTerms db₀ tenantId userId a
  | none => { approvalTerms db₀ tenantId userId ⟨"", "", "", 0⟩ with commits := fun _ _ _ => False }

def committedApprovals (approvals : List DeviceApproval) (order : List Nat) : List DeviceApproval :=
  order.filterMap (approvals[·]?)

theorem deviceApprovals_kept (tenantId userId : Uuid) (approvals : List DeviceApproval)
    (db : Database) {schedule : List Nat} {s : TxState Bool}
    (hrun : (deviceApprovals tenantId userId approvals db).run RowLock.conflicts schedule = some s) :
    (deviceGuard db tenantId userId).Kept (approvalTermsAt db tenantId userId approvals)
      (fun order => Settled db (committedApprovals approvals order)) RowLock.conflicts
      ((deviceApprovals tenantId userId approvals db).commitOrder RowLock.conflicts schedule) s := by
  have hinitial : (deviceGuard db tenantId userId).Kept (approvalTermsAt db tenantId userId approvals)
      (fun order => Settled db (committedApprovals approvals order)) RowLock.conflicts []
      (deviceApprovals tenantId userId approvals db) := by
    apply Guard.kept_initial
    · intro i p hp
      rw [List.getElem?_map] at hp
      obtain ⟨a, ha, rfl⟩ := Option.map_eq_some_iff.mp hp
      simpa only [approvalTermsAt, ha] using approvePendingDevice_keeps db tenantId userId a
    · exact ⟨rfl, nofun, nofun, List.nodup_nil, List.nodup_nil⟩
  have hkept := hinitial.run RowLock.conflicts_comm (by simp [deviceGuard, RowLock.conflicts, rowLock,
    LockMode.conflicts]) ?_ ?_ ?_ hrun
  · simpa using hkept
  · intro i n g hg
    unfold approvalTermsAt at hg
    split at hg <;> exact hg
  · intro order d i g hinv hcurrent
    unfold approvalTermsAt
    split <;> exact ⟨hinv.memberships, hcurrent⟩
  · intro order d i g hinv hcommit
    unfold approvalTermsAt at hcommit
    split at hcommit
    · rename_i a ha
      simpa [committedApprovals, ha] using hinv.commit hcommit.2
    · cases hcommit

def StepsWithinLimit (tenantId userId : Uuid) (approvals : List DeviceApproval) (order : List Nat)
    (s : TxState Bool) : Prop :=
  ∀ i s', s.step RowLock.conflicts i = some s' →
    (s.commitsNext i = false ∧ s'.committed = s.committed) ∨
    (s.commitsNext i = true ∧ i ∉ order ∧ ∃ a c policy, approvals[i]? = some a ∧
      s.calls[i]? = some c ∧ Decided tenantId userId a s.committed s'.committed ∧
      ReadPolicy c.progress tenantId policy ∧
      (s'.committed.activeDevices tenantId userId : Int) ≤ policy.maxActiveDevicesPerUser)

theorem stepsWithinLimit_of_kept {db : Database} {tenantId userId : Uuid}
    {approvals : List DeviceApproval} {order : List Nat} {s : TxState Bool}
    (h : (deviceGuard db tenantId userId).Kept (approvalTermsAt db tenantId userId approvals)
      (fun order => Settled db (committedApprovals approvals order)) RowLock.conflicts order s) :
    StepsWithinLimit tenantId userId approvals order s := by
  intro i s' hstep
  have hrely : ∀ order d i g, Settled db (committedApprovals approvals order) d →
      (deviceGuard db tenantId userId).Current g d →
      (approvalTermsAt db tenantId userId approvals i).rely (order.count i) g d := by
    intro order d i g hinv hcurrent
    unfold approvalTermsAt
    split <;> exact ⟨hinv.memberships, hcurrent⟩
  rcases h.keeps.committed (h.relies hrely) hstep with hno | ⟨c, hc, hyes, _, _, hcommit, hdb⟩
  · exact Or.inl hno
  · unfold approvalTermsAt at hcommit
    split at hcommit
    · rename_i a ha
      obtain ⟨hcount, happroves⟩ := hcommit
      obtain ⟨policy, hread, hlimit⟩ := happroves.limit_after
      refine Or.inr ⟨hyes, List.count_eq_zero.mp hcount, a, c, policy, ha, hc, ?_, hread, ?_⟩
      · rw [hdb]
        exact decided_of_approves happroves
      · rw [hdb]
        exact hlimit
    · cases hcommit

theorem approvals_respect_device_limit (tenantId userId : Uuid) (approvals : List DeviceApproval)
    (db : Database) {schedule : List Nat} {s : TxState Bool}
    (hrun : (deviceApprovals tenantId userId approvals db).run RowLock.conflicts schedule = some s) :
    let order := (deviceApprovals tenantId userId approvals db).commitOrder RowLock.conflicts schedule
    StepsWithinLimit tenantId userId approvals order s ∧
      (∀ i c r, s.calls[i]? = some c → c.program = .done r → (r = .ok true ↔ i ∈ order)) ∧
      ((committedApprovals approvals order).map (·.deviceId)).Nodup ∧
      ((committedApprovals approvals order).map (·.enrollmentRequestId)).Nodup := by
  intro order
  have hkept := deviceApprovals_kept tenantId userId approvals db hrun
  refine ⟨stepsWithinLimit_of_kept hkept, ?_, hkept.holds.devices_nodup, hkept.holds.requests_nodup⟩
  intro i c r hc hdone
  have hreturn := hkept.keeps i c hc
  rw [hdone] at hreturn
  have hcount : (r = .ok true ∧ order.count i = 1) ∨ (r ≠ .ok true ∧ order.count i = 0) := by
    have hterms := hreturn.2
    unfold approvalTermsAt at hterms
    split at hterms <;> exact hterms
  rcases hcount with ⟨hr, hone⟩ | ⟨hr, hzero⟩
  · exact iff_of_true hr (List.count_pos_iff.mp (by omega))
  · exact iff_of_false hr (List.count_eq_zero.mp hzero)

def oneDevicePolicy : TenantSecurityPolicy where
  tenantId := "tenant"
  maxActiveDevicesPerUser := 1
  maxGeoAccuracyMeters := 100
  maxGeoAgeSeconds := 60
  geoRevalidationIntervalSeconds := 900
  accessTokenTtlMinutes := 15
  machineTokenTtlMinutes := 15
  sessionIdleTimeoutMinutes := 30
  sessionMaxDurationMinutes := 480
  vpnDetectedAction := .deny
  vpnUnknownAction := .flag
  status := .active
  geoRevalidationInterval_pos := by decide
  accessTokenTtl_pos := by decide
  machineTokenTtl_pos := by decide
  sessionMaxDuration_pos := by decide

def twoPendingDevices : Database :=
  { (default : Database) with
    users := Table.empty.insert ⟨"admin", "Admin", none, none, none, none, .active, 0, 0⟩
    tenantMemberships := Table.empty.insert ⟨"membership", "tenant", "user", .active, none, none, 1⟩
    tenantSecurityPolicies := Table.empty.insert oneDevicePolicy
    registeredDevices := (Table.empty.insert ⟨"phone", "tenant", "user", .pending, none, none⟩).insert
      ⟨"laptop", "tenant", "user", .pending, none, none⟩
    deviceEnrollmentRequests := (Table.empty.insert
      ⟨"request-1", "tenant", "user", "phone", .pending, none, none⟩).insert
      ⟨"request-2", "tenant", "user", "laptop", .pending, none, none⟩ }

def bothDevices : List DeviceApproval :=
  [⟨"request-1", "phone", "admin", 1⟩, ⟨"request-2", "laptop", "admin", 1⟩]

def refusedAtLimit : Tx Bool → Bool
  | .done (.error e) => decide (e = securityError .deviceLimitReached)
  | _ => false

theorem refusedAtLimit_eq_true {p : Tx Bool} (h : refusedAtLimit p = true) :
    p = .done (.error (securityError .deviceLimitReached)) := by
  unfold refusedAtLimit at h
  split at h
  · rw [of_decide_eq_true h]
  · cases h

/-- The second approval finds the limit reached by the first. -/
theorem second_approval_is_refused : ∃ s : TxState Bool, ∃ c : Call Database Write RowLock
    StatementName Failure Bool, s.calls[1]? = some c ∧
      c.program = .done (.error (securityError .deviceLimitReached)) ∧
      1 ∉ (deviceApprovals "tenant" "user" bothDevices twoPendingDevices).commitOrder
        RowLock.conflicts ([0, 0, 0, 0, 0, 0, 0, 0, 0, 0] ++ [1, 1, 1, 1, 1, 1]) := by
  have hrun : (((deviceApprovals "tenant" "user" bothDevices twoPendingDevices).run
      RowLock.conflicts ([0, 0, 0, 0, 0, 0, 0, 0, 0, 0] ++ [1, 1, 1, 1, 1, 1])).bind fun s =>
        s.calls[1]?.map fun c => refusedAtLimit c.program) = some true := by
    decide +kernel
  obtain ⟨s, hs, hcall⟩ := Option.bind_eq_some_iff.mp hrun
  obtain ⟨c, hc, hresult⟩ := Option.map_eq_some_iff.mp hcall
  have hdone := refusedAtLimit_eq_true hresult
  have hlaw := (approvals_respect_device_limit "tenant" "user" bothDevices twoPendingDevices hs).2.1
  refine ⟨s, c, hc, hdone, fun hmem => ?_⟩
  have hanswer := (hlaw 1 c _ hc hdone).mpr hmem
  cases hanswer

end VerigenceSecurity
