import VerigenceSecurity.InvitationRuns
import VerigenceSecurity.PendingMemberships

/-! # Acceptances

What the commit of an acceptance makes of the rows: the invitation that was pending is accepted by
the user who is bound to it, and this user gets the proposed access, or only requests for it when a
privileged role is proposed.
-/

namespace VerigenceSecurity
set_option autoImplicit false

open Transaction Program Relational OnboardingDatabase

/-! ## Access -/

structure SameAccess (db view : OnboardingDatabase) : Prop where
  roles : view.roles = db.roles
  assignments : view.userRoleAssignments = db.userRoleAssignments
  groups : view.groupMemberships = db.groupMemberships
  locations : view.userLocationAssignments = db.userLocationAssignments
  requests : view.privilegedAccessRequests = db.privilegedAccessRequests

def OnboardingWrite.Quiet (w : OnboardingWrite) : Prop :=
  ∀ db : OnboardingDatabase, SameAccess db (w.apply db)

theorem SameAccess.refl (db : OnboardingDatabase) : SameAccess db db := ⟨rfl, rfl, rfl, rfl, rfl⟩

theorem SameAccess.trans {db view view' : OnboardingDatabase} (h : SameAccess db view)
    (h' : SameAccess view view') : SameAccess db view' where
  roles := h'.roles.trans h.roles
  assignments := h'.assignments.trans h.assignments
  groups := h'.groups.trans h.groups
  locations := h'.locations.trans h.locations
  requests := h'.requests.trans h.requests

/-- What is new among the rows is access that this grant gives, or one of these requests. -/
structure Granted (G : AccessGrant) (access : ProposedAccess) (requests : List PrivilegedAccessRequest)
    (db view : OnboardingDatabase) : Prop where
  assignments : ∀ r ∈ view.userRoleAssignments.rows, r ∈ db.userRoleAssignments.rows ∨
    ∃ roleId ∈ access.roleIds, r = G.roleAssignment roleId
  groups : ∀ r ∈ view.groupMemberships.rows, r ∈ db.groupMemberships.rows ∨
    ∃ groupId ∈ access.groupIds, r = G.groupMembership groupId
  locations : ∀ r ∈ view.userLocationAssignments.rows, r ∈ db.userLocationAssignments.rows ∨
    ∃ location ∈ access.locationAssignments, r = G.locationAssignment location
  requests : ∀ r ∈ view.privilegedAccessRequests.rows, r ∈ db.privilegedAccessRequests.rows ∨
    r ∈ requests

def OnboardingWrite.Granting (G : AccessGrant) (access : ProposedAccess)
    (requests : List PrivilegedAccessRequest) : OnboardingWrite → Prop
  | stored (.insertUserRoleAssignment r) => ∃ roleId ∈ access.roleIds, r = G.roleAssignment roleId
  | stored (.insertGroupMembership r) => ∃ groupId ∈ access.groupIds, r = G.groupMembership groupId
  | insertUserLocationAssignment r =>
    ∃ location ∈ access.locationAssignments, r = G.locationAssignment location
  | stored (.insertPrivilegedAccessRequest r) => r ∈ requests
  | _ => False

section Granted

variable {G : AccessGrant} {access : ProposedAccess} {requests : List PrivilegedAccessRequest}
  {db view view' : OnboardingDatabase}

theorem SameAccess.granted (h : SameAccess db view) : Granted G access requests db view where
  assignments _ hr := Or.inl (h.assignments ▸ hr)
  groups _ hr := Or.inl (h.groups ▸ hr)
  locations _ hr := Or.inl (h.locations ▸ hr)
  requests _ hr := Or.inl (h.requests ▸ hr)

theorem Granted.same (h : Granted G access requests db view) (h' : SameAccess view view') :
    Granted G access requests db view' where
  assignments r hr := h.assignments r (h'.assignments ▸ hr)
  groups r hr := h.groups r (h'.groups ▸ hr)
  locations r hr := h.locations r (h'.locations ▸ hr)
  requests r hr := h.requests r (h'.requests ▸ hr)

/-- A row of a table into which one row is inserted, or not. -/
theorem mem_of_insertion {ρ κ : Type} [DecidableEq κ] {keys : ρ → List κ} {c : Prop} [Decidable c]
    {t : Table ρ κ keys} {row r : ρ} (h : r ∈ (if c then t.insert row else t).rows) :
    r ∈ t.rows ∨ r = row := by
  split at h
  · exact Table.mem_insert h
  · exact Or.inl h

theorem Granted.apply {w : OnboardingWrite} (h : Granted G access requests db view)
    (hw : w.Quiet ∨ w.Granting G access requests) : Granted G access requests db (w.apply view) := by
  rcases hw with hquiet | hgranting
  · exact h.same (hquiet view)
  cases w with
  | stored write =>
    cases write with
    | insertUserRoleAssignment row =>
      refine { h with assignments := fun r hr => ?_ }
      rcases mem_of_insertion hr with hold | hnew
      · exact h.assignments r hold
      · rw [hnew]
        exact Or.inr hgranting
    | insertGroupMembership row =>
      refine { h with groups := fun r hr => ?_ }
      rcases mem_of_insertion hr with hold | hnew
      · exact h.groups r hold
      · rw [hnew]
        exact Or.inr hgranting
    | insertPrivilegedAccessRequest row =>
      refine { h with requests := fun r hr => ?_ }
      rcases Table.mem_insert hr with hold | hnew
      · exact h.requests r hold
      · rw [hnew]
        exact Or.inr hgranting
    | _ => exact hgranting.elim
  | insertUserLocationAssignment row =>
    refine { h with locations := fun r hr => ?_ }
    rcases Table.mem_insert hr with hold | hnew
    · exact h.locations r hold
    · rw [hnew]
      exact Or.inr hgranting
  | _ => exact hgranting.elim

end Granted

/-! ## Roles -/

namespace OnboardingDatabase

def PrivilegedRole (db : OnboardingDatabase) (tenantId roleId : Uuid) : Prop :=
  ∃ r ∈ db.roles.rows, r.tenantId = tenantId ∧ r.roleId = roleId ∧
    r.roleKey ∈ onboardingPrivilegedRoleKeys

def OrdinaryRole (db : OnboardingDatabase) (tenantId roleId : Uuid) : Prop :=
  ∃ r ∈ db.roles.rows, r.tenantId = tenantId ∧ r.roleId = roleId ∧
    r.roleKey ∉ onboardingPrivilegedRoleKeys

end OnboardingDatabase

/-- A role keeps its key, so it stays privileged or ordinary. -/
theorem OnboardingDatabase.CarriedInto.role {db db' : OnboardingDatabase} (h : CarriedInto db db')
    (P : String → Prop) {t roleId : Uuid}
    (hrole : ∃ r ∈ db.roles.rows, r.tenantId = t ∧ r.roleId = roleId ∧ P r.roleKey) :
    ∃ r ∈ db'.roles.rows, r.tenantId = t ∧ r.roleId = roleId ∧ P r.roleKey := by
  obtain ⟨r, hr, ht, hid, hkey⟩ := hrole
  obtain ⟨r', hr', hsame⟩ := h.roles r hr
  obtain ⟨hid', ht', hkey', _⟩ := by simpa using hsame.identity
  exact ⟨r', hr', ht'.trans ht, hid'.trans hid, hkey' ▸ hkey⟩

structure Sorted (tenantId : Uuid) (roleIds privileged : List Uuid) (db : OnboardingDatabase) :
    Prop where
  ordinary : ∀ roleId ∈ roleIds, roleId ∈ privileged ∨ db.OrdinaryRole tenantId roleId
  privileged : ∀ roleId ∈ privileged, roleId ∈ roleIds ∧ db.PrivilegedRole tenantId roleId

section Validated

variable {g : OnboardingProgress} {tenantId : Uuid}
  {rely : OnboardingProgress → OnboardingDatabase → Prop}

def SameRoles (db view : OnboardingDatabase) : Prop := view.roles = db.roles

theorem roleKeyOf_yields {roleId : Uuid} (hsteady : Steady rely)
    (hrely : ∀ g db, rely g db → OnboardingRely g db) (h : g.Ensures rely SameRoles) :
    (roleKeyOf tenantId roleId).Yields rely (fun key g' =>
      g'.Ensures rely fun db view => SameRoles db view ∧
        ∃ r ∈ db.roles.rows, r.tenantId = tenantId ∧ r.roleId = roleId ∧ r.roleKey = key) g := by
  apply yields_query
  intro db key hdb hfound
  cases hkey : (replayAll g.pending db).activeRoleKey? tenantId roleId with
  | none =>
    rw [hkey] at hfound
    cases hfound
  | some found =>
    rw [hkey] at hfound
    cases hfound
    obtain ⟨r, hr, rfl⟩ := Option.map_eq_some_iff.mp hkey
    have hrow : r ∈ db.roles.rows := by
      rw [← h db hdb]
      exact List.mem_of_find?_eq_some hr
    have hfirst := List.find?_some hr
    have hmatch := of_decide_eq_true hfirst
    intro db' hdb'
    have hbefore := hsteady.earlier hdb hdb'
    have hcarried : CarriedInto db db' := (hrely _ _ hdb').carried _ List.mem_cons_self
    refine ⟨?_, hcarried.role (· = r.roleKey) ⟨r, hrow, hmatch.1, hmatch.2.1, rfl⟩⟩
    simp only [Progress.ran, List.append_nil]
    exact h db' hbefore

theorem validatedRoles_yields {roleIds : List Uuid} (hsteady : Steady rely)
    (hrely : ∀ g db, rely g db → OnboardingRely g db) (h : g.Ensures rely SameRoles) :
    (validatedRoles tenantId roleIds).Yields rely (fun privileged g' =>
      g'.Ensures rely fun db view => SameRoles db view ∧
        Sorted tenantId roleIds privileged db) g := by
  induction roleIds generalizing g with
  | nil =>
    refine yields_pure (h.weaken fun db view hsame => ⟨hsame, ?_, ?_⟩)
    · exact List.forall_mem_nil _
    · exact List.forall_mem_nil _
  | cons roleId rest ih =>
    refine yields_bind ((roleKeyOf_yields hsteady hrely h).weaken fun key g₁ h₁ => ?_)
    have hsame : g₁.Ensures rely SameRoles := h₁.weaken fun db view hview => hview.1
    have hkeeps : (validatedRoles tenantId rest).Yields rely (fun _ g' =>
        g'.Ensures rely fun db _ => ∃ r ∈ db.roles.rows, r.tenantId = tenantId ∧
          r.roleId = roleId ∧ r.roleKey = key) g₁ :=
      yields_ensures (validatedRoles_reads _ _) hsteady (fun _ _ _ hno => hno.elim)
        (h₁.weaken fun db view hview => hview.2) fun _ _ h => h
    refine yields_bind (((ih hsame).and hkeeps).weaken fun privileged g₂ ⟨hrest, hkey⟩ => ?_)
    refine yields_pure fun db hdb => ?_
    obtain ⟨hroles, hsorted⟩ := hrest db hdb
    obtain ⟨r, hr, ht, hid, hrkey⟩ := hkey db hdb
    refine ⟨hroles, ?_⟩
    split
    · rename_i hprivileged
      refine ⟨fun id hin => ?_, fun id hin => ?_⟩
      · rcases List.mem_cons.mp hin with rfl | hin
        · exact Or.inl List.mem_cons_self
        · exact (hsorted.ordinary id hin).imp_left (List.mem_cons_of_mem _)
      · rcases List.mem_cons.mp hin with rfl | hin
        · exact ⟨List.mem_cons_self, r, hr, ht, hid, hrkey ▸ hprivileged⟩
        · exact ⟨List.mem_cons_of_mem _ (hsorted.privileged id hin).1, (hsorted.privileged id hin).2⟩
    · rename_i hordinary
      refine ⟨fun id hin => ?_, fun id hin => ?_⟩
      · rcases List.mem_cons.mp hin with rfl | hin
        · exact Or.inr ⟨r, hr, ht, hid, hrkey ▸ hordinary⟩
        · exact hsorted.ordinary id hin
      · exact ⟨List.mem_cons_of_mem _ (hsorted.privileged id hin).1, (hsorted.privileged id hin).2⟩

theorem validatedAccess_yields {access : ProposedAccess} (hsteady : Steady rely)
    (hrely : ∀ g db, rely g db → OnboardingRely g db) (h : g.Ensures rely SameRoles) :
    (validatedAccess tenantId access).Yields rely (fun validated g' =>
      validated.access = ⟨access.roleIds.eraseDups, access.groupIds.eraseDups,
        access.locationAssignments.eraseDups⟩ ∧ g'.Ensures rely fun db _ =>
          Sorted tenantId access.roleIds.eraseDups validated.privilegedRoleIds db) g := by
  refine yields_bind ((validatedRoles_yields hsteady hrely h).weaken fun privileged g₁ h₁ => ?_)
  have hsorted : g₁.Ensures rely fun db _ =>
      Sorted tenantId access.roleIds.eraseDups privileged db := h₁.weaken fun db view hview => hview.2
  refine yields_bind (yields_ensures (within_each fun group _ => within_query) hsteady
    (fun _ _ _ hno => False.elim hno) hsorted fun _ g₂ h₂ => ?_)
  refine yields_bind (yields_ensures (within_each fun location _ => within_query) hsteady
    (fun _ _ _ hno => False.elim hno) h₂ fun _ g₃ h₃ => ?_)
  exact yields_pure ⟨rfl, h₃⟩

end Validated

/-! ## The identity of an acceptance -/

structure Accepting (row final : TenantInvitation) (id userId : Uuid) (g : OnboardingProgress) :
    Prop where
  closes : Closes row final g
  awaiting : g.Ensures InvitationRely fun db view =>
    Awaiting id row.tenantId userId db view ∧ SameAccess db view

structure OnboardingWrite.Minor (row : TenantInvitation) (userId : Uuid) (w : OnboardingWrite) :
    Prop where
  closing : w.Closing row
  keeps : w.KeepsInvitations
  spares : w.Sparing row.tenantId userId
  unactivating : w.Unactivating
  quiet : w.Quiet

section Identity

variable {α : Type} {g : OnboardingProgress} {row final : TenantInvitation} {id userId : Uuid}
  {c : AcceptInvitationCall}

theorem Accepting.yields {p : OnboardingTx α} {post : α → OnboardingProgress → Prop}
    (hp : p.Within (OnboardingWrite.Minor row userId)) (h : Accepting row final id userId g)
    (hpost : ∀ a g', Accepting row final id userId g' → post a g') : p.Yields InvitationRely post g := by
  have hcloses : p.Yields InvitationRely (fun _ g' => Closes row final g') g :=
    h.closes.yields (hp.weaken fun w hw => ⟨hw.closing, hw.keeps⟩) fun _ _ h => h
  have hawaits : p.Yields InvitationRely (fun _ g' => g'.Ensures InvitationRely fun db view =>
      Awaiting id row.tenantId userId db view ∧ SameAccess db view) g := by
    refine yields_ensures hp steady_invitationRely (fun w db view hw hview => ?_) h.awaiting
      fun _ _ h => h
    exact ⟨hview.1.apply hw.spares hw.unactivating, hview.2.trans (hw.quiet view)⟩
  exact (hcloses.and hawaits).weaken fun a g' hg' => hpost a g' ⟨hg'.1, hg'.2⟩

theorem LockedInvitation.accepting (h : LockedInvitation row g) (hg : g.pending = [])
    (hpending : row.status = .pending) : ∃ id, Accepting row row id row.invitedUserId g := by
  obtain ⟨id, hmember⟩ := h.member hpending
  refine ⟨id, h.closes hg, ensures_start hg fun db hdb => ?_⟩
  exact ⟨⟨hmember db hdb, fun hactive => hactive⟩, SameAccess.refl db⟩

structure Removed (row : TenantInvitation) (ids : List Uuid) (g : OnboardingProgress) : Prop where
  members : ∀ id ∈ ids, (memberLease id row.tenantId row.invitedUserId).Found g
  removed : g.Ensures InvitationRely fun db view =>
    view.tenantMemberships = db.tenantMemberships.delete
      (TenantMembership.isPendingOf ids row.tenantId row.invitedUserId) ∧ SameAccess db view

theorem deleteMembership_yields {locks : Uuid → List OnboardingLock}
    (hlocks : ∀ id, membershipLock id .update ∈ locks id)
    {check : OnboardingDatabase → List Uuid → Option Failure} (hcloses : Closes row final g)
    (hg : g.pending = []) :
    (changeWhere .deleteMembership
      (·.pendingMembershipIds row.tenantId row.invitedUserId) locks check
      (.deletePendingMembership · row.tenantId row.invitedUserId)).Yields InvitationRely
        (fun _ g' => Closes row final g' ∧ ∃ ids, Removed row ids g') g := by
  refine Yields.and ?_ ?_
  · refine hcloses.yields (within_changeWhere fun ids => ?_) fun _ _ h => h
    exact ⟨⟨rfl, rfl⟩, fun _ => rfl⟩
  apply yields_bind
  apply yields_query
  intro db₀ found hdb₀ _
  have hg₁ : (g.ran (.snapshot .deleteMembership) db₀
      (⟨found, [], []⟩ : Outcome OnboardingWrite OnboardingLock (List Uuid))).pending = [] :=
    pending_ran hg
  apply yields_execute
  intro db o hdb ho
  rw [hg₁, replayAll_nil] at ho
  dsimp only at ho
  split at ho
  · cases ho
  cases ho
  refine ⟨(db.pendingMembershipIds row.tenantId row.invitedUserId).filter fun id => decide (id ∈ found),
    fun id hid => ?_, fun db' _ => ?_⟩
  · refine Lease.found_ran (List.mem_flatMap.mpr ⟨id, hid, hlocks id⟩) ?_
    obtain ⟨m, hm, hmid⟩ := List.mem_map.mp (List.mem_filter.mp hid).1
    obtain ⟨hrow, hsel⟩ := List.mem_filter.mp hm
    obtain ⟨ht, hu, hpending⟩ := of_decide_eq_true hsel
    exact ⟨m, hrow, hmid, ht, hu, hpending⟩
  · rw [pending_ran hg₁]
    exact ⟨rfl, rfl, rfl, rfl, rfl, rfl⟩

theorem insertMembership_yields {ids : List Uuid} (hcloses : Closes row final g)
    (h : Removed row ids g) (membershipId : Uuid) :
    (insertMembership (pendingMembership membershipId row.tenantId userId)).Yields InvitationRely
      (fun _ g' => Accepting row final membershipId userId g') g := by
  apply yields_execute
  intro db o hdb ho
  obtain ⟨hfree, hedits, hlocks⟩ := insertChecked_ok ho
  constructor
  · refine hcloses.ran hdb _ o (fun w hw => ?_) fun view hview => ?_
    · rw [hedits] at hw
      rw [List.mem_singleton.mp hw]
      trivial
    · rw [hedits]
      exact hview
  intro db' hdb'
  have hbefore := steady_invitationRely.earlier hdb hdb'
  obtain ⟨hmembers, hsame⟩ := h.removed db' hbefore
  have hentries : ∀ k ∈ Row.entries (pendingMembership membershipId row.tenantId userId),
      k ∉ (replayAll g.pending db').tenantMemberships.taken := by
    intro k hk
    have hview := Table.isSome_insert?_iff_taken.mp hfree k hk
    rw [(h.removed db hdb).1] at hview
    rw [hmembers]
    refine free_after_delete hview (fun hnow => ?_) fun id hid => ?_
    · have hlock : (freeMembershipLease k).lock ∈ o.locks := hlocks _ (List.mem_map.mpr ⟨k, hk, rfl⟩)
      have hfound : (freeMembershipLease k).Found (g.ran .insertMembership db o) :=
        Lease.found_ran hlock hnow
      exact hfound.holds (hdb'.leases (.free k))
    · exact ((h.members id hid).ran (hdb.leases (.member _ _ _)) _ o).holds
        (hdb'.leases (.member _ _ _))
  have hpending : replayAll (g.ran .insertMembership db o).pending db' =
      (OnboardingWrite.insertMembership (pendingMembership membershipId row.tenantId userId)).apply
        (replayAll g.pending db') := by
    simp only [Progress.ran, hedits, replayAll_append, replayAll_cons, replayAll_nil, onboarding_replay]
  rw [hpending]
  refine ⟨⟨⟨_, Table.mem_insert_of_free hentries, rfl, rfl, rfl, Or.inl rfl⟩, fun hactive => ?_⟩,
    hsame.trans ⟨rfl, rfl, rfl, rfl, rfl⟩⟩
  have hnew : (OnboardingWrite.insertMembership
      (pendingMembership membershipId row.tenantId userId)).Unactivating := by
    intro hstatus
    cases hstatus
  obtain ⟨m, hm, hfields⟩ := OnboardingWrite.activeMember_of_unactivating hnew hactive
  rw [hmembers] at hm
  exact ⟨m, (Table.mem_delete.mp hm).1, hfields⟩

def rebound (row : TenantInvitation) (userId : Uuid) : TenantInvitation :=
  { row with invitedUserId := userId }

theorem bindKnownUser_yields {post : Uuid → OnboardingProgress → Prop} (hcloses : Closes row row g)
    (hg : g.pending = []) (hid : row.invitationId = c.invitationId)
    (hpost : ∀ g', Accepting row (rebound row userId) c.membershipId userId g' → post userId g') :
    (bindKnownUser c row userId).Yields InvitationRely post g := by
  have hfirst := (hcloses.yields (p := query .membership fun db =>
    .ok (db.membership? row.tenantId userId).isSome) within_query fun _ _ h => h).and
      (yields_reads within_query hg fun _ _ h => h)
  refine yields_bind (hfirst.weaken fun member g₁ ⟨hcloses₁, hg₁⟩ => ?_)
  split
  · exact yields_raise _
  refine yields_bind ((deleteMembership_yields (fun id => List.mem_cons_self) hcloses₁ hg₁).weaken
    fun _ g₂ ⟨hcloses₂, ids, hremoved₂⟩ => ?_)
  refine yields_bind (yields_execute fun db o hdb ho => ?_)
  split at ho
  · cases ho
  cases ho
  have hcloses₃ : Closes row (rebound row userId) (g₂.ran .rebindInvitation db
      ⟨(), [.rebindInvitation c.invitationId userId], [ownLock .tenantInvitations c.invitationId
        .noKeyUpdate, ((replayAll g₂.pending db).userRef userId).lock]⟩) := by
    refine hcloses₂.ran hdb _ _ (fun w hw => ?_) fun view hview => ?_
    · rw [List.mem_singleton.mp hw]
      exact hid.symm
    · simp only [replayAll_cons, replayAll_nil, onboarding_replay, OnboardingWrite.apply, setInvitations]
      exact Table.mem_update_set hview (decide_eq_true hid)
  have hremoved₃ : Removed row ids (g₂.ran .rebindInvitation db
      ⟨(), [.rebindInvitation c.invitationId userId], [ownLock .tenantInvitations c.invitationId
        .noKeyUpdate, ((replayAll g₂.pending db).userRef userId).lock]⟩) := by
    refine ⟨fun id hin => (hremoved₂.members id hin).ran (hdb.leases (.member ..)) _ _, ?_⟩
    refine hremoved₂.removed.ran steady_invitationRely hdb _ _ fun a view hview => ?_
    exact ⟨hview.1, hview.2.trans ⟨rfl, rfl, rfl, rfl, rfl⟩⟩
  refine yields_bind ((insertMembership_yields hcloses₃ hremoved₃ c.membershipId).weaken
    fun _ g₄ h₄ => ?_)
  have hminor : OnboardingWrite.Minor row userId (.deleteUser row.invitedUserId) :=
    ⟨trivial, fun _ => rfl, trivial, trivial, fun _ => ⟨rfl, rfl, rfl, rfl, rfl⟩⟩
  refine yields_bind (h₄.yields (within_single hminor) fun _ g₅ h₅ => ?_)
  have hminor' : OnboardingWrite.Minor row userId (.deletePrincipal row.invitedUserId) :=
    ⟨trivial, fun _ => rfl, trivial, trivial, fun _ => ⟨rfl, rfl, rfl, rfl, rfl⟩⟩
  refine yields_bind (h₅.yields (within_single hminor') fun _ g₆ h₆ => ?_)
  exact yields_pure (hpost g₆ h₆)

theorem minor_insertExternalIdentity (row : TenantInvitation) (userId : Uuid) (r : ExternalIdentity) :
    OnboardingWrite.Minor row userId (.stored (.insertExternalIdentity r)) :=
  ⟨trivial, fun _ => rfl, trivial, trivial, fun _ => ⟨rfl, rfl, rfl, rfl, rfl⟩⟩

theorem bindInvitationIdentity_yields {post : Uuid → OnboardingProgress → Prop}
    (h : LockedInvitation row g) (hg : g.pending = []) (hpending : row.status = .pending)
    (hid : row.invitationId = c.invitationId)
    (hpost : ∀ id userId g', Accepting row (rebound row userId) id userId g' → post userId g') :
    (bindInvitationIdentity c row).Yields InvitationRely post g := by
  obtain ⟨id, haccepting⟩ := h.accepting hg hpending
  have hread : (query .identity fun db => .ok (db.boundIdentity? c.identityProvider
      c.identitySubject) : OnboardingTx (Option BoundIdentity)).Within
        (OnboardingWrite.Minor row row.invitedUserId) := within_query
  have hfirst := (haccepting.yields hread fun _ _ h => h).and
    (yields_reads within_query hg fun _ _ h => h)
  refine yields_bind (hfirst.weaken fun found g₁ ⟨h₁, hg₁⟩ => ?_)
  cases found with
  | none =>
    refine yields_bind (h₁.yields (storedPart.within_program (Q := fun w => ∃ r, w =
      .insertExternalIdentity r) (within_execute fun db o ho w hw => ?_) ?_) fun _ g₂ h₂ => ?_)
    · rw [(insertRow_ok ho).2.2, List.mem_singleton] at hw
      exact ⟨_, hw⟩
    · rintro w ⟨r, rfl⟩
      exact minor_insertExternalIdentity row _ r
    · exact yields_pure (hpost id _ g₂ h₂)
  | some identity =>
    dsimp only
    split
    · exact yields_raise _
    split
    · exact yields_pure (hpost id _ g₁ h₁)
    split
    · exact yields_raise _
    exact bindKnownUser_yields h₁.closes hg₁ hid fun g' hg' => hpost _ _ g' hg'

end Identity

/-! ## The access of an acceptance -/

/-- With a privileged role there are only requests; otherwise the user is an active member with at
most the proposed access. -/
def AccessGiven (G : AccessGrant) (access : ProposedAccess) (privileged : List Uuid)
    (request : Uuid → PrivilegedAccessRequest) (status : MembershipStatus)
    (db view : OnboardingDatabase) : Prop :=
  privileged = [] ∧ status = .active ∧ view.ActiveMember G.tenantId G.userId ∧
      Granted G access [] db view ∨
    privileged ≠ [] ∧ status = .pending ∧ (∃ id, view.HasMember id G.tenantId G.userId) ∧
      Granted G ⟨[], [], []⟩ (privileged.map request) db view

section Access

variable {g : OnboardingProgress} {row final : TenantInvitation} {id userId : Uuid}
  {c : AcceptInvitationCall}

theorem materialize_granting (G : AccessGrant) (access : ProposedAccess) :
    (G.materialize access).Within fun w => w.Quiet ∨ w.Granting G access [] := by
  refine within_bind (within_changeWhere fun ids => Or.inl fun db => ⟨rfl, rfl, rfl, rfl, rfl⟩)
    fun _ => ?_
  refine within_bind (within_each fun roleId hrole =>
    within_insertUnlessTaken (Or.inr ⟨roleId, hrole, rfl⟩)) fun _ => ?_
  refine within_bind (within_each fun groupId hgroup =>
    within_insertUnlessTaken (Or.inr ⟨groupId, hgroup, rfl⟩)) fun _ => ?_
  exact within_each fun location hlocation =>
    within_insertUnlessTaken (Or.inr ⟨location, hlocation, rfl⟩)

theorem materialize_activates {rely : OnboardingProgress → OnboardingDatabase → Prop} {G : AccessGrant}
    {access : ProposedAccess} (hsteady : Steady rely) (hrely : ∀ g db, rely g db → OnboardingRely g db)
    (h : g.Ensures rely (Awaiting id G.tenantId G.userId)) : (G.materialize access).Yields rely
      (fun _ g' => g'.Ensures rely fun _ view => view.ActiveMember G.tenantId G.userId) g := by
  refine yields_bind ((activate_yields hsteady hrely h).weaken fun _ g₁ h₁ => ?_)
  refine yields_ensures (Q := fun _ => True) ?_ hsteady
    (fun w _ _ _ hactive => OnboardingWrite.activeMember_apply w hactive) h₁ fun _ _ h => h
  refine within_bind (within_each fun roleId _ => within_insertUnlessTaken trivial) fun _ => ?_
  refine within_bind (within_each fun groupId _ => within_insertUnlessTaken trivial) fun _ => ?_
  exact within_each fun location _ => within_insertUnlessTaken trivial

theorem grantOrRequest_yields {validated : ValidatedAccess} (h : Accepting row final id userId g) :
    (grantOrRequest c row userId validated).Yields InvitationRely (fun status g' =>
      Closes row final g' ∧ g'.Ensures InvitationRely (AccessGiven (c.grant row userId) validated.access
        validated.privilegedRoleIds (invitationRequest c row userId) status)) g := by
  unfold grantOrRequest
  split
  · rename_i hprivileged
    have hwrites : (each (fun roleId => insertInvitationRequest (invitationRequest c row userId roleId)
        c.invitationId) validated.privilegedRoleIds).Within fun w => ∃ r,
          r ∈ validated.privilegedRoleIds.map (invitationRequest c row userId) ∧
            w = .stored (.insertPrivilegedAccessRequest r) :=
      within_each fun roleId hrole => within_insertChecked ⟨_, List.mem_map_of_mem hrole, rfl⟩
    have hcloses := h.closes.yields (hwrites.weaken fun w ⟨r, _, hw⟩ => by
      rw [hw]
      exact ⟨trivial, fun _ => rfl⟩) fun _ _ h => h
    have hgranted := yields_ensures hwrites steady_invitationRely (R := fun db view =>
      Awaiting id row.tenantId userId db view ∧ Granted (c.grant row userId) ⟨[], [], []⟩
        (validated.privilegedRoleIds.map (invitationRequest c row userId)) db view) (by
      rintro w db view ⟨r, hr, rfl⟩ ⟨hawaits, hview⟩
      exact ⟨hawaits.apply trivial trivial, hview.apply (Or.inr hr)⟩)
      (h.awaiting.weaken fun db view hview => ⟨hview.1, hview.2.granted⟩) fun _ _ h => h
    refine yields_bind ((hcloses.and hgranted).weaken fun _ g' hg' => yields_pure ⟨hg'.1, ?_⟩)
    exact hg'.2.weaken fun db view hview => Or.inr ⟨hprivileged, rfl, ⟨id, hview.1.1⟩, hview.2⟩
  · rename_i hordinary
    have hcloses := h.closes.yields (p := (c.grant row userId).materialize validated.access)
      (within_materialize (fun w => ⟨trivial, fun _ => rfl⟩) (fun _ _ _ _ => ⟨trivial, fun _ => rfl⟩)
        (fun _ => ⟨trivial, fun _ => rfl⟩) _ _) fun _ _ h => h
    have hactive : ((c.grant row userId).materialize validated.access).Yields InvitationRely
        (fun _ g' => g'.Ensures InvitationRely fun _ view => view.ActiveMember row.tenantId userId) g :=
      materialize_activates steady_invitationRely (fun _ _ h => h.toOnboardingRely)
        (h.awaiting.weaken fun db view hview => hview.1)
    have hgranted := yields_ensures (materialize_granting (c.grant row userId) validated.access)
      steady_invitationRely (fun w _ _ hw hview => Granted.apply hview hw)
      (h.awaiting.weaken fun db view hview => hview.2.granted) fun _ _ h => h
    refine yields_bind ((hcloses.and (hactive.and hgranted)).weaken fun _ g' hg' => ?_)
    refine yields_pure ⟨hg'.1, fun db hdb => Or.inl ⟨not_not.mp hordinary, rfl, ?_, ?_⟩⟩
    · exact hg'.2.1 db hdb
    · exact hg'.2.2 db hdb

end Access

/-! ## `accept_invitation` -/

def ProposedAccess.distinct (access : ProposedAccess) : ProposedAccess :=
  ⟨access.roleIds.eraseDups, access.groupIds.eraseDups, access.locationAssignments.eraseDups⟩

/-- The commit of an acceptance, for the invitation that was pending until then. -/
structure AcceptedAtCommit (verify : String → String → Bool) (c : AcceptInvitationCall)
    (a : AcceptedInvitation) (row : TenantInvitation) (before after : OnboardingDatabase) : Prop where
  mem : row ∈ before.tenantInvitations.rows
  id : row.invitationId = c.invitationId
  pending : row.status = .pending
  unexpired : c.now < row.expiresAt
  secret : verify row.acceptanceTokenHash c.acceptanceToken = true
  answer : a.invitationId = c.invitationId ∧ a.tenantId = row.tenantId ∧ a.status = .accepted
  accepted : (rebound row a.userId).accept c.now ∈ after.tenantInvitations.rows
  access : ∃ privileged, a.privilegedAccessRequestIds = privileged.map c.requestId ∧
    Sorted row.tenantId row.proposedAccess.distinct.roleIds privileged before ∧
    AccessGiven (c.grant row a.userId) row.proposedAccess.distinct privileged
      (invitationRequest c row a.userId) a.membershipStatus before after

section Acceptance

variable {g : OnboardingProgress} {row : TenantInvitation} {verify : String → String → Bool}
  {c : AcceptInvitationCall}

theorem known_yields {α : Type} {rely : OnboardingProgress → OnboardingDatabase → Prop}
    {p : OnboardingTx α} {Q : OnboardingWrite → Prop} {K : OnboardingDatabase → Prop} (hp : p.Within Q)
    (hsteady : Steady rely) (h : g.Ensures rely fun db _ => K db) :
    p.Yields rely (fun _ g' => g'.Ensures rely fun db _ => K db) g :=
  yields_ensures hp hsteady (fun _ _ _ _ hK => hK) h fun _ _ h => h

theorem minor_activateInvitedUser (row : TenantInvitation) (userId : Uuid) (now : Instant) :
    OnboardingWrite.Minor row userId (.activateInvitedUser userId now) :=
  ⟨trivial, fun _ => rfl, trivial, trivial, fun _ => ⟨rfl, rfl, rfl, rfl, rfl⟩⟩

/-- The invitation itself is accepted. -/
theorem acceptRow_yields {id userId : Uuid} {name : OnboardingStatement}
    (h : Accepting row (rebound row userId) id userId g) (hid : row.invitationId = c.invitationId) :
    (updateInvitation name c.invitationId (.acceptInvitation c.invitationId c.now)).Yields
      InvitationRely (fun _ g' => Accepting row ((rebound row userId).accept c.now) id userId g') g := by
  apply yields_execute
  intro db o hdb ho
  cases ho
  refine ⟨h.closes.ran hdb _ _ (fun w hw => ?_) fun view hview => ?_, ?_⟩
  · rw [List.mem_singleton.mp hw]
    exact hid.symm
  · simp only [replayAll_cons, replayAll_nil, onboarding_replay, OnboardingWrite.apply, setInvitations]
    exact Table.mem_update_set hview (decide_eq_true hid)
  · refine h.awaiting.ran steady_invitationRely hdb _ _ fun a view hview => ?_
    exact ⟨hview.1.apply (w := .acceptInvitation c.invitationId c.now) trivial trivial,
      hview.2.trans ⟨rfl, rfl, rfl, rfl, rfl⟩⟩

theorem acceptPending_settles (h : LockedInvitation row g) (hg : g.pending = [])
    (hpending : row.status = .pending) (hid : row.invitationId = c.invitationId)
    (hunexpired : c.now < row.expiresAt)
    (hsecret : verify row.acceptanceTokenHash c.acceptanceToken = true) :
    (acceptPending c row).Settles (invitationSettlement (fun a before after =>
      ∃ row, AcceptedAtCommit verify c a row before after) fun _ => False) g := by
  refine settles_bind (bindInvitationIdentity_yields h hg hpending hid fun id userId g₁ h₁ => ?_)
  have hsame : g₁.Ensures InvitationRely SameRoles := h₁.awaiting.weaken fun _ _ hview => hview.2.roles
  have hread := (h₁.yields (p := validatedAccess row.tenantId row.proposedAccess)
    ((validatedAccess_reads _ _).weaken fun _ hno => hno.elim) fun _ _ h => h).and
      (validatedAccess_yields steady_invitationRely (fun _ _ h => h.toOnboardingRely) hsame)
  refine settles_bind (hread.weaken fun validated g₂ ⟨h₂, haccess, hsorted₂⟩ => ?_)
  have huser : (updateUser .activateUser userId (.activateInvitedUser userId c.now)).Within
      (OnboardingWrite.Minor row userId) := within_updateUser (minor_activateInvitedUser row userId c.now)
  refine settles_bind (((h₂.yields huser fun _ _ h => h).and
    (known_yields huser steady_invitationRely hsorted₂)).weaken fun _ g₃ ⟨h₃, hsorted₃⟩ => ?_)
  have haccept : (updateInvitation .acceptInvitation c.invitationId
      (.acceptInvitation c.invitationId c.now)).Within fun _ => True := within_updateInvitation trivial
  refine settles_bind (((acceptRow_yields h₃ hid).and
    (known_yields haccept steady_invitationRely hsorted₃)).weaken fun _ g₄ ⟨h₄, hsorted₄⟩ => ?_)
  have hgrant : (grantOrRequest c row userId validated).Within fun _ => True := by
    unfold grantOrRequest
    split
    · exact within_bind (within_each fun _ _ => within_insertChecked trivial) fun _ => within_pure _
    · exact within_bind (within_materialize (fun _ => trivial) (fun _ _ _ _ => trivial)
        (fun _ => trivial) _ _) fun _ => within_pure _
  refine settles_bind (((grantOrRequest_yields h₄).and
    (known_yields hgrant steady_invitationRely hsorted₄)).weaken fun status g₅ ⟨⟨hcloses₅, hgiven₅⟩, hsorted₅⟩ => ?_)
  have haudit : (recordChange c.changeId c.correlationId row.tenantId userId "security.invitation.accept"
      "INVITATION" c.invitationId c.now).Within fun w => ∃ r, w = .stored (.insertAdminChange r) :=
    within_insertChecked ⟨_, rfl⟩
  have hcloses := hcloses₅.yields (haudit.weaken fun w ⟨r, hw⟩ => by
    rw [hw]
    exact ⟨trivial, fun _ => rfl⟩) fun _ _ h => h
  have hgiven := yields_ensures haudit steady_invitationRely (R := AccessGiven (c.grant row userId)
    validated.access validated.privilegedRoleIds (invitationRequest c row userId) status) (by
    rintro w db view ⟨r, rfl⟩ hview
    rcases hview with ⟨hnone, hstatus, hactive, hgranted⟩ | ⟨hsome, hstatus, ⟨id, hmember⟩, hgranted⟩
    · exact Or.inl ⟨hnone, hstatus, OnboardingWrite.activeMember_apply _ hactive,
        hgranted.same ⟨rfl, rfl, rfl, rfl, rfl⟩⟩
    · exact Or.inr ⟨hsome, hstatus, ⟨id, OnboardingWrite.hasMember_of_sparing trivial hmember⟩,
        hgranted.same ⟨rfl, rfl, rfl, rfl, rfl⟩⟩) hgiven₅ fun _ _ h => h
  refine settles_bind (((hcloses.and hgiven).and
    (known_yields haudit steady_invitationRely hsorted₅)).weaken fun _ g₆ ⟨⟨hcloses₆, hgiven₆⟩, hsorted₆⟩ => ?_)
  refine settled_answers fun db hdb => ?_
  obtain ⟨hrow, hlive, hlater⟩ := hcloses₆.commits hpending rfl InvitationStatus.noConfusion hdb
  have hgiven := hgiven₆ db hdb
  rw [haccess] at hgiven
  exact ⟨hlive, hlater, row, hrow, hid, hpending, hunexpired, hsecret, ⟨rfl, rfl, rfl⟩,
    hcloses₆.final db hdb, _, rfl, hsorted₆ db hdb, hgiven⟩

theorem acceptInvitation_settles (verify : String → String → Bool) (c : AcceptInvitationCall) :
    (acceptInvitation verify c).Settles (invitationSettlement (fun a before after =>
      ∃ row, AcceptedAtCommit verify c a row before after) fun _ => False) Progress.start := by
  refine settles_bind (lockInvitation_yields rfl (fun g₁ hg₁ => ?_) ?_)
  · exact settles_raise _
  intro row g₁ hid _ hg₁ hlocked
  dsimp only
  split
  · exact settles_raise _
  rename_i hstatus
  have hpending : row.status = .pending := not_not.mp hstatus
  split
  · -- An invitation that has expired is settled, and nobody gets an answer.
    refine settles_bind (yields_execute fun db o hdb ho => ?_)
    cases ho
    have hcloses : Closes row { row with status := .expired } (g₁.ran .expireInvitation db
        ⟨(), [.expireInvitation c.invitationId],
          [ownLock .tenantInvitations c.invitationId .noKeyUpdate]⟩) := by
      refine (hlocked.closes hg₁).ran hdb _ _ (fun w hw => ?_) fun view hview => ?_
      · rw [List.mem_singleton.mp hw]
        exact hid.symm
      · simp only [replayAll_cons, replayAll_nil, onboarding_replay, OnboardingWrite.apply,
          setInvitations]
        exact Table.mem_update_set hview (decide_eq_true ⟨hid, hpending⟩)
    refine settles_commit_bind fun db hdb => ⟨?_, reports_raise _⟩
    exact (hcloses.commits hpending rfl InvitationStatus.noConfusion hdb).2
  split
  · exact settles_raise _
  rename_i hunexpired hsecret
  exact guarded_settles (acceptPending_settles hlocked hg₁ hpending hid (not_le.mp hunexpired)
    (Bool.of_not_eq_false hsecret))

end Acceptance

end VerigenceSecurity
