import VerigenceSecurity.LiveInvitations
import VerigenceSecurity.SelfRegistrations
import VerigenceSecurity.Library.Lease
import VerigenceSecurity.Library.Settlement

/-! # Locks of tenant onboarding

Invitations, requests and pending memberships are changed under their row locks, and new index
entries are locked. So whoever has locked one of them finds it as it was, whatever the other calls
of the service and of all other services do.
-/

namespace VerigenceSecurity
set_option autoImplicit false

open Transaction Program Relational

def OnboardingWrite.needs : OnboardingWrite → List OnboardingLock
  | insertInvitation row => ownLocks .tenantInvitations row.entries
  | cancelInvitation _ id | expireInvitation id | rebindInvitation id _ | acceptInvitation id _ =>
    [ownLock .tenantInvitations id .noKeyUpdate]
  | insertMembership row => rowLocks row
  | activatePendingMembership ids .. | endPendingMembership ids .. =>
    ids.map fun id => membershipLock id .noKeyUpdate
  | deletePendingMembership ids .. => ids.map fun id => membershipLock id .update
  | insertSelfOnboardingRequest row => ownLocks .selfOnboardingRequests row.entries
  | approveSelfOnboardingRequest id .. | rejectSelfOnboardingRequest id .. =>
    [ownLock .selfOnboardingRequests id .noKeyUpdate]
  | _ => []

def onboardingProtocol : Protocol OnboardingDatabase OnboardingWrite OnboardingLock where
  needs := OnboardingWrite.needs
  claim _ _ := True

theorem onboardingProtocol_stable : onboardingProtocol.Stable OnboardingLock.conflicts :=
  fun _ _ _ _ _ => trivial

/-! ## What the locks guard -/

def OnboardingDatabase.PendingMember (db : OnboardingDatabase) (membershipId tenantId userId : Uuid) :
    Prop :=
  ∃ m ∈ db.tenantMemberships.rows, m.membershipId = membershipId ∧ m.tenantId = tenantId ∧
    m.userId = userId ∧ m.status = .pending

def invitationLease (row : TenantInvitation) : Lease OnboardingDatabase OnboardingLock where
  lock := ownLock .tenantInvitations row.invitationId .update
  holds db := row ∈ db.tenantInvitations.rows

def selfRequestLease (row : SelfOnboardingRequest) : Lease OnboardingDatabase OnboardingLock where
  lock := ownLock .selfOnboardingRequests row.selfOnboardingRequestId .update
  holds db := row ∈ db.selfOnboardingRequests.rows

def memberLease (membershipId tenantId userId : Uuid) : Lease OnboardingDatabase OnboardingLock where
  lock := membershipLock membershipId .update
  holds db := db.PendingMember membershipId tenantId userId

def freeMembershipLease (entry : IndexEntry) : Lease OnboardingDatabase OnboardingLock where
  lock := .stored ⟨.tenantMemberships, entry, .update⟩
  holds db := entry ∉ db.tenantMemberships.taken

theorem ownLock_conflicts (relation : OnboardingRelation) (id : Uuid) :
    (ownLock relation id .noKeyUpdate).conflicts (ownLock relation id .update) = true := by
  simp [ownLock, OnboardingLock.conflicts, LockMode.conflicts]

theorem membershipLock_conflicts (id : Uuid) (mode : LockMode) :
    (membershipLock id mode).conflicts (membershipLock id .update) = true := by
  cases mode <;> simp [membershipLock, rowLock, OnboardingLock.conflicts, RowLock.conflicts,
    LockMode.conflicts]

theorem invitationLease_respects (row : TenantInvitation) (w : OnboardingWrite) :
    (invitationLease row).Respects OnboardingLock.conflicts onboardingProtocol.needs w := by
  have hlocked : ∀ {w : OnboardingWrite},
      w.needs = [ownLock .tenantInvitations row.invitationId .noKeyUpdate] →
      (invitationLease row).Respects OnboardingLock.conflicts onboardingProtocol.needs w := by
    intro w hw
    refine Or.inr ⟨_, ?_, ownLock_conflicts _ _⟩
    simp only [onboardingProtocol, hw]
    exact List.mem_singleton_self _
  cases w with
  | insertInvitation r => exact Or.inl fun db h => Table.mem_insert_of_mem h
  | cancelInvitation tenantId id =>
    by_cases hid : row.invitationId = id
    · exact hlocked (by rw [hid]; rfl)
    · exact Or.inl fun db h => Table.mem_of_not rfl h (decide_eq_false fun hw => hid hw.2)
  | expireInvitation id =>
    by_cases hid : row.invitationId = id
    · exact hlocked (by rw [hid]; rfl)
    · exact Or.inl fun db h => Table.mem_of_not rfl h (decide_eq_false fun hw => hid hw.1)
  | rebindInvitation id userId =>
    by_cases hid : row.invitationId = id
    · exact hlocked (by rw [hid]; rfl)
    · exact Or.inl fun db h => Table.mem_of_not rfl h (decide_eq_false hid)
  | acceptInvitation id now =>
    by_cases hid : row.invitationId = id
    · exact hlocked (by rw [hid]; rfl)
    · exact Or.inl fun db h => Table.mem_of_not rfl h (decide_eq_false hid)
  | _ => exact Or.inl fun db h => h

theorem selfRequestLease_respects (row : SelfOnboardingRequest) (w : OnboardingWrite) :
    (selfRequestLease row).Respects OnboardingLock.conflicts onboardingProtocol.needs w := by
  have hlocked : ∀ {w : OnboardingWrite},
      w.needs = [ownLock .selfOnboardingRequests row.selfOnboardingRequestId .noKeyUpdate] →
      (selfRequestLease row).Respects OnboardingLock.conflicts onboardingProtocol.needs w := by
    intro w hw
    refine Or.inr ⟨_, ?_, ownLock_conflicts _ _⟩
    simp only [onboardingProtocol, hw]
    exact List.mem_singleton_self _
  cases w with
  | insertSelfOnboardingRequest r => exact Or.inl fun db h => Table.mem_insert_of_mem h
  | approveSelfOnboardingRequest id actor now =>
    by_cases hid : row.selfOnboardingRequestId = id
    · exact hlocked (by rw [hid]; rfl)
    · exact Or.inl fun db h => Table.mem_modify_of_not h (decide_eq_false hid)
  | rejectSelfOnboardingRequest id actor now reason =>
    by_cases hid : row.selfOnboardingRequestId = id
    · exact hlocked (by rw [hid]; rfl)
    · exact Or.inl fun db h => Table.mem_of_not rfl h (decide_eq_false hid)
  | _ => exact Or.inl fun db h => h

theorem memberLease_respects (id t u : Uuid) (w : OnboardingWrite) :
    (memberLease id t u).Respects OnboardingLock.conflicts onboardingProtocol.needs w := by
  have hlocked : ∀ {w : OnboardingWrite} {ids : List Uuid} {mode : LockMode},
      w.needs = ids.map (fun id => membershipLock id mode) → id ∈ ids →
      (memberLease id t u).Respects OnboardingLock.conflicts onboardingProtocol.needs w := by
    intro w ids mode hw hid
    refine Or.inr ⟨membershipLock id mode, ?_, membershipLock_conflicts id mode⟩
    simp only [onboardingProtocol, hw]
    exact List.mem_map_of_mem hid
  cases w with
  | stored write =>
    refine Or.inl fun db h => ?_
    obtain ⟨m, hm, hid, ht, hu, hpending⟩ := h
    rcases OnboardingWrite.memberships_stored write db.toDatabase with hsame | ⟨t', u', rfl⟩
    · refine ⟨m, ?_, hid, ht, hu, hpending⟩
      simp only [onboarding_replay, OnboardingWrite.apply, hsame]
      exact hm
    · refine ⟨m, ?_, hid, ht, hu, hpending⟩
      simp only [onboarding_replay, OnboardingWrite.apply, Write.apply]
      refine Table.mem_of_not rfl hm (decide_eq_false fun hw => ?_)
      rw [hpending] at hw
      cases hw.2.2
  | insertMembership row =>
    refine Or.inl fun db h => ?_
    obtain ⟨m, hm, hfields⟩ := h
    exact ⟨m, Table.mem_insert_of_mem hm, hfields⟩
  | activatePendingMembership ids t' u' now =>
    by_cases hid : id ∈ ids
    · exact hlocked rfl hid
    · refine Or.inl fun db h => ?_
      obtain ⟨m, hm, hmid, hfields⟩ := h
      refine ⟨m, ?_, hmid, hfields⟩
      refine Table.mem_of_not rfl hm (decide_eq_false fun hw => hid ?_)
      rw [← hmid]
      exact hw.1
  | endPendingMembership ids t' u' now =>
    by_cases hid : id ∈ ids
    · exact hlocked rfl hid
    · refine Or.inl fun db h => ?_
      obtain ⟨m, hm, hmid, hfields⟩ := h
      refine ⟨m, ?_, hmid, hfields⟩
      refine Table.mem_of_not rfl hm (decide_eq_false fun hw => hid ?_)
      rw [← hmid]
      exact hw.1
  | deletePendingMembership ids t' u' =>
    by_cases hid : id ∈ ids
    · exact hlocked rfl hid
    · refine Or.inl fun db h => ?_
      obtain ⟨m, hm, hmid, hfields⟩ := h
      refine ⟨m, ?_, hmid, hfields⟩
      refine Table.mem_delete.mpr ⟨hm, decide_eq_false fun hw => hid ?_⟩
      rw [← hmid]
      exact hw.1
  | _ => exact Or.inl fun db h => h

theorem freeMembershipLease_respects (entry : IndexEntry) (w : OnboardingWrite) :
    (freeMembershipLease entry).Respects OnboardingLock.conflicts onboardingProtocol.needs w := by
  have hsubset : (∀ db : OnboardingDatabase,
      (w.apply db).tenantMemberships.taken ⊆ db.tenantMemberships.taken) →
      (freeMembershipLease entry).Respects OnboardingLock.conflicts onboardingProtocol.needs w :=
    fun h => Or.inl fun db hfree htaken => hfree (h db htaken)
  cases w with
  | stored write =>
    refine hsubset fun db k hk => ?_
    rw [← OnboardingWrite.taken_stored write db.toDatabase]
    exact hk
  | insertMembership row =>
    by_cases hentry : entry ∈ Row.entries row
    · refine Or.inr ⟨.stored ⟨.tenantMemberships, entry, .update⟩, ?_, ?_⟩
      · exact List.mem_map.mpr ⟨entry, hentry, rfl⟩
      · simp [freeMembershipLease, OnboardingLock.conflicts, RowLock.conflicts, LockMode.conflicts]
    · refine Or.inl fun db hfree htaken => ?_
      rcases Table.mem_taken_insert htaken with hin | hin
      · exact hfree hin
      · exact hentry hin
  | activatePendingMembership ids t u now =>
    refine hsubset fun db => ?_
    simp only [OnboardingWrite.apply, OnboardingDatabase.setMemberships]
    exact Table.taken_update_subset
  | endPendingMembership ids t u now =>
    refine hsubset fun db => ?_
    simp only [OnboardingWrite.apply, OnboardingDatabase.setMemberships]
    exact Table.taken_update_subset
  | deletePendingMembership ids t u =>
    refine hsubset fun db k hk => ?_
    obtain ⟨m, hm, hkm⟩ := Table.mem_taken.mp hk
    exact Table.mem_taken.mpr ⟨m, (Table.mem_delete.mp hm).1, hkm⟩
  | _ => exact hsubset fun db => List.Subset.refl _

/-! ## Every call follows the protocol -/

section Follows

variable {α : Type}

theorem follows_free {p : OnboardingTx α} (h : p.Writes fun w => w.needs = []) :
    p.Follows onboardingProtocol :=
  h.follows fun _ hw => ⟨hw, fun _ => trivial⟩

/-- What the other services do needs none of these locks. -/
theorem follows_stored (p : Tx α) : (storedPart.program p).Follows onboardingProtocol := by
  refine follows_free (storedPart.writes_program p.writes_anything fun w _ => ?_)
  rfl

theorem follows_change {β : Type} {name : OnboardingStatement}
    {run : OnboardingDatabase → OnboardingOutcome β}
    (h : ∀ db o, run db = .ok o → ∀ w ∈ o.edits, ∀ l ∈ w.needs, l ∈ o.locks) :
    (execute name run).Follows onboardingProtocol :=
  follows_execute fun _ _ o ho w hw => ⟨h _ o ho w hw, trivial⟩

theorem follows_insertChecked {name : OnboardingStatement} {free : OnboardingDatabase → Bool}
    {locks : List OnboardingLock} {references : OnboardingDatabase → List OnboardingReference}
    {write : OnboardingWrite} (h : write.needs ⊆ locks) :
    (execute name (fun db => insertChecked (free db) locks (references db) write) :
      OnboardingTx Unit).Follows onboardingProtocol := by
  refine follows_change fun db o ho w hw l hl => ?_
  obtain ⟨_, hedits, hlocks⟩ := insertChecked_ok ho
  rw [hedits, List.mem_singleton] at hw
  rw [hw] at hl
  exact hlocks l (h hl)

theorem follows_insertUnlessTaken {name : OnboardingStatement} {free : OnboardingDatabase → Bool}
    {locks : List OnboardingLock} {references : OnboardingDatabase → List OnboardingReference}
    {write : OnboardingWrite} (h : write.needs = []) :
    (execute name (fun db => insertUnlessTaken (free db) locks (references db) write) :
      OnboardingTx Unit).Follows onboardingProtocol := by
  refine follows_change fun db o ho w hw l hl => ?_
  rcases insertUnlessTaken_ok ho with hnone | ⟨hedits, _⟩
  · rw [hnone] at hw
    cases hw
  · rw [hedits, List.mem_singleton] at hw
    rw [hw, h] at hl
    cases hl

theorem follows_changeWhere {name : OnboardingStatement} {find : OnboardingDatabase → List Uuid}
    {locks : Uuid → List OnboardingLock}
    {check : OnboardingDatabase → List Uuid → Option Failure} {write : List Uuid → OnboardingWrite}
    (h : ∀ ids, (write ids).needs ⊆ ids.flatMap locks) :
    (changeWhere name find locks check write).Follows onboardingProtocol := by
  refine follows_bind follows_query fun found => follows_change fun db o ho w hw l hl => ?_
  dsimp only at ho
  split at ho
  · cases ho
  · cases ho
    rw [List.mem_singleton.mp hw] at hl
    exact h _ hl

theorem follows_reading {p : OnboardingTx α} (h : p.Within fun _ => False) :
    p.Follows onboardingProtocol :=
  follows_free (h.weaken fun _ hf => hf.elim).writes

theorem validatedRoles_reads (tenantId : Uuid) (roleIds : List Uuid) :
    (validatedRoles tenantId roleIds).Within fun _ => False := by
  induction roleIds with
  | nil => exact within_pure _
  | cons roleId rest ih =>
    refine within_bind within_query fun roleKey => ?_
    exact within_bind ih fun privileged => within_pure _

theorem validatedAccess_reads (tenantId : Uuid) (access : ProposedAccess) :
    (validatedAccess tenantId access).Within fun _ => False := by
  refine within_bind (validatedRoles_reads _ _) fun privileged => ?_
  refine within_bind (within_each fun group _ => within_query) fun _ => ?_
  exact within_bind (within_each fun location _ => within_query) fun _ => within_pure _

theorem follows_lockInvitation (invitationId : Uuid) (inTenant : TenantInvitation → Bool) :
    (lockInvitation invitationId inTenant).Follows onboardingProtocol := by
  refine follows_change fun db o ho w hw => ?_
  split at ho
  · cases ho
    cases hw
  · cases ho
    cases hw

theorem follows_updateInvitation {name : OnboardingStatement} {invitationId : Uuid}
    {write : OnboardingWrite}
    (h : write.needs = [ownLock .tenantInvitations invitationId .noKeyUpdate]) :
    (updateInvitation name invitationId write).Follows onboardingProtocol := by
  refine follows_change fun db o ho w hw l hl => ?_
  cases ho
  rw [List.mem_singleton.mp hw, h] at hl
  exact hl

theorem follows_createInvitation (hash : String → String) (c : CreateInvitationCall) :
    (createInvitation hash c).Follows onboardingProtocol := by
  unfold createInvitation
  split
  · exact follows_raise _
  split
  · refine follows_bind follows_query fun found => ?_
    split
    · exact follows_raise _
    refine follows_bind (follows_reading (validatedAccess_reads _ _)) fun validated => ?_
    refine follows_bind (follows_attempt ?_ fun e => trivial) fun _ => ?_
    · refine follows_bind ?_ fun _ => ?_
      · refine follows_bind (follows_stored _) fun _ => follows_bind (follows_stored _) fun _ => ?_
        exact follows_insertChecked (List.Subset.refl _)
      refine follows_bind (follows_insertChecked (List.Subset.refl _)) fun _ => ?_
      exact follows_bind (follows_insertChecked (List.nil_subset _)) fun _ => follows_commitNow
    · refine follows_bind follows_query fun row => ?_
      cases row with
      | none => exact follows_raise _
      | some row => exact follows_pure _
  · exact follows_raise _

theorem pendingMembership_needs {ids : List Uuid} {mode : LockMode} :
    (ids.map fun id => membershipLock id mode) ⊆ ids.flatMap fun id => [membershipLock id mode] := by
  intro l hl
  obtain ⟨id, hid, rfl⟩ := List.mem_map.mp hl
  exact List.mem_flatMap.mpr ⟨id, hid, List.mem_cons_self⟩

theorem follows_cancelInvitation (c : CancelInvitationCall) :
    (cancelInvitation c).Follows onboardingProtocol := by
  refine follows_bind (follows_lockInvitation _ _) fun found => ?_
  cases found with
  | none => exact follows_bind follows_rollbackNow fun _ => follows_pure _
  | some row =>
    dsimp only
    split
    · exact follows_bind follows_rollbackNow fun _ => follows_raise _
    refine follows_attempt ?_ fun e => trivial
    refine follows_bind (follows_updateInvitation rfl) fun _ => ?_
    refine follows_bind (follows_changeWhere fun ids => pendingMembership_needs) fun _ => ?_
    refine follows_bind (follows_insertChecked (List.nil_subset _)) fun _ => ?_
    exact follows_bind follows_commitNow fun _ => follows_pure _

theorem follows_bindKnownUser (c : AcceptInvitationCall) (invitation : TenantInvitation)
    (userId : Uuid) : (bindKnownUser c invitation userId).Follows onboardingProtocol := by
  refine follows_bind follows_query fun member => ?_
  split
  · exact follows_raise _
  refine follows_bind (follows_changeWhere fun ids l hl => ?_) fun _ => ?_
  · obtain ⟨id, hid, rfl⟩ := List.mem_map.mp hl
    exact List.mem_flatMap.mpr ⟨id, hid, List.mem_cons_self⟩
  refine follows_bind (follows_change fun db o ho w hw l hl => ?_) fun _ => ?_
  · split at ho
    · cases ho
    · cases ho
      rw [List.mem_singleton.mp hw, OnboardingWrite.needs, List.mem_singleton] at hl
      rw [hl]
      exact List.mem_cons_self
  refine follows_bind (follows_insertChecked (List.Subset.refl _)) fun _ => ?_
  refine follows_bind (follows_change fun db o ho w hw l hl => ?_) fun _ => ?_
  · split at ho
    · cases ho
    · cases ho
      rw [List.mem_singleton.mp hw] at hl
      cases hl
  refine follows_bind (follows_change fun db o ho w hw l hl => ?_) fun _ => follows_pure _
  split at ho
  · cases ho
  · cases ho
    rw [List.mem_singleton.mp hw] at hl
    cases hl

theorem follows_bindInvitationIdentity (c : AcceptInvitationCall) (invitation : TenantInvitation) :
    (bindInvitationIdentity c invitation).Follows onboardingProtocol := by
  refine follows_bind follows_query fun found => ?_
  cases found with
  | none => exact follows_bind (follows_stored _) fun _ => follows_pure _
  | some identity =>
    dsimp only
    split
    · exact follows_raise _
    split
    · exact follows_pure _
    split
    · exact follows_raise _
    · exact follows_bindKnownUser _ _ _

theorem follows_materialize (g : AccessGrant) (access : ProposedAccess) :
    (g.materialize access).Follows onboardingProtocol := by
  refine follows_bind (follows_changeWhere fun ids => pendingMembership_needs) fun _ => ?_
  refine follows_bind (follows_each (fun roleId => follows_insertUnlessTaken rfl) _) fun _ => ?_
  refine follows_bind (follows_each (fun groupId => follows_insertUnlessTaken rfl) _) fun _ => ?_
  exact follows_each (fun location => follows_insertUnlessTaken rfl) _

theorem follows_acceptInvitation (verify : String → String → Bool) (c : AcceptInvitationCall) :
    (acceptInvitation verify c).Follows onboardingProtocol := by
  refine follows_bind (follows_lockInvitation _ _) fun found => ?_
  cases found with
  | none => exact follows_raise _
  | some invitation =>
    dsimp only
    split
    · exact follows_raise _
    split
    · refine follows_bind (follows_updateInvitation rfl) fun _ => ?_
      exact follows_bind follows_commitNow fun _ => follows_raise _
    split
    · exact follows_raise _
    refine follows_attempt ?_ fun e => trivial
    refine follows_bind (follows_bindInvitationIdentity _ _) fun userId => ?_
    refine follows_bind (follows_reading (validatedAccess_reads _ _)) fun validated => ?_
    refine follows_bind (follows_change fun db o ho w hw l hl => ?_) fun _ => ?_
    · cases ho
      rw [List.mem_singleton.mp hw] at hl
      cases hl
    refine follows_bind (follows_updateInvitation rfl) fun _ => ?_
    refine follows_bind ?_ fun status => ?_
    · unfold grantOrRequest
      split
      · refine follows_bind (follows_each (fun roleId => ?_) _) fun _ => follows_pure _
        exact follows_insertChecked (List.nil_subset _)
      · exact follows_bind (follows_materialize _ _) fun _ => follows_pure _
    refine follows_bind (follows_insertChecked (List.nil_subset _)) fun _ => ?_
    exact follows_bind follows_commitNow fun _ => follows_pure _

theorem effectiveControl_reads (tenantId : Uuid) (depth : Nat) (controlKey : String) :
    (effectiveControl tenantId depth controlKey).Within fun _ => False := by
  induction depth generalizing controlKey with
  | zero => exact within_raise _
  | succ depth ih =>
    refine within_bind within_query fun state => ?_
    cases state with
    | none => exact within_pure _
    | some state =>
      dsimp only
      split
      · exact within_pure _
      · split
        · exact ih _
        · exact within_pure _

theorem follows_resolveOrCreateIdentityUser (c : SelfRegistrationCall) :
    (resolveOrCreateIdentityUser c).Follows onboardingProtocol := by
  refine follows_bind follows_query fun found => ?_
  cases found with
  | none =>
    refine follows_bind (follows_stored _) fun _ => follows_bind (follows_stored _) fun _ => ?_
    exact follows_bind (follows_stored _) fun _ => follows_pure _
  | some identity =>
    dsimp only
    split
    · exact follows_raise _
    split
    · exact follows_bind (follows_stored _) fun _ => follows_pure _
    split
    · exact follows_pure _
    · exact follows_raise _

theorem follows_lockMembership (tenantId userId : Uuid) :
    (lockMembership tenantId userId).Follows onboardingProtocol := by
  refine follows_change fun db o ho w hw => ?_
  split at ho
  · cases ho
    cases hw
  · cases ho
    cases hw

theorem follows_submitSelfRegistration (verify : String → String → Bool) (depth : Nat)
    (c : SelfRegistrationCall) :
    (submitSelfRegistration verify depth c).Follows onboardingProtocol := by
  refine follows_bind follows_query fun tenant => ?_
  cases tenant with
  | none => exact follows_raise _
  | some tenant =>
    refine follows_bind (follows_reading (effectiveControl_reads _ _ _)) fun enabled => ?_
    split
    · exact follows_raise _
    refine follows_bind follows_query fun setting => ?_
    cases setting with
    | none => exact follows_raise _
    | some setting =>
      dsimp only
      split
      · exact follows_raise _
      split
      · exact follows_raise _
      refine follows_attempt ?_ fun e => trivial
      refine follows_bind (follows_resolveOrCreateIdentityUser _) fun found => ?_
      refine follows_bind (follows_lockMembership _ _) fun membership => ?_
      have hrequest : (pendingOrNewRequest c membership tenant.tenantId found.1 found.2).Follows
          onboardingProtocol := by
        refine follows_bind follows_query fun pending => ?_
        cases pending with
        | some pending => exact follows_bind follows_commitNow fun _ => follows_pure _
        | none =>
          refine follows_bind ?_ fun _ => ?_
          · cases membership with
            | none => exact follows_insertChecked (List.Subset.refl _)
            | some row => exact follows_pure _
          refine follows_bind (follows_insertChecked (List.Subset.refl _)) fun _ => ?_
          refine follows_bind (follows_insertChecked (List.nil_subset _)) fun _ => ?_
          exact follows_bind follows_commitNow fun _ => follows_pure _
      split
      · exact follows_bind follows_commitNow fun _ => follows_pure _
      · exact follows_raise _
      · exact follows_raise _
      · exact hrequest
      · exact hrequest

theorem follows_lockSelfRequest (c : ReviewCall) :
    (lockSelfRequest c).Follows onboardingProtocol := by
  refine follows_bind (follows_change fun db o ho w hw => ?_) fun found => ?_
  · split at ho
    · cases ho
    · cases ho
      cases hw
  · split
    · exact follows_bind follows_rollbackNow fun _ => follows_raise _
    · exact follows_pure _

theorem follows_updateSelfRequest {name : OnboardingStatement} {c : ReviewCall}
    {write : OnboardingWrite}
    (h : write.needs = [ownLock .selfOnboardingRequests c.requestId .noKeyUpdate]) :
    (updateSelfRequest name c write).Follows onboardingProtocol := by
  refine follows_change fun db o ho w hw l hl => ?_
  split at ho
  · cases ho
  · cases ho
    rw [List.mem_singleton.mp hw, h, List.mem_singleton] at hl
    rw [hl]
    exact List.mem_cons_self

theorem follows_approveSelfRequest (c : ReviewCall) (access : ProposedAccess) :
    (approveSelfRequest c access).Follows onboardingProtocol := by
  refine follows_bind (follows_lockSelfRequest _) fun request => ?_
  refine follows_bind (follows_reading (validatedAccess_reads _ _)) fun validated => ?_
  split
  · exact follows_bind follows_rollbackNow fun _ => follows_raise _
  refine follows_bind (follows_lockMembership _ _) fun membership => ?_
  split
  · exact follows_bind follows_rollbackNow fun _ => follows_raise _
  refine follows_bind (follows_attempt ?_ fun e => trivial) fun _ => ?_
  · refine follows_bind (follows_materialize _ _) fun _ => ?_
    refine follows_bind (follows_updateSelfRequest rfl) fun _ => ?_
    exact follows_bind (follows_insertChecked (List.nil_subset _)) fun _ => follows_commitNow
  · refine follows_bind follows_query fun row => ?_
    cases row with
    | none => exact follows_raise _
    | some row => exact follows_pure _

theorem follows_rejectSelfRequest (c : ReviewCall) (reason : Option String) :
    (rejectSelfRequest c reason).Follows onboardingProtocol := by
  refine follows_bind (follows_lockSelfRequest _) fun request => ?_
  refine follows_bind (follows_attempt ?_ fun e => trivial) fun _ => ?_
  · refine follows_bind (follows_updateSelfRequest rfl) fun _ => ?_
    exact follows_bind (follows_insertChecked (List.nil_subset _)) fun _ => follows_commitNow
  · refine follows_bind follows_query fun row => ?_
    cases row with
    | none => exact follows_raise _
    | some row => exact follows_pure _

end Follows

end VerigenceSecurity
