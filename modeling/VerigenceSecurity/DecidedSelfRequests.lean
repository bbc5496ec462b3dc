import VerigenceSecurity.SettledInvitations

/-! # Requests for self-onboarding over whole runs

A request is decided at most once and stays as it was decided, whatever calls overlap, and an
approval gives its user an active membership with at most the access that it names.
-/

namespace VerigenceSecurity
set_option autoImplicit false

open Transaction Program Relational OnboardingDatabase

namespace OnboardingDatabase

def Decided (db : OnboardingDatabase) (requestId : Uuid) (status : SelfOnboardingStatus) : Prop :=
  ∃ r ∈ db.selfOnboardingRequests.rows, r.selfOnboardingRequestId = requestId ∧ r.status = status ∧
    status ≠ .pendingAdminApproval

/-- A request stays as it is, or it was pending and is decided. -/
def Reviewed (before after : OnboardingDatabase) : Prop :=
  ∀ r ∈ before.selfOnboardingRequests.rows, r ∈ after.selfOnboardingRequests.rows ∨
    r.status = .pendingAdminApproval ∧ ∃ status, after.Decided r.selfOnboardingRequestId status

end OnboardingDatabase

theorem SelfOnboardingRequest.eq_of_id {db : OnboardingDatabase} {r r' : SelfOnboardingRequest}
    (h : r ∈ db.selfOnboardingRequests.rows) (h' : r' ∈ db.selfOnboardingRequests.rows)
    (hid : r.selfOnboardingRequestId = r'.selfOnboardingRequestId) : r = r' := by
  apply Table.shared_entry h h' (k := (Index.primary, [r.selfOnboardingRequestId]))
  · exact List.mem_cons_self
  · rw [hid]
    exact List.mem_cons_self

section Reviewed

variable {db db' : OnboardingDatabase} {id : Uuid} {status : SelfOnboardingStatus}

theorem OnboardingDatabase.Reviewed.refl (db : OnboardingDatabase) : Reviewed db db :=
  fun _ hr => Or.inl hr

/-- A decided request stays as it is. -/
theorem OnboardingDatabase.Reviewed.decided (h : Reviewed db db') (hdecided : db.Decided id status) :
    db'.Decided id status := by
  obtain ⟨r, hr, hid, hstatus, hne⟩ := hdecided
  rcases h r hr with hr' | ⟨hpending, _⟩
  · exact ⟨r, hr', hid, hstatus, hne⟩
  · exact absurd (hstatus.symm.trans hpending) hne

theorem not_decided_of_pending {r : SelfOnboardingRequest} (hr : r ∈ db.selfOnboardingRequests.rows)
    (hpending : r.status = .pendingAdminApproval) :
    ¬ ∃ status, db.Decided r.selfOnboardingRequestId status := by
  rintro ⟨status, r', hr', hid, hstatus, hne⟩
  rw [SelfOnboardingRequest.eq_of_id hr' hr hid, hpending] at hstatus
  exact hne hstatus.symm

end Reviewed

namespace OnboardingWrite

def Reviewing (requestId : Uuid) : OnboardingWrite → Prop
  | approveSelfOnboardingRequest id .. | rejectSelfOnboardingRequest id .. => id = requestId
  | _ => True

def Undeciding : OnboardingWrite → Prop
  | approveSelfOnboardingRequest .. | rejectSelfOnboardingRequest .. => False
  | _ => True

variable {w : OnboardingWrite} {db : OnboardingDatabase} {r : SelfOnboardingRequest} {id : Uuid}

theorem selfRequest_of_undeciding (hw : w.Undeciding) (hr : r ∈ db.selfOnboardingRequests.rows) :
    r ∈ (w.apply db).selfOnboardingRequests.rows := by
  cases w with
  | insertSelfOnboardingRequest row => exact Table.mem_insert_of_mem hr
  | approveSelfOnboardingRequest requestId actor now => exact hw.elim
  | rejectSelfOnboardingRequest requestId actor now reason => exact hw.elim
  | _ => exact hr

theorem selfRequest_of_reviewing (hw : w.Reviewing id) (hid : r.selfOnboardingRequestId ≠ id)
    (hr : r ∈ db.selfOnboardingRequests.rows) : r ∈ (w.apply db).selfOnboardingRequests.rows := by
  cases w with
  | insertSelfOnboardingRequest row => exact Table.mem_insert_of_mem hr
  | approveSelfOnboardingRequest requestId actor now =>
    exact Table.mem_modify_of_not hr (decide_eq_false fun hsel => hid (hsel.trans hw))
  | rejectSelfOnboardingRequest requestId actor now reason =>
    exact Table.mem_of_not rfl hr (decide_eq_false fun hsel => hid (hsel.trans hw))
  | _ => exact hr

/-- A transaction that decides nothing. -/
theorem undeciding_commit {es : List OnboardingWrite} (hes : ∀ e ∈ es, e.Undeciding)
    (db : OnboardingDatabase) : Reviewed db (replayAll es db) := by
  refine fun r hr => Or.inl ?_
  exact Program.replayAll_keeps (R := fun view : OnboardingDatabase =>
    r ∈ view.selfOnboardingRequests.rows) (fun e view he => selfRequest_of_undeciding he) hes hr

/-- A transaction that decides a pending request. -/
theorem reviewing_commit {es : List OnboardingWrite} {row final : SelfOnboardingRequest}
    (hes : ∀ e ∈ es, e.Reviewing row.selfOnboardingRequestId)
    (hrow : row ∈ db.selfOnboardingRequests.rows) (hpending : row.status = .pendingAdminApproval)
    (hfinal : final ∈ (replayAll es db).selfOnboardingRequests.rows)
    (hid : final.selfOnboardingRequestId = row.selfOnboardingRequestId)
    (hstatus : final.status ≠ .pendingAdminApproval) : Reviewed db (replayAll es db) := by
  intro r hr
  by_cases hsame : r.selfOnboardingRequestId = row.selfOnboardingRequestId
  · rw [SelfOnboardingRequest.eq_of_id hr hrow hsame]
    exact Or.inr ⟨hpending, final.status, final, hfinal, hid, rfl, hstatus⟩
  · exact Or.inl (Program.replayAll_keeps (R := fun view : OnboardingDatabase =>
      r ∈ view.selfOnboardingRequests.rows) (fun e view he => selfRequest_of_reviewing he hsame) hes hr)

end OnboardingWrite

/-! ## What the other calls leave -/

section Writes

variable {Q : OnboardingWrite → Prop}

theorem writes_createInvitation (hstored : ∀ w, Q (.stored w))
    (hmember : ∀ row, Q (.insertMembership row)) (hinvite : ∀ row, Q (.insertInvitation row))
    (hash : String → String) (c : CreateInvitationCall) : (createInvitation hash c).Writes Q := by
  unfold createInvitation
  split
  · trivial
  split
  · refine writes_bind within_query.writes fun found => ?_
    split
    · trivial
    refine writes_bind ((validatedAccess_reads _ _).weaken fun _ h => h.elim).writes fun validated => ?_
    refine writes_bind (writes_attempt ?_ fun e => trivial) fun _ => ?_
    · refine writes_bind (within_createInvitedUser hstored hmember c).writes fun _ => ?_
      refine writes_bind (within_insertChecked (hinvite _)).writes fun _ => ?_
      exact writes_bind (within_insertChecked (hstored _)).writes fun _ => trivial
    · refine writes_bind within_query.writes fun row => ?_
      cases row <;> trivial
  · trivial

theorem writes_cancelInvitation (hstored : ∀ w, Q (.stored w))
    (hcancel : ∀ t id, Q (.cancelInvitation t id))
    (hend : ∀ ids t u now, Q (.endPendingMembership ids t u now)) (c : CancelInvitationCall) :
    (cancelInvitation c).Writes Q := by
  refine writes_bind (within_lockInvitation _ _).writes fun found => ?_
  cases found with
  | none => trivial
  | some row =>
    dsimp only
    split
    · trivial
    refine writes_attempt ?_ fun e => trivial
    refine writes_bind (within_updateInvitation (hcancel _ _)).writes fun _ => ?_
    refine writes_bind (within_changeWhere fun ids => hend ids _ _ _).writes fun _ => ?_
    exact writes_bind (within_insertChecked (hstored _)).writes fun _ => trivial

theorem within_bindInvitationIdentity (c : AcceptInvitationCall) (row : TenantInvitation) :
    (bindInvitationIdentity c row).Within OnboardingWrite.Undeciding := by
  refine within_bind within_query fun found => ?_
  cases found with
  | none =>
    refine within_bind (within_anything (within_execute fun _ _ _ _ _ => trivial)
      fun w => trivial) fun _ => within_pure _
  | some identity =>
    dsimp only
    split
    · exact within_raise _
    split
    · exact within_pure _
    split
    · exact within_raise _
    refine within_bind within_query fun member => ?_
    split
    · exact within_raise _
    refine within_bind (within_changeWhere fun ids => trivial) fun _ => ?_
    refine within_bind (within_single (by trivial)) fun _ => ?_
    refine within_bind (within_insertChecked trivial) fun _ => ?_
    refine within_bind (within_single (by trivial)) fun _ => ?_
    exact within_bind (within_single (by trivial)) fun _ => within_pure _

theorem writes_acceptInvitation (verify : String → String → Bool) (c : AcceptInvitationCall) :
    (acceptInvitation verify c).Writes OnboardingWrite.Undeciding := by
  refine writes_bind (within_lockInvitation _ _).writes fun found => ?_
  cases found with
  | none => trivial
  | some row =>
    dsimp only
    split
    · trivial
    split
    · exact writes_bind (within_updateInvitation trivial).writes fun _ => trivial
    split
    · trivial
    refine writes_attempt ?_ fun e => trivial
    refine writes_bind (within_bindInvitationIdentity c row).writes fun userId => ?_
    refine writes_bind ((validatedAccess_reads _ _).weaken fun _ h => h.elim).writes fun validated => ?_
    refine writes_bind (within_updateUser trivial).writes fun _ => ?_
    refine writes_bind (within_updateInvitation trivial).writes fun _ => ?_
    refine writes_bind (Within.writes ?_) fun status => ?_
    · unfold grantOrRequest
      split
      · exact within_bind (within_each fun _ _ => within_insertChecked trivial) fun _ => within_pure _
      · exact within_bind (within_materialize (fun _ => trivial) (fun _ _ _ _ => trivial)
          (fun _ => trivial) _ _) fun _ => within_pure _
    exact writes_bind (within_insertChecked trivial).writes fun _ => trivial

end Writes

/-! ## A locked request -/

theorem steady_onboardingRely : Steady OnboardingRely := fun _ _ _ _ _ h h' => h.earlier h'

/-- Commits decide what was pending; what an answer tells is about the commit. -/
def reviewSettlement {α : Type} (tells : α → OnboardingDatabase → OnboardingDatabase → Prop)
    (idle : α → Prop) : Settlement OnboardingDatabase OnboardingWrite OnboardingLock
      OnboardingStatement α where
  rely := OnboardingRely
  commits g db := Reviewed db (replayAll g.pending db)
  answers a g db := tells a db (replayAll g.pending db)
  idle := idle

structure DecidesRequest (row final : SelfOnboardingRequest) (g : OnboardingProgress) : Prop where
  found : (selfRequestLease row).Found g
  reviewing : ∀ w ∈ g.pending, w.Reviewing row.selfOnboardingRequestId
  final : g.Ensures OnboardingRely fun _ view => final ∈ view.selfOnboardingRequests.rows

section Programs

variable {α : Type} {g : OnboardingProgress} {row final : SelfOnboardingRequest} {c : ReviewCall}

theorem undeciding_settles {p : OnboardingTx α} (h : p.Writes OnboardingWrite.Undeciding) :
    p.Settles (reviewSettlement (fun _ _ _ => True) fun _ => True) Progress.start :=
  h.settles (List.forall_mem_nil _) (fun _ => trivial)
    fun _ db hpending _ => OnboardingWrite.undeciding_commit hpending db

theorem reviewing_of_undeciding {w : OnboardingWrite} {id : Uuid} (h : w.Undeciding) :
    w.Reviewing id := by
  cases w <;> first | exact h.elim | trivial

theorem DecidesRequest.yields {p : OnboardingTx α} {post : α → OnboardingProgress → Prop}
    (hp : p.Within OnboardingWrite.Undeciding) (h : DecidesRequest row final g)
    (hpost : ∀ a g', DecidesRequest row final g' → post a g') : p.Yields OnboardingRely post g := by
  refine yields_within (DecidesRequest row final) hp (fun g db label o hg hdb ho => ?_) h hpost
  refine ⟨hg.found.ran (hdb.leases (.request row)) label o, fun w hw => ?_, ?_⟩
  · rcases List.mem_append.mp hw with hw | hw
    · exact hg.reviewing w hw
    · exact reviewing_of_undeciding (ho w hw)
  · exact hg.final.edits steady_onboardingRely hdb label o
      (fun _ _ _ hw hview => OnboardingWrite.selfRequest_of_undeciding hw hview) ho

theorem lockSelfRequest_settles {k : SelfOnboardingRequest → OnboardingTx α}
    {tells : α → OnboardingDatabase → OnboardingDatabase → Prop} {idle : α → Prop} (hg : g.pending = [])
    (hk : ∀ row g', row.selfOnboardingRequestId = c.requestId → row.tenantId = c.tenantId →
      row.status = .pendingAdminApproval → DecidesRequest row row g' → g'.pending = [] →
        (k row).Settles (reviewSettlement tells idle) g') :
    (lockSelfRequest c >>= k).Settles (reviewSettlement tells idle) g := by
  unfold lockSelfRequest
  rw [Program.bind_assoc]
  refine settles_bind (yields_execute fun db o hdb ho => ?_)
  rw [hg, replayAll_nil] at ho
  cases hfound : db.selfRequest? c.tenantId c.requestId with
  | none =>
    rw [hfound] at ho
    cases ho
  | some row =>
    rw [hfound] at ho
    cases ho
    have hrow : row ∈ db.selfOnboardingRequests.rows := List.mem_of_find?_eq_some hfound
    have hmatch := List.find?_some hfound
    obtain ⟨htenant, hid⟩ := of_decide_eq_true hmatch
    dsimp only
    split
    · rw [Program.bind_assoc]
      exact settles_rollback_bind (settles_raise _)
    rename_i hstatus
    have hlease : (selfRequestLease row).Found (g.ran .lockSelfRequest db ⟨row, [],
        [ownLock .selfOnboardingRequests c.requestId .update]⟩) := by
      refine Lease.found_ran ?_ hrow
      rw [selfRequestLease, hid]
      exact List.mem_singleton_self _
    refine hk row _ hid htenant (not_not.mp hstatus) ⟨hlease, ?_, fun db' hdb' => ?_⟩ (pending_ran hg)
    · rw [pending_ran hg]
      exact List.forall_mem_nil _
    · rw [pending_ran hg]
      exact hlease.holds (hdb'.leases (.request row))

theorem lockMembership_yields {t u : Uuid} (hg : g.pending = []) :
    (lockMembership t u).Yields OnboardingRely (fun found g' =>
      found.map TenantMembership.status = some .pending →
        ∃ id, g'.Ensures OnboardingRely (Awaiting id t u)) g := by
  apply yields_execute
  intro db o hdb ho
  rw [hg, replayAll_nil] at ho
  cases hfound : db.membership? t u with
  | none =>
    rw [hfound] at ho
    cases ho
    intro hstatus
    cases hstatus
  | some m =>
    rw [hfound] at ho
    cases ho
    intro hstatus
    have hmatch := List.find?_some hfound
    obtain ⟨ht, hu⟩ := of_decide_eq_true hmatch
    have hlease : (memberLease m.membershipId t u).Found (g.ran .lockMembership db ⟨some m, [],
        [membershipLock m.membershipId .update]⟩) :=
      Lease.found_ran (List.mem_singleton_self _)
        ⟨m, List.mem_of_find?_eq_some hfound, rfl, ht, hu, Option.some.inj hstatus⟩
    refine ⟨m.membershipId, fun db' hdb' => ?_⟩
    obtain ⟨m', hm', hid', ht', hu', hpending'⟩ := hlease.holds (hdb'.leases (.member ..))
    rw [pending_ran hg]
    exact ⟨⟨m', hm', hid', ht', hu', Or.inl hpending'⟩, fun hactive => hactive⟩

/-- At the commit the request is still pending, and it is decided by it. -/
theorem DecidesRequest.commits (h : DecidesRequest row final g)
    (hpending : row.status = .pendingAdminApproval)
    (hid : final.selfOnboardingRequestId = row.selfOnboardingRequestId)
    (hstatus : final.status ≠ .pendingAdminApproval) {db : OnboardingDatabase}
    (hdb : OnboardingRely g db) : row ∈ db.selfOnboardingRequests.rows ∧
      Reviewed db (replayAll g.pending db) := by
  have hrow : row ∈ db.selfOnboardingRequests.rows := h.found.holds (hdb.leases (.request row))
  exact ⟨hrow, OnboardingWrite.reviewing_commit h.reviewing hrow hpending (h.final db hdb) hid hstatus⟩

/-- The update of the locked request. -/
theorem updateSelfRequest_yields (name : OnboardingStatement) (c : ReviewCall)
    (write : OnboardingWrite) (h : DecidesRequest row row g)
    (hwrite : write.Reviewing row.selfOnboardingRequestId)
    (hfinal : ∀ view : OnboardingDatabase, row ∈ view.selfOnboardingRequests.rows →
      final ∈ (write.apply view).selfOnboardingRequests.rows) :
    (updateSelfRequest name c write).Yields OnboardingRely (fun _ g' => DecidesRequest row final g') g := by
  apply yields_execute
  intro db o hdb ho
  split at ho
  · cases ho
  cases ho
  refine ⟨h.found.ran (hdb.leases (.request row)) _ _, fun w hw => ?_, ?_⟩
  · rcases List.mem_append.mp hw with hw | hw
    · exact h.reviewing w hw
    · rwa [List.mem_singleton.mp hw]
  · exact h.final.ran steady_onboardingRely hdb _ _ fun _ view hview => hfinal view hview

theorem mem_approved {view : OnboardingDatabase} {actor : Uuid} {now : Instant}
    (hpending : row.status = .pendingAdminApproval) (hrow : row ∈ view.selfOnboardingRequests.rows) :
    row.approvedBy actor now ∈ ((OnboardingWrite.approveSelfOnboardingRequest
      row.selfOnboardingRequestId actor now).apply view).selfOnboardingRequests.rows := by
  refine Table.mem_modify_set hrow (decide_eq_true rfl) fun r hr hsel => ?_
  -- The row keeps its entries, the one of its user in the tenant included.
  rw [SelfOnboardingRequest.eq_of_id hr hrow (of_decide_eq_true hsel)]
  simp only [SelfOnboardingRequest.entries, SelfOnboardingRequest.approvedBy, hpending]

theorem mem_rejected {view : OnboardingDatabase} {actor : Uuid} {now : Instant}
    {reason : Option String} (hrow : row ∈ view.selfOnboardingRequests.rows) :
    row.rejectedBy actor now reason ∈ ((OnboardingWrite.rejectSelfOnboardingRequest
      row.selfOnboardingRequestId actor now reason).apply view).selfOnboardingRequests.rows := by
  simp only [OnboardingWrite.apply, setSelfOnboardingRequests]
  exact Table.mem_update_set hrow (decide_eq_true rfl)

/-- The commit of an approval, for the request that was pending until then: the user is an active
member, and gets at most the access of the approval, with no privileged role. -/
structure ApprovedAtCommit (c : ReviewCall) (access : ProposedAccess) (row : SelfOnboardingRequest)
    (before after : OnboardingDatabase) : Prop where
  mem : row ∈ before.selfOnboardingRequests.rows
  id : row.selfOnboardingRequestId = c.requestId
  tenant : row.tenantId = c.tenantId
  pending : row.status = .pendingAdminApproval
  approved : row.approvedBy c.actorUserId c.now ∈ after.selfOnboardingRequests.rows
  member : after.ActiveMember c.tenantId row.userId
  ordinary : ∀ roleId ∈ access.roleIds, before.OrdinaryRole c.tenantId roleId
  granted : Granted ⟨c.tenantId, row.userId, c.actorUserId, c.now, c.grantIds⟩ access.distinct []
    before after

def RejectedAtCommit (c : ReviewCall) (reason : Option String) (before after : OnboardingDatabase) :
    Prop :=
  ∃ row ∈ before.selfOnboardingRequests.rows, row.selfOnboardingRequestId = c.requestId ∧
    row.tenantId = c.tenantId ∧ row.status = .pendingAdminApproval ∧
    row.rejectedBy c.actorUserId c.now reason ∈ after.selfOnboardingRequests.rows

/-- The answer is read after the commit. -/
theorem reviewed_settles {p : OnboardingTx Unit}
    {k : Option SelfRequestView → OnboardingTx SelfRequestView}
    {tells : OnboardingDatabase → OnboardingDatabase → Prop} {t id : Uuid}
    (h : p.Settles (reviewSettlement (fun _ => tells) fun _ => False) g)
    (hk : ∀ row, (k row).Reports fun _ => True) :
    (p >>= fun _ => getSelfRequest t id >>= k).Settles
      (reviewSettlement (fun _ => tells) fun _ => False) g := by
  refine h.bind (fun _ _ h => h) (fun _ _ h => h.elim) (fun _ _ h => h) fun _ _ _ htold => ?_
  exact reports_query_bind fun row => (hk row).weaken fun _ _ => htold

structure Approved (G : AccessGrant) (access : ProposedAccess) (db view : OnboardingDatabase) :
    Prop where
  member : view.ActiveMember G.tenantId G.userId
  granted : Granted G access [] db view

theorem Approved.yields {G : AccessGrant} {access : ProposedAccess} {p : OnboardingTx α}
    (h : g.Ensures OnboardingRely (Approved G access)) (hp : p.Within OnboardingWrite.Quiet) :
    p.Yields OnboardingRely (fun _ g' => g'.Ensures OnboardingRely (Approved G access)) g := by
  refine yields_ensures hp steady_onboardingRely (fun w db view hw hview => ?_) h fun _ _ h => h
  exact ⟨OnboardingWrite.activeMember_apply w hview.member, hview.granted.same (hw view)⟩

theorem materialize_approves {G : AccessGrant} {access : ProposedAccess} {id : Uuid}
    (hawaits : g.Ensures OnboardingRely (Awaiting id G.tenantId G.userId))
    (hsame : g.Ensures OnboardingRely SameAccess) : (G.materialize access).Yields OnboardingRely
      (fun _ g' => g'.Ensures OnboardingRely (Approved G access)) g := by
  have hactive : (G.materialize access).Yields OnboardingRely (fun _ g' =>
      g'.Ensures OnboardingRely fun _ view => view.ActiveMember G.tenantId G.userId) g :=
    materialize_activates steady_onboardingRely (fun _ _ h => h) hawaits
  have hgranted := yields_ensures (materialize_granting G access) steady_onboardingRely
    (fun w _ _ hw hview => Granted.apply hview hw) (hsame.weaken fun db view hview => hview.granted)
      fun _ _ h => h
  exact (hactive.and hgranted).weaken fun _ g' hg' db hdb => ⟨hg'.1 db hdb, hg'.2 db hdb⟩

theorem approveLocked_settles {access : ProposedAccess} {id : Uuid} (h : DecidesRequest row row g)
    (hid : row.selfOnboardingRequestId = c.requestId) (htenant : row.tenantId = c.tenantId)
    (hpending : row.status = .pendingAdminApproval)
    (hawaits : g.Ensures OnboardingRely (Awaiting id c.tenantId row.userId))
    (hsame : g.Ensures OnboardingRely SameAccess)
    (hordinary : g.Ensures OnboardingRely fun db _ =>
      ∀ roleId ∈ access.roleIds, db.OrdinaryRole c.tenantId roleId) :
    (approveLocked c row.userId access.distinct).Settles (reviewSettlement (fun _ before after =>
      ∃ row, ApprovedAtCommit c access row before after) fun _ => False) g := by
  have hmaterialize : (AccessGrant.materialize ⟨c.tenantId, row.userId, c.actorUserId, c.now,
      c.grantIds⟩ access.distinct).Within OnboardingWrite.Undeciding :=
    within_materialize (fun _ => trivial) (fun _ _ _ _ => trivial) (fun _ => trivial) _ _
  refine settles_bind (((h.yields hmaterialize fun _ _ h => h).and
    ((materialize_approves hawaits hsame).and (known_yields hmaterialize steady_onboardingRely
      hordinary))).weaken fun _ g₁ ⟨h₁, happroved₁, hordinary₁⟩ => ?_)
  have hupdate : (updateSelfRequest .approveSelfRequest c (.approveSelfOnboardingRequest c.requestId
      c.actorUserId c.now)).Within OnboardingWrite.Quiet :=
    within_updateSelfRequest fun _ => ⟨rfl, rfl, rfl, rfl, rfl⟩
  have hdecides := updateSelfRequest_yields .approveSelfRequest c
    (.approveSelfOnboardingRequest c.requestId c.actorUserId c.now) h₁ hid.symm fun view hview => by
      rw [← hid]
      exact mem_approved hpending hview
  refine settles_bind ((hdecides.and ((Approved.yields happroved₁ hupdate).and
    (known_yields hupdate steady_onboardingRely hordinary₁))).weaken
      fun _ g₂ ⟨h₂, happroved₂, hordinary₂⟩ => ?_)
  have haudit : (recordChange c.changeId c.correlationId c.tenantId c.actorUserId
      "security.member.approve" "SELF_ONBOARDING_REQUEST" c.requestId c.now).Within
        OnboardingWrite.Quiet := within_insertChecked fun _ => ⟨rfl, rfl, rfl, rfl, rfl⟩
  have hdecides := h₂.yields (p := recordChange c.changeId c.correlationId c.tenantId c.actorUserId
    "security.member.approve" "SELF_ONBOARDING_REQUEST" c.requestId c.now)
      (within_insertChecked trivial) fun _ _ h => h
  refine settles_bind ((hdecides.and ((Approved.yields happroved₂ haudit).and
    (known_yields haudit steady_onboardingRely hordinary₂))).weaken
      fun _ g₃ ⟨h₃, happroved₃, hordinary₃⟩ => ?_)
  refine ⟨fun db hdb => (h₃.commits hpending rfl SelfOnboardingStatus.noConfusion hdb).2,
    Or.inr fun db hdb => reports_pure ⟨row, ?_⟩⟩
  obtain ⟨hrow, _⟩ := h₃.commits hpending rfl SelfOnboardingStatus.noConfusion hdb
  obtain ⟨hmember, hgranted⟩ := happroved₃ db hdb
  exact ⟨hrow, hid, htenant, hpending, h₃.final db hdb, hmember, hordinary₃ db hdb, hgranted⟩

theorem approveSelfRequest_settles (c : ReviewCall) (access : ProposedAccess) :
    (approveSelfRequest c access).Settles (reviewSettlement (fun _ before after =>
      ∃ row, ApprovedAtCommit c access row before after) fun _ => False) Progress.start := by
  refine lockSelfRequest_settles rfl fun row g₁ hid htenant hpending h₁ hg₁ => ?_
  have hread : (validatedAccess c.tenantId access).Within fun _ => False := validatedAccess_reads _ _
  have hvalid : (validatedAccess c.tenantId access).Yields OnboardingRely (fun validated g' =>
      validated.access = access.distinct ∧ g'.Ensures OnboardingRely fun db _ =>
        Sorted c.tenantId access.distinct.roleIds validated.privilegedRoleIds db) g₁ :=
    validatedAccess_yields steady_onboardingRely (fun _ _ h => h) (ensures_start hg₁ fun _ _ => rfl)
  refine settles_bind (((h₁.yields (hread.weaken fun _ hno => hno.elim) fun _ _ h => h).and
    ((yields_reads hread hg₁ fun _ _ h => h).and hvalid)).weaken
      fun validated g₂ ⟨h₂, hg₂, haccess, hsorted₂⟩ => ?_)
  split
  · exact settles_rollback_bind (settles_raise _)
  rename_i hnone
  rw [not_not.mp hnone] at hsorted₂
  have hstart : g₂.Ensures OnboardingRely fun db view => SameAccess db view ∧
      ∀ roleId ∈ access.roleIds, db.OrdinaryRole c.tenantId roleId := by
    intro db hdb
    rw [hg₂]
    refine ⟨SameAccess.refl db, fun roleId hrole => ?_⟩
    rcases (hsorted₂ db hdb).ordinary roleId (List.mem_eraseDups.mpr hrole) with hno | hordinary
    · cases hno
    · exact hordinary
  have hlock : (lockMembership c.tenantId row.userId).Within fun _ => False := within_lockMembership _ _
  have hkeeps := yields_ensures hlock steady_onboardingRely (fun _ _ _ hno _ => hno.elim) hstart
    fun _ _ h => h
  refine settles_bind (((h₂.yields (hlock.weaken fun _ hno => hno.elim) fun _ _ h => h).and
    ((lockMembership_yields hg₂).and hkeeps)).weaken fun found g₃ ⟨h₃, hmember, hkept₃⟩ => ?_)
  split
  · exact settles_rollback_bind (settles_raise _)
  rename_i hstatus
  obtain ⟨id, hawaits⟩ := hmember (not_not.mp hstatus)
  refine reviewed_settles (guarded_settles ?_) fun row => ?_
  · rw [haccess]
    exact approveLocked_settles h₃ hid htenant hpending hawaits
      (hkept₃.weaken fun _ _ hview => hview.1) (hkept₃.weaken fun _ _ hview => hview.2)
  · cases row with
    | none => exact reports_raise _
    | some row => exact reports_pure trivial

theorem rejectSelfRequest_settles (c : ReviewCall) (reason : Option String) :
    (rejectSelfRequest c reason).Settles (reviewSettlement (fun _ => RejectedAtCommit c reason)
      fun _ => False) Progress.start := by
  refine lockSelfRequest_settles rfl fun row g₁ hid htenant hpending h₁ hg₁ => ?_
  refine reviewed_settles (guarded_settles ?_) fun row => ?_
  · have hreject := updateSelfRequest_yields .rejectSelfRequest c
      (.rejectSelfOnboardingRequest c.requestId c.actorUserId c.now reason) h₁ hid.symm
        fun view hview => by
          rw [← hid]
          exact mem_rejected hview
    refine settles_bind (hreject.weaken fun _ g₂ h₂ => ?_)
    refine settles_bind (h₂.yields (within_insertChecked trivial) fun _ g₃ h₃ => ?_)
    refine ⟨fun db hdb => (h₃.commits hpending rfl SelfOnboardingStatus.noConfusion hdb).2,
      Or.inr fun db hdb => ?_⟩
    obtain ⟨hrow, _⟩ := h₃.commits hpending rfl SelfOnboardingStatus.noConfusion hdb
    exact reports_pure ⟨row, hrow, hid, htenant, hpending, h₃.final db hdb⟩
  · cases row with
    | none => exact reports_raise _
    | some row => exact reports_pure trivial

end Programs

/-! ## Runs -/

def OnboardingCall.DecisionTold : OnboardingCall → OnboardingAnswer → OnboardingDatabase →
    OnboardingDatabase → Prop
  | approve c access, .reviewed _ => fun before after =>
    ∃ row, ApprovedAtCommit c access row before after
  | reject c reason, .reviewed _ => RejectedAtCommit c reason
  | _, _ => fun _ _ => True

def OnboardingCall.Undecided : OnboardingCall → OnboardingAnswer → Prop
  | approve .., .reviewed _ | reject .., .reviewed _ => False
  | _, _ => True

/-- A call whose answers tell nothing. -/
theorem undeciding_answers {α : Type} {p : OnboardingTx α} (h : p.Writes OnboardingWrite.Undeciding)
    (answer : α → OnboardingAnswer)
    {tells : OnboardingAnswer → OnboardingDatabase → OnboardingDatabase → Prop}
    {idle : OnboardingAnswer → Prop} (htells : ∀ a before after, tells (answer a) before after)
    (hidle : ∀ a, idle (answer a)) :
    (p >>= fun a => pure (answer a) : OnboardingTx OnboardingAnswer).Settles
      (reviewSettlement tells idle) Progress.start :=
  (undeciding_settles h).map answer (fun _ _ h => h) (fun a _ => hidle a) (fun _ _ h => h)
    fun a _ _ _ => htells a _ _

theorem OnboardingCall.decides (call : OnboardingCall) :
    call.program.Settles (reviewSettlement call.DecisionTold call.Undecided) Progress.start := by
  cases call with
  | create hash c =>
    have hcreate : (createInvitation hash c).Writes OnboardingWrite.Undeciding :=
      writes_createInvitation (fun _ => trivial) (fun _ => trivial) (fun _ => trivial) _ _
    exact undeciding_answers hcreate _ (fun _ _ _ => trivial) fun _ => trivial
  | cancel c =>
    have hcancel : (cancelInvitation c).Writes OnboardingWrite.Undeciding :=
      writes_cancelInvitation (fun _ => trivial) (fun _ _ => trivial) (fun _ _ _ _ => trivial) _
    exact undeciding_answers hcancel OnboardingAnswer.cancelled (fun _ _ _ => trivial) fun _ => trivial
  | accept verify c =>
    exact undeciding_answers (writes_acceptInvitation verify c) OnboardingAnswer.accepted (fun _ _ _ => trivial) fun _ => trivial
  | submit verify depth c =>
    have hsubmit : (submitSelfRegistration verify depth c).Writes OnboardingWrite.Undeciding :=
      writes_submitSelfRegistration (fun _ => trivial) (fun _ => trivial) (fun _ => trivial) _ _ _
    exact undeciding_answers hsubmit OnboardingAnswer.submitted (fun _ _ _ => trivial) fun _ => trivial
  | approve c access =>
    exact (approveSelfRequest_settles c access).map OnboardingAnswer.reviewed (fun _ _ h => h)
      (fun _ h => h) (fun _ _ h => h) fun _ _ _ h => h
  | reject c reason =>
    exact (rejectSelfRequest_settles c reason).map OnboardingAnswer.reviewed (fun _ _ h => h)
      (fun _ h => h) (fun _ _ h => h) fun _ _ _ h => h
  | other p =>
    have hother : (storedPart.program p).Writes OnboardingWrite.Undeciding :=
      storedPart.writes_program p.writes_anything fun _ _ => trivial
    exact undeciding_answers hother (fun _ => OnboardingAnswer.done) (fun _ _ _ => trivial)
      fun _ => trivial

def decisionsAt (calls : List OnboardingCall) : Nat → Settlement OnboardingDatabase
    OnboardingWrite OnboardingLock OnboardingStatement OnboardingAnswer :=
  settlementAt (fun call : OnboardingCall => reviewSettlement call.DecisionTold call.Undecided)
    (reviewSettlement (fun _ _ _ => True) fun _ => True) calls

/-! ## A guest who asks -/

def guestRequest : SelfOnboardingRequest where
  selfOnboardingRequestId := "request"
  tenantId := "tenant"
  userId := "guest"
  externalIdentityId := "identity"
  status := .pendingAdminApproval
  submittedAt := 5
  submittedSourceIp := "127.0.0.1"
  reviewedByUserId := none
  reviewedAt := none
  reviewReason := none
  correlationId := "correlation"

def hostReview (changeId : Uuid) : ReviewCall where
  tenantId := "tenant"
  requestId := "request"
  actorUserId := "host"
  correlationId := "correlation"
  now := 10
  grantIds := guestAccepts.grantIds
  changeId := changeId

def hostCalls : List OnboardingCall :=
  [.approve (hostReview "change") ⟨["reader"], [], []⟩, .reject (hostReview "another change") none]

def OnboardingAnswer.isReviewed : OnboardingAnswer → Bool
  | reviewed _ => true
  | _ => false

def visitorDesk : OnboardingDatabase :=
  frontDesk.setSelfOnboardingRequests (Table.empty.insert guestRequest)

theorem host_run : ∃ (s : OnboardingState OnboardingAnswer) (v : SelfRequestView),
    State.Reaches OnboardingLock.conflicts (fun _ _ => True) (onboardingCalls hostCalls visitorDesk) s ∧
      s.answer 0 = some (.reviewed v) := by
  have hrun : ((onboardingCalls hostCalls visitorDesk).run OnboardingLock.conflicts
      (List.replicate 10 0 ++ List.replicate 2 1)).map (fun s =>
        (s.answer 0).any OnboardingAnswer.isReviewed) = some true := by
    decide +kernel
  obtain ⟨s, answer, hreach, ha, hreviewed⟩ := reaches_of_check hrun
  cases answer with
  | reviewed v => exact ⟨s, v, hreach, ha⟩
  | _ => cases hreviewed

section Runs

variable {calls : List OnboardingCall} {db : OnboardingDatabase}
  {s : OnboardingState OnboardingAnswer} {i j : Nat}

theorem decisionsAt_eq {call : OnboardingCall} (hcall : calls[i]? = some call) :
    decisionsAt calls i = reviewSettlement call.DecisionTold call.Undecided :=
  settlementAt_eq hcall

theorem reviewed_of_advances {u v : OnboardingState OnboardingAnswer}
    (h : State.Advances (decisionsAt calls) j u v) :
    Reviewed u.committed v.committed ∧ CarriedInto u.committed v.committed := by
  rcases h with hsame | ⟨g, hcommits, hdb⟩
  · rw [hsame]
    exact ⟨Reviewed.refl _, CarriedInto.refl _⟩
  · rw [hdb]
    refine ⟨?_, carried_evolution.replayAll (fun _ _ => trivial) _⟩
    exact settlementAt_all (P := fun S => S.commits g u.committed →
      Reviewed u.committed (replayAll g.pending u.committed)) (fun h => h) (fun _ h => h) j hcommits

theorem decisions_settled (calls : List OnboardingCall) (db : OnboardingDatabase) :
    State.Settled OnboardingLock.conflicts (decisionsAt calls) OnboardingGuarded
      (onboardingCalls calls db) where
  initial := onboardingGuarded_initial calls db
  settling i := State.settling_initial db OnboardingCall.decides i
  relies u hu i c hc hunfinished := by
    have hrely : OnboardingRely c.progress u.committed := hu.relies hc hunfinished
    exact settlementAt_all (P := fun S => S.rely c.progress u.committed) hrely (fun _ => hrely) i
  steps u v j hu hstep _ := hu.step hstep

def OnboardingCall.DecidedBy : OnboardingCall → OnboardingAnswer → Uuid → SelfOnboardingStatus → Prop
  | approve c _, .reviewed _ => fun id status => c.requestId = id ∧ status = .approved
  | reject c _, .reviewed _ => fun id status => c.requestId = id ∧ status = .rejected
  | _, _ => fun _ _ => False

def OnboardingDatabase.DecidedAs (db : OnboardingDatabase) (requestId : Uuid)
    (status : SelfOnboardingStatus) : Prop :=
  ∃ r ∈ db.selfOnboardingRequests.rows, r.selfOnboardingRequestId = requestId ∧ r.status = status ∧
    status ≠ .pendingAdminApproval ∧ (status = .approved → db.ActiveMember r.tenantId r.userId)

theorem OnboardingDatabase.DecidedAs.later {db' : OnboardingDatabase} {id : Uuid}
    {status : SelfOnboardingStatus} (hlater : Reviewed db db' ∧ CarriedInto db db')
    (h : db.DecidedAs id status) : db'.DecidedAs id status := by
  obtain ⟨r, hr, hid, hstatus, hne, hactive⟩ := h
  rcases hlater.1 r hr with hr' | ⟨hpending, _⟩
  · exact ⟨r, hr', hid, hstatus, hne, fun happroved => hlater.2.active _ _ (hactive happroved)⟩
  · exact absurd (hstatus.symm.trans hpending) hne

theorem OnboardingDatabase.DecidedAs.decided {id : Uuid} {status : SelfOnboardingStatus}
    (h : db.DecidedAs id status) : ∃ status, db.Decided id status := by
  obtain ⟨r, hr, hid, hstatus, hne, _⟩ := h
  exact ⟨status, r, hr, hid, hstatus, hne⟩

/-- The commit of such a call finds the request pending and decides it. -/
theorem OnboardingCall.DecidedBy.spends {call : OnboardingCall} {answer : OnboardingAnswer} {id : Uuid}
    {status : SelfOnboardingStatus} (h : call.DecidedBy answer id status) : ¬ call.Undecided answer ∧
      ∀ before after, call.DecisionTold answer before after →
        (¬ ∃ status, before.Decided id status) ∧ after.DecidedAs id status := by
  cases call with
  | approve c access =>
    cases answer with
    | reviewed v =>
      obtain ⟨hid, hstatus⟩ := h
      subst hid hstatus
      refine ⟨fun hidle => hidle, fun before after htold => ?_⟩
      obtain ⟨row, htold⟩ := htold
      rw [← htold.id]
      refine ⟨not_decided_of_pending htold.mem htold.pending, _, htold.approved, rfl, rfl,
        SelfOnboardingStatus.noConfusion, fun _ => ?_⟩
      have hmember := htold.member
      rwa [← htold.tenant] at hmember
    | _ => exact h.elim
  | reject c reason =>
    cases answer with
    | reviewed v =>
      obtain ⟨hid, hstatus⟩ := h
      subst hid hstatus
      refine ⟨fun hidle => hidle, fun before after htold => ?_⟩
      obtain ⟨row, hrow, hid, _, hpending, hrejected⟩ := htold
      rw [← hid]
      exact ⟨not_decided_of_pending hrow hpending, _, hrejected, rfl, rfl,
        SelfOnboardingStatus.noConfusion, SelfOnboardingStatus.noConfusion⟩
    | _ => exact h.elim
  | _ => exact h.elim

/-- Two reviews that are answered for one request are one call, and the request stays as this call
has decided it, with an active membership if it was approved. -/
theorem self_request_decided_once (calls : List OnboardingCall) (db : OnboardingDatabase)
    (hreach : State.Reaches OnboardingLock.conflicts (fun _ _ => True) (onboardingCalls calls db) s)
    {call call' : OnboardingCall} {answer answer' : OnboardingAnswer} {id : Uuid}
    {status status' : SelfOnboardingStatus} (hcall : calls[i]? = some call)
    (hcall' : calls[j]? = some call') (ha : s.answer i = some answer)
    (ha' : s.answer j = some answer') (hdecided : call.DecidedBy answer id status)
    (hdecided' : call'.DecidedBy answer' id status') : i = j ∧ s.committed.DecidedAs id status := by
  obtain ⟨hbusy, hspends⟩ := hdecided.spends
  obtain ⟨hbusy', hspends'⟩ := hdecided'.spends
  refine (decisions_settled calls db).once (fun view => ∃ status, view.Decided id status)
    (fun view => view.DecidedAs id status) (fun _ => DecidedAs.decided)
      (fun u v k _ hadvances hold => hold.imp fun _ => (reviewed_of_advances hadvances).1.decided)
        (fun u v k _ hadvances => DecidedAs.later (reviewed_of_advances hadvances)) hreach ha ha'
          ?_ ?_ (fun g view htold => ?_) fun g view htold => ?_
  · rwa [decisionsAt_eq hcall]
  · rwa [decisionsAt_eq hcall']
  · rw [decisionsAt_eq hcall] at htold
    exact hspends _ _ htold
  · rw [decisionsAt_eq hcall'] at htold
    exact (hspends' _ _ htold).imp_right DecidedAs.decided

theorem guest_approved_once :
    ∃ after : OnboardingDatabase, after.DecidedAs "request" .approved := by
  obtain ⟨s, v, hreach, ha⟩ := host_run
  have hcall : hostCalls[0]? = some (.approve (hostReview "change") ⟨["reader"], [], []⟩) := rfl
  have honce := self_request_decided_once hostCalls visitorDesk hreach hcall hcall ha ha ⟨rfl, rfl⟩
    ⟨rfl, rfl⟩
  exact ⟨s.committed, honce.2⟩

/-- Every approval that is answered was made by one step, for a request that was pending at that
moment, and this step gave the user at most the access of the approval. -/
theorem approval_within_access (calls : List OnboardingCall) (db : OnboardingDatabase)
    (hreach : State.Reaches OnboardingLock.conflicts (fun _ _ => True) (onboardingCalls calls db) s)
    {c : ReviewCall} {access : ProposedAccess} {v : SelfRequestView}
    (hcall : calls[i]? = some (.approve c access)) (ha : s.answer i = some (.reviewed v)) :
    ∃ before after : OnboardingState OnboardingAnswer,
      State.Reaches OnboardingLock.conflicts (fun _ _ => True) (onboardingCalls calls db) before ∧
      before.step OnboardingLock.conflicts i = some after ∧
      State.Reaches OnboardingLock.conflicts (fun _ _ => True) after s ∧
      ∃ row, ApprovedAtCommit c access row before.committed after.committed := by
  rcases (decisions_settled calls db).answered hreach ha with
    hidle | ⟨g, before, after, hbefore, hstep, hafter, hdb, htold⟩
  · rw [decisionsAt_eq hcall] at hidle
    exact hidle.elim
  · rw [decisionsAt_eq hcall] at htold
    obtain ⟨row, happroved⟩ := htold
    rw [← hdb] at happroved
    exact ⟨before, after, hbefore, hstep, hafter, row, happroved⟩

theorem guest_approved_as_reader : ∃ (row : SelfOnboardingRequest) (before after : OnboardingDatabase),
    ApprovedAtCommit (hostReview "change") ⟨["reader"], [], []⟩ row before after := by
  obtain ⟨s, v, hreach, ha⟩ := host_run
  obtain ⟨before, after, _, _, _, row, happroved⟩ :=
    approval_within_access hostCalls visitorDesk hreach rfl ha
  exact ⟨row, before.committed, after.committed, happroved⟩

end Runs

end VerigenceSecurity
