import VerigenceSecurity.InvitationAcceptance

/-! # Invitations over whole runs

In any overlap of the calls of the service with each other and with calls of other services, an
invitation is settled at most once and stays as it was settled, every pending invitation has its
membership, and an acceptance gives nobody more than was proposed.
-/

namespace VerigenceSecurity
set_option autoImplicit false

open Transaction Program Relational OnboardingDatabase

/-! ## Runs -/

def OnboardingCall.Tells : OnboardingCall → OnboardingAnswer → OnboardingDatabase →
    OnboardingDatabase → Prop
  | accept verify c, .accepted a => fun before after =>
    ∃ row, AcceptedAtCommit verify c a row before after
  | cancel c, .cancelled found => fun before after => found = true → CancelledAtCommit c before after
  | _, _ => fun _ _ => True

def OnboardingCall.Idle : OnboardingCall → OnboardingAnswer → Prop
  | accept .., .accepted _ => False
  | cancel _, .cancelled found => found = false
  | _, _ => True

/-- A call whose answers tell nothing. -/
theorem harmless_answers {α : Type} {p : OnboardingTx α} (h : p.Writes OnboardingWrite.Harmless)
    (answer : α → OnboardingAnswer)
    {tells : OnboardingAnswer → OnboardingDatabase → OnboardingDatabase → Prop}
    {idle : OnboardingAnswer → Prop} (htells : ∀ a before after, tells (answer a) before after)
    (hidle : ∀ a, idle (answer a)) :
    (p >>= fun a => pure (answer a) : OnboardingTx OnboardingAnswer).Settles
      (invitationSettlement tells idle) Progress.start :=
  (harmless_settles h).map answer (fun _ _ h => h) (fun a _ => hidle a) (fun _ _ h => h)
    fun a _ _ _ => htells a _ _

theorem OnboardingCall.settles (call : OnboardingCall) :
    call.program.Settles (invitationSettlement call.Tells call.Idle) Progress.start := by
  cases call with
  | create hash c =>
    exact (createInvitation_settles hash c).map _ (fun _ _ h => h) (fun _ _ => trivial)
      (fun _ _ h => h) fun _ _ _ _ => trivial
  | cancel c =>
    exact (cancelInvitation_settles c).map OnboardingAnswer.cancelled (fun _ _ h => h)
      (fun _ h => h) (fun _ _ h => h) fun _ _ _ h => h
  | accept verify c =>
    exact (acceptInvitation_settles verify c).map OnboardingAnswer.accepted (fun _ _ h => h)
      (fun _ h => h) (fun _ _ h => h) fun _ _ _ h => h
  | submit verify depth c =>
    have hsubmit : (submitSelfRegistration verify depth c).Writes OnboardingWrite.Harmless :=
      writes_submitSelfRegistration (fun _ => trivial) (fun _ => trivial) (fun _ => trivial) _ _ _
    exact harmless_answers hsubmit OnboardingAnswer.submitted (fun _ _ _ => trivial) fun _ => trivial
  | approve c access =>
    have happrove : (approveSelfRequest c access).Writes OnboardingWrite.Harmless :=
      writes_approveSelfRequest (fun _ => trivial) (fun _ _ _ _ => trivial) (fun _ => trivial)
        (fun _ _ _ => trivial) _ _
    exact harmless_answers happrove OnboardingAnswer.reviewed (fun _ _ _ => trivial) fun _ => trivial
  | reject c reason =>
    have hreject : (rejectSelfRequest c reason).Writes OnboardingWrite.Harmless :=
      writes_rejectSelfRequest (fun _ => trivial) (fun _ _ _ _ => trivial) _ _
    exact harmless_answers hreject OnboardingAnswer.reviewed (fun _ _ _ => trivial) fun _ => trivial
  | other p =>
    have hother : (storedPart.program p).Writes OnboardingWrite.Harmless :=
      storedPart.writes_program p.writes_anything fun _ _ => trivial
    exact harmless_answers hother (fun _ => OnboardingAnswer.done) (fun _ _ _ => trivial)
      fun _ => trivial

def invitationsAt (calls : List OnboardingCall) : Nat → Settlement OnboardingDatabase
    OnboardingWrite OnboardingLock OnboardingStatement OnboardingAnswer :=
  settlementAt (fun call : OnboardingCall => invitationSettlement call.Tells call.Idle)
    (silentSettlement OnboardingAnswer) calls

structure InvitationsKept (s : OnboardingState OnboardingAnswer) : Prop where
  guarded : OnboardingGuarded s
  live : s.committed.Live
  later : ∀ (j : Nat) (c : Call OnboardingDatabase OnboardingWrite OnboardingLock
    OnboardingStatement Failure OnboardingAnswer), s.calls[j]? = some c →
      c.progress.Remembers Later s.committed

/-! ## A guest -/

theorem guest_lifetime : (0 : Instant) < 100 := by decide

def guestInvitation : TenantInvitation where
  invitationId := "invitation"
  tenantId := "tenant"
  invitedUserId := "guest"
  inviteeEmail := some "guest@example.org"
  inviteeMobile := none
  employeeCode := none
  acceptanceTokenHash := "hash of the secret"
  proposedAccess := ⟨["reader"], [], []⟩
  requiresPrivilegedApproval := false
  status := .pending
  invitedByUserId := "host"
  invitedAt := 0
  expiresAt := 100
  acceptedAt := none
  correlationId := "correlation"
  lifetime := guest_lifetime

def person (userId : Uuid) (status : UserStatus) : User :=
  ⟨userId, userId, none, none, none, none, status, 0, 0⟩

def guestMembership : TenantMembership := pendingMembership "membership" "tenant" "guest"

def frontDesk : OnboardingDatabase :=
  (OnboardingWrite.stored (.insertRole ⟨"reader", "tenant", "tenant.reader", "Reader", none, .active,
    0, 0⟩)).apply { (default : OnboardingDatabase) with
      tenants := Table.empty.insert ⟨"tenant", "TENANT", "Tenant", .active, 0, 0⟩
      users := (Table.empty.insert (person "host" .active)).insert (person "guest" .invited)
      tenantMemberships := Table.empty.insert guestMembership
      tenantInvitations := Table.empty.insert guestInvitation }

theorem live_of_guest {db : OnboardingDatabase} (invitation : TenantInvitation)
    (hrows : ∀ r ∈ db.tenantInvitations.rows, r = invitation) (htenant : invitation.tenantId = "tenant")
    (hguest : invitation.invitedUserId = "guest") (hmember : guestMembership ∈ db.tenantMemberships.rows) :
    db.Live := by
  refine ⟨fun r hr _ => ?_, fun r hr r' hr' _ _ _ _ => (hrows r hr).trans (hrows r' hr').symm⟩
  rw [hrows r hr, htenant, hguest]
  exact ⟨"membership", guestMembership, hmember, rfl, rfl, rfl, Or.inl rfl⟩

theorem mem_frontDesk : guestMembership ∈ frontDesk.tenantMemberships.rows :=
  Table.mem_insert_of_free fun _ _ hk => absurd hk List.not_mem_nil

theorem frontDesk_live : frontDesk.Live := by
  refine live_of_guest guestInvitation (fun r hr => ?_) rfl rfl mem_frontDesk
  rcases Table.mem_insert hr with hold | hnew
  · cases hold
  · exact hnew

def guestAccepts : AcceptInvitationCall where
  invitationId := "invitation"
  acceptanceToken := "secret"
  identityProvider := .clerk
  identitySubject := "subject"
  correlationId := "correlation"
  now := 10
  externalIdentityId := "identity"
  membershipId := "other membership"
  requestId roleId := roleId
  grantIds := ⟨fun roleId => roleId, fun groupId => groupId, fun location => location.locationId⟩
  changeId := "change"

def knowsSecret (hash secret : String) : Bool :=
  decide (hash = "hash of the secret" ∧ secret = "secret")

/-- The guest accepts, and the host cancels. -/
def guestCalls : List OnboardingCall :=
  [.accept knowsSecret guestAccepts,
    .cancel ⟨"tenant", "invitation", "host", "correlation", 20, "another change"⟩]

def OnboardingAnswer.isAccepted : OnboardingAnswer → Bool
  | accepted _ => true
  | _ => false

/-- A schedule that ends with such an answer of the first call. -/
theorem reaches_of_check {calls : List OnboardingCall} {db : OnboardingDatabase}
    {schedule : List Nat} {check : OnboardingAnswer → Bool}
    (h : ((onboardingCalls calls db).run OnboardingLock.conflicts schedule).map (fun s =>
      (s.answer 0).any check) = some true) : ∃ s answer,
      State.Reaches OnboardingLock.conflicts (fun _ _ => True) (onboardingCalls calls db) s ∧
        s.answer 0 = some answer ∧ check answer = true := by
  obtain ⟨s, hs, hcheck⟩ := Option.map_eq_some_iff.mp h
  obtain ⟨answer, hanswer, haccepted⟩ := (Option.any_eq_true _ _).mp hcheck
  exact ⟨s, answer, State.reaches_of_schedule hs, hanswer, haccepted⟩

theorem guest_run : ∃ (s : OnboardingState OnboardingAnswer) (a : AcceptedInvitation),
    State.Reaches OnboardingLock.conflicts (fun _ _ => True) (onboardingCalls guestCalls frontDesk) s ∧
      s.answer 0 = some (.accepted a) := by
  have hrun : ((onboardingCalls guestCalls frontDesk).run OnboardingLock.conflicts
      (List.replicate 11 0 ++ List.replicate 2 1)).map (fun s =>
        (s.answer 0).any OnboardingAnswer.isAccepted) = some true := by
    decide +kernel
  obtain ⟨s, answer, hreach, ha, haccepted⟩ := reaches_of_check hrun
  cases answer with
  | accepted a => exact ⟨s, a, hreach, ha⟩
  | _ => cases haccepted

section Runs

variable {calls : List OnboardingCall} {db : OnboardingDatabase}
  {s : OnboardingState OnboardingAnswer} {i j : Nat}

theorem invitationsAt_eq {call : OnboardingCall} (hcall : calls[i]? = some call) :
    invitationsAt calls i = invitationSettlement call.Tells call.Idle :=
  settlementAt_eq hcall

theorem later_of_advances {u v : OnboardingState OnboardingAnswer} (hlive : u.committed.Live)
    (h : State.Advances (invitationsAt calls) j u v) :
    v.committed.Live ∧ Later u.committed v.committed := by
  rcases h with hsame | ⟨g, hcommits, hdb⟩
  · rw [hsame]
    exact ⟨hlive, Later.refl _⟩
  · rw [hdb]
    exact settlementAt_all (P := fun S => S.commits g u.committed →
      (replayAll g.pending u.committed).Live ∧ Later u.committed (replayAll g.pending u.committed))
        (fun h => h) (fun _ h => h) j hcommits

theorem onboardingCalls_settled (calls : List OnboardingCall) (hlive : db.Live) :
    State.Settled OnboardingLock.conflicts (invitationsAt calls) InvitationsKept
      (onboardingCalls calls db) where
  initial := ⟨onboardingGuarded_initial calls db, hlive, Evolution.remembers_initial db _⟩
  settling i := State.settling_initial db OnboardingCall.settles i
  relies u hu i c hc hunfinished := by
    have hrely : InvitationRely c.progress u.committed :=
      ⟨hu.guarded.relies hc hunfinished, hu.live, hu.later i c hc⟩
    exact settlementAt_all (P := fun S => S.rely c.progress u.committed) hrely (fun _ => hrely) i
  steps u v j hu hstep hadvances := by
    obtain ⟨hlive', hlater⟩ := later_of_advances hu.live hadvances
    exact ⟨hu.guarded.step hstep, hlive',
      Progress.remembers_step Later Later.trans hlater hu.later hstep⟩

/-- In every reachable state every pending invitation has the membership of its user in its tenant,
pending or active, and shares it with no other pending invitation. -/
theorem pending_invitations_live (calls : List OnboardingCall) (db : OnboardingDatabase)
    (hlive : db.Live) (hreach : State.Reaches OnboardingLock.conflicts (fun _ _ => True)
      (onboardingCalls calls db) s) : s.committed.Live := by
  obtain ⟨schedule, hrun⟩ := hreach.exists_run
  exact ((onboardingCalls_settled calls hlive).run hrun).1.live

theorem frontDesk_stays_live : ∃ (s : OnboardingState OnboardingAnswer) (a : AcceptedInvitation),
    s.answer 0 = some (.accepted a) ∧ s.committed.Live := by
  obtain ⟨s, a, hreach, ha⟩ := guest_run
  exact ⟨s, a, ha, pending_invitations_live guestCalls frontDesk frontDesk_live hreach⟩

/-! ## Settled once -/

/-- The call has settled this invitation, with this status, according to its answer. -/
def OnboardingCall.SettledBy : OnboardingCall → OnboardingAnswer → Uuid → InvitationStatus → Prop
  | accept _ c, .accepted _ => fun id status => c.invitationId = id ∧ status = .accepted
  | cancel c, .cancelled found => fun id status =>
    found = true ∧ c.invitationId = id ∧ status = .cancelled
  | _, _ => fun _ _ => False

def OnboardingDatabase.SettledAs (db : OnboardingDatabase) (id : Uuid) (status : InvitationStatus) :
    Prop :=
  ∃ r ∈ db.tenantInvitations.rows, r.invitationId = id ∧ r.status = status ∧ status ≠ .pending

theorem not_settled_of_pending {r : TenantInvitation} (hr : r ∈ db.tenantInvitations.rows)
    (hpending : r.status = .pending) : ¬ db.Settled r.invitationId := by
  rintro ⟨r', hr', hid, hstatus⟩
  rw [TenantInvitation.eq_of_id hr' hr hid] at hstatus
  exact hstatus hpending

/-- The commit of such a call finds the invitation pending and settles it. -/
theorem OnboardingCall.SettledBy.spends {call : OnboardingCall} {answer : OnboardingAnswer} {id : Uuid}
    {status : InvitationStatus} (h : call.SettledBy answer id status) : ¬ call.Idle answer ∧
      ∀ before after, call.Tells answer before after →
        ¬ before.Settled id ∧ after.SettledAs id status := by
  cases call with
  | accept verify c =>
    cases answer with
    | accepted a =>
      obtain ⟨hid, hstatus⟩ := h
      subst hid hstatus
      refine ⟨fun hidle => hidle, fun before after ⟨row, htold⟩ => ⟨?_, ?_⟩⟩
      · rw [← htold.id]
        exact not_settled_of_pending htold.mem htold.pending
      · exact ⟨_, htold.accepted, htold.id, rfl, InvitationStatus.noConfusion⟩
    | _ => exact h.elim
  | cancel c =>
    cases answer with
    | cancelled found =>
      obtain ⟨hfound, hid, hstatus⟩ := h
      subst hfound hid hstatus
      refine ⟨fun hidle => Bool.noConfusion hidle, fun before after htold => ?_⟩
      obtain ⟨row, hrow, hid, _, hpending, hcancelled⟩ := htold rfl
      refine ⟨?_, _, hcancelled, hid, rfl, InvitationStatus.noConfusion⟩
      rw [← hid]
      exact not_settled_of_pending hrow hpending
    | _ => exact h.elim
  | _ => exact h.elim

theorem OnboardingDatabase.SettledAs.settled {id : Uuid} {status : InvitationStatus}
    (h : db.SettledAs id status) : db.Settled id := by
  obtain ⟨r, hr, hid, hstatus, hne⟩ := h
  exact ⟨r, hr, hid, hstatus.symm ▸ hne⟩

theorem OnboardingDatabase.SettledAs.later {id : Uuid} {status : InvitationStatus}
    {db' : OnboardingDatabase} (hlater : Later db db') (h : db.SettledAs id status) :
    db'.SettledAs id status := by
  obtain ⟨r, hr, hid, hstatus, hne⟩ := h
  exact ⟨r, hlater.settled_row hr (hstatus.symm ▸ hne), hid, hstatus, hne⟩

/-- Two calls whose answers tell that they have settled an invitation are one call, whatever they and
the other calls overlap with, and the invitation stays as this call has settled it. -/
theorem invitation_settled_once (calls : List OnboardingCall) (db : OnboardingDatabase)
    (hlive : db.Live) (hreach : State.Reaches OnboardingLock.conflicts (fun _ _ => True)
      (onboardingCalls calls db) s) {call call' : OnboardingCall} {answer answer' : OnboardingAnswer}
    {id : Uuid} {status status' : InvitationStatus} (hcall : calls[i]? = some call)
    (hcall' : calls[j]? = some call') (ha : s.answer i = some answer)
    (ha' : s.answer j = some answer') (hsettled : call.SettledBy answer id status)
    (hsettled' : call'.SettledBy answer' id status') :
    i = j ∧ s.committed.SettledAs id status := by
  obtain ⟨hbusy, hspends⟩ := hsettled.spends
  obtain ⟨hbusy', hspends'⟩ := hsettled'.spends
  refine (onboardingCalls_settled calls hlive).once (fun view => view.Settled id)
    (fun view => view.SettledAs id status) (fun _ => SettledAs.settled)
      (fun u v k hu hadvances => (later_of_advances hu.live hadvances).2.settled)
        (fun u v k hu hadvances => SettledAs.later (later_of_advances hu.live hadvances).2) hreach ha ha'
          ?_ ?_ (fun g view htold => ?_) fun g view htold => ?_
  · rwa [invitationsAt_eq hcall]
  · rwa [invitationsAt_eq hcall']
  · rw [invitationsAt_eq hcall] at htold
    exact hspends _ _ htold
  · rw [invitationsAt_eq hcall'] at htold
    exact (hspends' _ _ htold).imp_right SettledAs.settled

theorem guest_settles_once :
    ∃ after : OnboardingDatabase, after.SettledAs "invitation" .accepted := by
  obtain ⟨s, a, hreach, ha⟩ := guest_run
  have hcall : guestCalls[0]? = some (.accept knowsSecret guestAccepts) := rfl
  have honce := invitation_settled_once guestCalls frontDesk frontDesk_live hreach hcall hcall ha ha
    ⟨rfl, rfl⟩ ⟨rfl, rfl⟩
  exact ⟨s.committed, honce.2⟩

end Runs

/-! ## What an acceptance gives -/

/-- An acceptance gives at most what is proposed, and roles only that are not privileged; with a
privileged role among the proposed ones it gives nothing, and makes requests for who has invited. -/
structure GivenAtCommit (row : TenantInvitation) (a : AcceptedInvitation)
    (before after : OnboardingDatabase) : Prop where
  held : a.membershipStatus = .pending ↔
    ∃ roleId ∈ row.proposedAccess.roleIds, before.PrivilegedRole row.tenantId roleId
  member : a.membershipStatus = .active ∧ after.ActiveMember row.tenantId a.userId ∨
    a.membershipStatus = .pending ∧ ∃ id, after.HasMember id row.tenantId a.userId
  roles : ∀ r ∈ after.userRoleAssignments.rows, r ∈ before.userRoleAssignments.rows ∨
    a.membershipStatus = .active ∧ r.tenantId = row.tenantId ∧ r.userId = a.userId ∧
      r.assignedByUserId = row.invitedByUserId ∧ r.roleId ∈ row.proposedAccess.roleIds ∧
        before.OrdinaryRole row.tenantId r.roleId
  groups : ∀ r ∈ after.groupMemberships.rows, r ∈ before.groupMemberships.rows ∨
    a.membershipStatus = .active ∧ r.tenantId = row.tenantId ∧ r.userId = a.userId ∧
      r.groupId ∈ row.proposedAccess.groupIds
  locations : ∀ r ∈ after.userLocationAssignments.rows, r ∈ before.userLocationAssignments.rows ∨
    a.membershipStatus = .active ∧ r.tenantId = row.tenantId ∧ r.userId = a.userId ∧
      ⟨r.locationId, r.scheduleId⟩ ∈ row.proposedAccess.locationAssignments
  requests : ∀ r ∈ after.privilegedAccessRequests.rows, r ∈ before.privilegedAccessRequests.rows ∨
    a.membershipStatus = .pending ∧ r.requestId ∈ a.privilegedAccessRequestIds ∧
      r.status = .pending ∧ r.tenantId = row.tenantId ∧ r.subjectUserId = a.userId ∧
        r.requestedByUserId = row.invitedByUserId ∧ before.PrivilegedRole row.tenantId r.roleId

section Given

variable {verify : String → String → Bool} {c : AcceptInvitationCall} {a : AcceptedInvitation}
  {row : TenantInvitation} {before after : OnboardingDatabase}

theorem OnboardingDatabase.OrdinaryRole.not_privileged {db : OnboardingDatabase} {t roleId : Uuid}
    (h : db.OrdinaryRole t roleId) : ¬ db.PrivilegedRole t roleId := by
  obtain ⟨r, hr, _, hid, hkey⟩ := h
  rintro ⟨r', hr', _, hid', hkey'⟩
  have hsame : r = r' := by
    apply Table.shared_entry hr hr' (k := (Index.primary, [r.roleId]))
    · exact List.mem_cons_self
    · rw [hid, ← hid']
      exact List.mem_cons_self
  rw [hsame] at hkey
  exact hkey hkey'

theorem AcceptedAtCommit.given (h : AcceptedAtCommit verify c a row before after) :
    GivenAtCommit row a before after := by
  obtain ⟨privileged, hids, hsorted, hgiven⟩ := h.access
  have hproposed : ∀ roleId, roleId ∈ row.proposedAccess.distinct.roleIds ↔
      roleId ∈ row.proposedAccess.roleIds := fun roleId => List.mem_eraseDups
  rcases hgiven with ⟨hnone, hstatus, hactive, hgranted⟩ | ⟨hsome, hstatus, hmember, hgranted⟩
  · have hordinary : ∀ roleId ∈ row.proposedAccess.distinct.roleIds,
        before.OrdinaryRole row.tenantId roleId := by
      intro roleId hrole
      rcases hsorted.ordinary roleId hrole with hprivileged | hordinary
      · rw [hnone] at hprivileged
        cases hprivileged
      · exact hordinary
    refine ⟨⟨fun hpending => ?_, ?_⟩, Or.inl ⟨hstatus, hactive⟩, fun r hr => ?_, fun r hr => ?_,
      fun r hr => ?_, fun r hr => ?_⟩
    · rw [hstatus] at hpending
      cases hpending
    · rintro ⟨roleId, hrole, hprivileged⟩
      exact absurd hprivileged
        (OrdinaryRole.not_privileged (hordinary roleId ((hproposed roleId).mpr hrole)))
    · refine (hgranted.assignments r hr).imp_right fun ⟨roleId, hrole, hnew⟩ => ?_
      rw [hnew]
      exact ⟨hstatus, rfl, rfl, rfl, (hproposed roleId).mp hrole, hordinary roleId hrole⟩
    · refine (hgranted.groups r hr).imp_right fun ⟨groupId, hgroup, hnew⟩ => ?_
      rw [hnew]
      exact ⟨hstatus, rfl, rfl, List.mem_eraseDups.mp hgroup⟩
    · refine (hgranted.locations r hr).imp_right fun ⟨location, hlocation, hnew⟩ => ?_
      rw [hnew]
      exact ⟨hstatus, rfl, rfl, List.mem_eraseDups.mp hlocation⟩
    · exact (hgranted.requests r hr).imp_right fun hin => absurd hin List.not_mem_nil
  · have hnothing : ∀ {β : Type} {x : β} {P : Prop}, x ∈ ([] : List β) → P :=
      fun hin => absurd hin List.not_mem_nil
    refine ⟨⟨fun _ => ?_, fun _ => hstatus⟩, Or.inr ⟨hstatus, hmember⟩, fun r hr => ?_, fun r hr => ?_,
      fun r hr => ?_, fun r hr => ?_⟩
    · obtain ⟨roleId, hrole⟩ := List.exists_mem_of_ne_nil privileged hsome
      obtain ⟨hin, hprivileged⟩ := hsorted.privileged roleId hrole
      exact ⟨roleId, (hproposed roleId).mp hin, hprivileged⟩
    · exact (hgranted.assignments r hr).imp_right fun ⟨_, hin, _⟩ => hnothing hin
    · exact (hgranted.groups r hr).imp_right fun ⟨_, hin, _⟩ => hnothing hin
    · exact (hgranted.locations r hr).imp_right fun ⟨_, hin, _⟩ => hnothing hin
    · refine (hgranted.requests r hr).imp_right fun hin => ?_
      obtain ⟨roleId, hrole, rfl⟩ := List.mem_map.mp hin
      refine ⟨hstatus, ?_, rfl, rfl, rfl, rfl, (hsorted.privileged roleId hrole).2⟩
      rw [hids]
      exact List.mem_map_of_mem hrole

end Given

/-- Every acceptance that is answered was made by one step, for an invitation that was pending and
unexpired at that moment and whose secret was shown, and this step gave at most what is proposed. -/
theorem acceptance_within_proposal (calls : List OnboardingCall) (db : OnboardingDatabase)
    (hlive : db.Live) {s : OnboardingState OnboardingAnswer} {i : Nat}
    (hreach : State.Reaches OnboardingLock.conflicts (fun _ _ => True) (onboardingCalls calls db) s)
    {verify : String → String → Bool} {c : AcceptInvitationCall} {a : AcceptedInvitation}
    (hcall : calls[i]? = some (.accept verify c)) (ha : s.answer i = some (.accepted a)) :
    ∃ before after : OnboardingState OnboardingAnswer,
      State.Reaches OnboardingLock.conflicts (fun _ _ => True) (onboardingCalls calls db) before ∧
      before.step OnboardingLock.conflicts i = some after ∧
      State.Reaches OnboardingLock.conflicts (fun _ _ => True) after s ∧
      ∃ row, AcceptedAtCommit verify c a row before.committed after.committed ∧
        GivenAtCommit row a before.committed after.committed := by
  rcases (onboardingCalls_settled calls hlive).answered hreach ha with
    hidle | ⟨g, before, after, hbefore, hstep, hafter, hdb, htold⟩
  · rw [invitationsAt_eq hcall] at hidle
    exact hidle.elim
  · rw [invitationsAt_eq hcall] at htold
    obtain ⟨row, haccepted⟩ := htold
    rw [← hdb] at haccepted
    exact ⟨before, after, hbefore, hstep, hafter, row, haccepted, haccepted.given⟩

def ownerInvitation : TenantInvitation :=
  { guestInvitation with
    proposedAccess := ⟨["reader", "owner"], [], []⟩
    requiresPrivilegedApproval := true }

def ownerDesk : OnboardingDatabase :=
  (OnboardingWrite.stored (.insertRole ⟨"owner", "tenant", "tenant.owner", "Owner", none, .active, 0,
    0⟩)).apply (frontDesk.setInvitations (Table.empty.insert ownerInvitation))

theorem ownerDesk_live : ownerDesk.Live := by
  refine live_of_guest ownerInvitation (fun r hr => ?_) rfl rfl mem_frontDesk
  rcases Table.mem_insert hr with hold | hnew
  · cases hold
  · exact hnew

def OnboardingAnswer.heldFor (requestId : Uuid) : OnboardingAnswer → Bool
  | accepted a => decide (a.membershipStatus = .pending ∧ a.privilegedAccessRequestIds = [requestId])
  | _ => false

theorem owner_run : ∃ (s : OnboardingState OnboardingAnswer) (a : AcceptedInvitation),
    State.Reaches OnboardingLock.conflicts (fun _ _ => True) (onboardingCalls guestCalls ownerDesk) s ∧
      s.answer 0 = some (.accepted a) ∧ a.membershipStatus = .pending ∧
        a.privilegedAccessRequestIds = ["owner"] := by
  have hrun : ((onboardingCalls guestCalls ownerDesk).run OnboardingLock.conflicts
      (List.replicate 10 0 ++ List.replicate 2 1)).map (fun s =>
        (s.answer 0).any (OnboardingAnswer.heldFor "owner")) = some true := by
    decide +kernel
  obtain ⟨s, answer, hreach, ha, hheld⟩ := reaches_of_check hrun
  cases answer with
  | accepted a => exact ⟨s, a, hreach, ha, of_decide_eq_true hheld⟩
  | _ => cases hheld

/-- A reader becomes a member at once; an owner waits for an approval. -/
theorem guest_within_proposal :
    (∃ (a : AcceptedInvitation) (row : TenantInvitation) (before after : OnboardingDatabase),
      AcceptedAtCommit knowsSecret guestAccepts a row before after ∧
        GivenAtCommit row a before after) ∧
    ∃ (a : AcceptedInvitation) (row : TenantInvitation) (before after : OnboardingDatabase),
      AcceptedAtCommit knowsSecret guestAccepts a row before after ∧
        GivenAtCommit row a before after ∧ a.membershipStatus = .pending ∧
          a.privilegedAccessRequestIds = ["owner"] := by
  constructor
  · obtain ⟨s, a, hreach, ha⟩ := guest_run
    obtain ⟨before, after, _, _, _, row, haccepted, hgiven⟩ :=
      acceptance_within_proposal guestCalls frontDesk frontDesk_live hreach rfl ha
    exact ⟨a, row, before.committed, after.committed, haccepted, hgiven⟩
  · obtain ⟨s, a, hreach, ha, hheld⟩ := owner_run
    obtain ⟨before, after, _, _, _, row, haccepted, hgiven⟩ :=
      acceptance_within_proposal guestCalls ownerDesk ownerDesk_live hreach rfl ha
    exact ⟨a, row, before.committed, after.committed, haccepted, hgiven, hheld⟩

end VerigenceSecurity
