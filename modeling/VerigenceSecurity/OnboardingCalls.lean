import VerigenceSecurity.OnboardingLocks

/-! # Overlapping calls of tenant onboarding

What the calls of the service write, and what each of them can rely on while the others, and any
calls of other services, overlap it.
-/

namespace VerigenceSecurity
set_option autoImplicit false

open Transaction Program Relational

/-! ## What the calls write -/

section Writes

variable {α : Type} {Q : OnboardingWrite → Prop}

theorem within_insertChecked {name : OnboardingStatement} {free : OnboardingDatabase → Bool}
    {locks : List OnboardingLock} {references : OnboardingDatabase → List OnboardingReference}
    {write : OnboardingWrite} (h : Q write) :
    (execute name (fun db => insertChecked (free db) locks (references db) write) :
      OnboardingTx Unit).Within Q := by
  refine within_execute fun db o ho w hw => ?_
  rw [(insertChecked_ok ho).2.1, List.mem_singleton] at hw
  rwa [hw]

theorem within_insertUnlessTaken {name : OnboardingStatement} {free : OnboardingDatabase → Bool}
    {locks : List OnboardingLock} {references : OnboardingDatabase → List OnboardingReference}
    {write : OnboardingWrite} (h : Q write) :
    (execute name (fun db => insertUnlessTaken (free db) locks (references db) write) :
      OnboardingTx Unit).Within Q := by
  refine within_execute fun db o ho w hw => ?_
  rcases insertUnlessTaken_ok ho with hnone | ⟨hedits, _⟩
  · rw [hnone] at hw
    cases hw
  · rw [hedits, List.mem_singleton] at hw
    rwa [hw]

theorem within_changeWhere {name : OnboardingStatement} {find : OnboardingDatabase → List Uuid}
    {locks : Uuid → List OnboardingLock}
    {check : OnboardingDatabase → List Uuid → Option Failure} {write : List Uuid → OnboardingWrite}
    (h : ∀ ids, Q (write ids)) : (changeWhere name find locks check write).Within Q := by
  refine within_bind within_query fun found => within_execute fun db o ho w hw => ?_
  dsimp only at ho
  split at ho
  · cases ho
  · cases ho
    rw [List.mem_singleton.mp hw]
    exact h _

theorem within_lockInvitation (invitationId : Uuid) (inTenant : TenantInvitation → Bool) :
    (lockInvitation invitationId inTenant).Within Q := by
  refine within_execute fun db o ho w hw => ?_
  split at ho
  · cases ho
    cases hw
  · cases ho
    cases hw

theorem within_lockMembership (tenantId userId : Uuid) :
    (lockMembership tenantId userId).Within Q := by
  refine within_execute fun db o ho w hw => ?_
  split at ho
  · cases ho
    cases hw
  · cases ho
    cases hw

/-- A statement that is refused, or makes one edit. -/
theorem within_single {name : OnboardingStatement} {write : OnboardingWrite} (h : Q write)
    {refused : OnboardingDatabase → Prop} [DecidablePred refused] {failure : Failure}
    {locks : OnboardingDatabase → List OnboardingLock} :
    (execute name (fun db => if refused db then .error failure
      else .ok { value := (), edits := [write], locks := locks db }) : OnboardingTx Unit).Within Q := by
  refine within_execute fun db o ho w hw => ?_
  split at ho
  · cases ho
  · cases ho
    rwa [List.mem_singleton.mp hw]

theorem within_updateInvitation {name : OnboardingStatement} {invitationId : Uuid}
    {write : OnboardingWrite} (h : Q write) : (updateInvitation name invitationId write).Within Q := by
  refine within_execute fun db o ho w hw => ?_
  cases ho
  rwa [List.mem_singleton.mp hw]

theorem within_updateUser {name : OnboardingStatement} {userId : Uuid} {write : OnboardingWrite}
    (h : Q write) : (updateUser name userId write).Within Q := by
  refine within_execute fun db o ho w hw => ?_
  cases ho
  rwa [List.mem_singleton.mp hw]

theorem within_updateSelfRequest {name : OnboardingStatement} {c : ReviewCall}
    {write : OnboardingWrite} (h : Q write) : (updateSelfRequest name c write).Within Q := by
  exact within_single h

theorem writes_lockSelfRequest (c : ReviewCall) : (lockSelfRequest c).Writes Q := by
  refine writes_bind (Within.writes (within_execute fun db o ho w hw => ?_)) fun found => ?_
  · split at ho
    · cases ho
    · cases ho
      cases hw
  · split
    · trivial
    · trivial

theorem within_anything {p : Tx α} (h : p.Within fun _ => True) (hstored : ∀ w, Q (.stored w)) :
    (storedPart.program p).Within Q :=
  storedPart.within_program h fun w _ => hstored w

theorem within_createInvitedUser (hstored : ∀ w, Q (.stored w)) (hmember : ∀ row, Q (.insertMembership row))
    (c : CreateInvitationCall) : (createInvitedUser c).Within Q := by
  refine within_bind (within_anything (within_execute fun _ _ _ _ _ => trivial) hstored) fun _ => ?_
  refine within_bind (within_anything (within_execute fun _ _ _ _ _ => trivial) hstored) fun _ => ?_
  exact within_insertChecked (hmember _)

theorem within_materialize (hstored : ∀ w, Q (.stored w))
    (hactivate : ∀ ids t u now, Q (.activatePendingMembership ids t u now))
    (hlocation : ∀ row, Q (.insertUserLocationAssignment row)) (g : AccessGrant)
    (access : ProposedAccess) : (g.materialize access).Within Q := by
  refine within_bind (within_changeWhere fun ids => hactivate ids _ _ _) fun _ => ?_
  refine within_bind (within_each fun roleId _ => within_insertUnlessTaken (hstored _)) fun _ => ?_
  refine within_bind (within_each fun groupId _ => within_insertUnlessTaken (hstored _)) fun _ => ?_
  exact within_each fun location _ => within_insertUnlessTaken (hlocation _)

theorem within_resolveOrCreateIdentityUser (hstored : ∀ w, Q (.stored w)) (c : SelfRegistrationCall) :
    (resolveOrCreateIdentityUser c).Within Q := by
  refine within_bind within_query fun found => ?_
  cases found with
  | none =>
    refine within_bind (within_anything (within_execute fun _ _ _ _ _ => trivial) hstored) fun _ => ?_
    refine within_bind (within_anything (within_execute fun _ _ _ _ _ => trivial) hstored) fun _ => ?_
    refine within_bind (within_anything (within_execute fun _ _ _ _ _ => trivial) hstored) fun _ => ?_
    exact within_pure _
  | some identity =>
    dsimp only
    split
    · exact within_raise _
    split
    · refine within_bind (within_anything (within_execute fun _ _ _ _ _ => trivial) hstored) fun _ => ?_
      exact within_pure _
    split
    · exact within_pure _
    · exact within_raise _

theorem writes_submitSelfRegistration (hstored : ∀ w, Q (.stored w))
    (hmember : ∀ row, Q (.insertMembership row))
    (hrequest : ∀ row, Q (.insertSelfOnboardingRequest row)) (verify : String → String → Bool)
    (depth : Nat) (c : SelfRegistrationCall) : (submitSelfRegistration verify depth c).Writes Q := by
  refine writes_bind within_query.writes fun tenant => ?_
  cases tenant with
  | none => trivial
  | some tenant =>
    refine writes_bind ((effectiveControl_reads _ _ _).weaken fun _ h => h.elim).writes fun enabled => ?_
    split
    · trivial
    refine writes_bind within_query.writes fun setting => ?_
    cases setting with
    | none => trivial
    | some setting =>
      dsimp only
      split
      · trivial
      split
      · trivial
      refine writes_attempt ?_ fun e => trivial
      refine writes_bind (within_resolveOrCreateIdentityUser hstored c).writes fun found => ?_
      refine writes_bind (within_lockMembership _ _).writes fun membership => ?_
      have hpending : (pendingOrNewRequest c membership tenant.tenantId found.1 found.2).Writes Q := by
        refine writes_bind within_query.writes fun pending => ?_
        cases pending with
        | some pending => trivial
        | none =>
          refine writes_bind (Within.writes ?_) fun _ => ?_
          · cases membership with
            | none => exact within_insertChecked (hmember _)
            | some row => exact within_pure _
          refine writes_bind (within_insertChecked (hrequest _)).writes fun _ => ?_
          exact writes_bind (within_insertChecked (hstored _)).writes fun _ => trivial
      split
      · trivial
      · trivial
      · trivial
      · exact hpending
      · exact hpending

theorem writes_approveSelfRequest (hstored : ∀ w, Q (.stored w))
    (hactivate : ∀ ids t u now, Q (.activatePendingMembership ids t u now))
    (hlocation : ∀ row, Q (.insertUserLocationAssignment row))
    (happrove : ∀ id actor now, Q (.approveSelfOnboardingRequest id actor now)) (c : ReviewCall)
    (access : ProposedAccess) : (approveSelfRequest c access).Writes Q := by
  refine writes_bind (writes_lockSelfRequest _) fun request => ?_
  refine writes_bind ((validatedAccess_reads _ _).weaken fun _ h => h.elim).writes fun validated => ?_
  split
  · trivial
  refine writes_bind (within_lockMembership _ _).writes fun membership => ?_
  split
  · trivial
  refine writes_bind (writes_attempt ?_ fun e => trivial) fun _ => ?_
  · refine writes_bind (within_materialize hstored hactivate hlocation _ _).writes fun _ => ?_
    refine writes_bind (within_updateSelfRequest (happrove _ _ _)).writes fun _ => ?_
    exact writes_bind (within_insertChecked (hstored _)).writes fun _ => trivial
  · refine writes_bind within_query.writes fun row => ?_
    cases row <;> trivial

theorem writes_rejectSelfRequest (hstored : ∀ w, Q (.stored w))
    (hreject : ∀ id actor now reason, Q (.rejectSelfOnboardingRequest id actor now reason))
    (c : ReviewCall) (reason : Option String) : (rejectSelfRequest c reason).Writes Q := by
  refine writes_bind (writes_lockSelfRequest _) fun request => ?_
  refine writes_bind (writes_attempt ?_ fun e => trivial) fun _ => ?_
  · refine writes_bind (within_updateSelfRequest (hreject _ _ _ _)).writes fun _ => ?_
    exact writes_bind (within_insertChecked (hstored _)).writes fun _ => trivial
  · refine writes_bind within_query.writes fun row => ?_
    cases row <;> trivial

end Writes

/-! ## Overlapping calls -/

/-- A call of the service, or anything that another service does. -/
inductive OnboardingCall
  | create (hash : String → String) (c : CreateInvitationCall)
  | cancel (c : CancelInvitationCall)
  | accept (verify : String → String → Bool) (c : AcceptInvitationCall)
  | submit (verify : String → String → Bool) (depth : Nat) (c : SelfRegistrationCall)
  | approve (c : ReviewCall) (access : ProposedAccess)
  | reject (c : ReviewCall) (reason : Option String)
  | other (p : Tx Unit)

inductive OnboardingAnswer
  | created (invitation : InvitationView) (rawValue : String)
  | cancelled (found : Bool)
  | accepted (acceptance : AcceptedInvitation)
  | submitted (registration : SelfRegistration)
  | reviewed (request : SelfRequestView)
  | done

def OnboardingCall.program : OnboardingCall → OnboardingTx OnboardingAnswer
  | create hash c => createInvitation hash c >>= fun r => pure (.created r.1 r.2)
  | cancel c => cancelInvitation c >>= fun r => pure (.cancelled r)
  | accept verify c => acceptInvitation verify c >>= fun r => pure (.accepted r)
  | submit verify depth c => submitSelfRegistration verify depth c >>= fun r => pure (.submitted r)
  | approve c access => approveSelfRequest c access >>= fun r => pure (.reviewed r)
  | reject c reason => rejectSelfRequest c reason >>= fun r => pure (.reviewed r)
  | other p => storedPart.program p >>= fun _ => pure .done

def onboardingCalls (calls : List OnboardingCall) (db : OnboardingDatabase) :
    OnboardingState OnboardingAnswer :=
  State.initial db (calls.map OnboardingCall.program)

theorem OnboardingCall.follows (call : OnboardingCall) : call.program.Follows onboardingProtocol := by
  cases call with
  | create => exact follows_bind (follows_createInvitation ..) fun _ => follows_pure _
  | cancel => exact follows_bind (follows_cancelInvitation ..) fun _ => follows_pure _
  | accept => exact follows_bind (follows_acceptInvitation ..) fun _ => follows_pure _
  | submit => exact follows_bind (follows_submitSelfRegistration ..) fun _ => follows_pure _
  | approve => exact follows_bind (follows_approveSelfRequest ..) fun _ => follows_pure _
  | reject => exact follows_bind (follows_rejectSelfRequest ..) fun _ => follows_pure _
  | other => exact follows_bind (follows_stored _) fun _ => follows_pure _

inductive OnboardingLease
  | invitation (row : TenantInvitation)
  | request (row : SelfOnboardingRequest)
  | member (membershipId tenantId userId : Uuid)
  | free (entry : IndexEntry)

def OnboardingLease.lease : OnboardingLease → Lease OnboardingDatabase OnboardingLock
  | invitation row => invitationLease row
  | request row => selfRequestLease row
  | member id t u => memberLease id t u
  | free entry => freeMembershipLease entry

theorem OnboardingLease.respects (L : OnboardingLease) (w : OnboardingWrite) :
    L.lease.Respects OnboardingLock.conflicts onboardingProtocol.needs w := by
  cases L with
  | invitation row => exact invitationLease_respects row w
  | request row => exact selfRequestLease_respects row w
  | member id t u => exact memberLease_respects id t u w
  | free entry => exact freeMembershipLease_respects entry w

structure OnboardingRely (g : OnboardingProgress) (db : OnboardingDatabase) : Prop where
  leases : ∀ L : OnboardingLease, L.lease.Current g db
  carried : g.Remembers OnboardingDatabase.CarriedInto db

theorem carried_evolution : Evolution (fun _ : OnboardingWrite => True) OnboardingDatabase.CarriedInto where
  refl := OnboardingDatabase.CarriedInto.refl
  trans := OnboardingDatabase.CarriedInto.trans
  edit w db _ := w.carried db

structure OnboardingGuarded (s : OnboardingState OnboardingAnswer) : Prop where
  locking : s.Protected onboardingProtocol OnboardingLock.conflicts
  confined : s.Confined fun _ : OnboardingWrite => True
  leases : ∀ (L : OnboardingLease) (j : Nat) (c : Call OnboardingDatabase OnboardingWrite
    OnboardingLock OnboardingStatement Failure OnboardingAnswer), s.calls[j]? = some c →
      c.finished = false → L.lease.Current c.progress s.committed
  carried : ∀ (j : Nat) (c : Call OnboardingDatabase OnboardingWrite OnboardingLock
    OnboardingStatement Failure OnboardingAnswer), s.calls[j]? = some c →
      c.progress.Remembers OnboardingDatabase.CarriedInto s.committed

theorem OnboardingGuarded.step {s t : OnboardingState OnboardingAnswer} {i : Nat}
    (h : OnboardingGuarded s) (hstep : s.step OnboardingLock.conflicts i = some t) :
    OnboardingGuarded t where
  locking := h.locking.step OnboardingLock.conflicts_comm onboardingProtocol_stable hstep
  confined := h.confined.step hstep
  leases L := Lease.current_step L.respects h.locking (h.leases L) hstep
  carried := carried_evolution.remembers_step h.confined h.carried hstep

theorem onboardingGuarded_initial (calls : List OnboardingCall) (db : OnboardingDatabase) :
    OnboardingGuarded (onboardingCalls calls db) where
  locking := by
    refine State.protected_initial fun p hp => ?_
    obtain ⟨call, _, rfl⟩ := List.mem_map.mp hp
    exact call.follows
  confined := State.confined_anything db _
  leases L := Lease.current_initial L.lease db _
  carried := Evolution.remembers_initial db _

theorem OnboardingGuarded.relies {s : OnboardingState OnboardingAnswer} (h : OnboardingGuarded s)
    {j : Nat} {c : Call OnboardingDatabase OnboardingWrite OnboardingLock OnboardingStatement Failure
      OnboardingAnswer} (hc : s.calls[j]? = some c) (hunfinished : c.finished = false) :
    OnboardingRely c.progress s.committed :=
  ⟨fun L => h.leases L j c hc hunfinished, h.carried j c hc⟩

end VerigenceSecurity
