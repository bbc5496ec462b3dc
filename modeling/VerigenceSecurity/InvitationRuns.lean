import VerigenceSecurity.OnboardingCalls

/-! # Invitations in overlapping calls

Whatever calls overlap, a pending invitation has the membership of its user, each commit settles a
pending invitation or leaves it as it is, and what a call answers about an invitation is what its
commit has made of it.
-/

namespace VerigenceSecurity
set_option autoImplicit false

open Transaction Program Relational OnboardingDatabase

structure InvitationRely (g : OnboardingProgress) (db : OnboardingDatabase) : Prop
    extends OnboardingRely g db where
  live : db.Live
  later : g.Remembers Later db

theorem OnboardingRely.earlier {g : OnboardingProgress} {db db' : OnboardingDatabase}
    {label : OnboardingStatement} {o : Outcome OnboardingWrite OnboardingLock Unit}
    (h : OnboardingRely g db) (h' : OnboardingRely (g.ran label db o) db') : OnboardingRely g db' where
  leases L hlock e he hholds :=
    h'.leases L (List.mem_append_right _ hlock) _ rfl (h.leases L hlock e he hholds)
  carried e he := h'.carried e (List.mem_cons_of_mem _ he)

theorem steady_invitationRely : Steady InvitationRely := by
  intro g db db' label o h h'
  refine ⟨h.toOnboardingRely.earlier h'.toOnboardingRely, h'.live, fun e he => ?_⟩
  exact h'.later e (List.mem_cons_of_mem _ he)

/-- Commits keep what pending invitations rest on; what an answer tells is about the commit. -/
def invitationSettlement {α : Type} (tells : α → OnboardingDatabase → OnboardingDatabase → Prop)
    (idle : α → Prop) : Settlement OnboardingDatabase OnboardingWrite OnboardingLock
      OnboardingStatement α where
  rely := InvitationRely
  commits g db := (replayAll g.pending db).Live ∧ Later db (replayAll g.pending db)
  answers a g db := tells a db (replayAll g.pending db)
  idle := idle

def silentSettlement (α : Type) : Settlement OnboardingDatabase OnboardingWrite OnboardingLock
    OnboardingStatement α :=
  invitationSettlement (fun _ _ _ => True) fun _ => True

section Programs

variable {α : Type} {g : OnboardingProgress} {row : TenantInvitation}

theorem harmless_settles {p : OnboardingTx α} (h : p.Writes OnboardingWrite.Harmless) :
    p.Settles (silentSettlement α) Progress.start :=
  h.settles (List.forall_mem_nil _) (fun _ => trivial)
    fun _ _ hpending hrely => OnboardingWrite.harmless_commit hpending hrely.live

theorem ensures_start {rely : OnboardingProgress → OnboardingDatabase → Prop}
    {R : OnboardingDatabase → OnboardingDatabase → Prop} (hg : g.pending = [])
    (h : ∀ db, rely g db → R db db) : g.Ensures rely R := by
  intro db hdb
  rw [hg]
  exact h db hdb

theorem pending_ran {β : Type} {label : OnboardingStatement} {db : OnboardingDatabase}
    {o : Outcome OnboardingWrite OnboardingLock β} (hg : g.pending = []) :
    (g.ran label db o).pending = o.edits := by
  simp [Progress.ran, hg]

/-! ## `create_invitation` -/

theorem createInvitedUser_yields {c : CreateInvitationCall}
    {post : Unit → OnboardingProgress → Prop} (hg : g.pending = [])
    (hpost : ∀ g', g'.Ensures InvitationRely (OnboardingWrite.Inviting c.membershipId c.tenantId
      c.userId) → post () g') : (createInvitedUser c).Yields InvitationRely post g := by
  have hstored : ∀ {p : Tx Unit}, p.Within (fun _ => True) →
      (storedPart.program p).Within fun w => ∃ write, w = .stored write :=
    fun h => storedPart.within_program h fun w _ => ⟨w, rfl⟩
  have hstep : ∀ (g : OnboardingProgress) (db : OnboardingDatabase) (label : OnboardingStatement)
      (o : Outcome OnboardingWrite OnboardingLock Unit),
      (∀ w ∈ g.pending, ∃ write, w = OnboardingWrite.stored write) → InvitationRely g db →
      (∀ w ∈ o.edits, ∃ write, w = OnboardingWrite.stored write) →
      ∀ w ∈ (g.ran label db o).pending, ∃ write, w = OnboardingWrite.stored write := by
    intro g db label o hbefore _ ho w hw
    rcases List.mem_append.mp hw with hw | hw
    · exact hbefore w hw
    · exact ho w hw
  have hnone : ∀ w ∈ g.pending, ∃ write, w = OnboardingWrite.stored write := by
    rw [hg]
    exact List.forall_mem_nil _
  apply yields_bind
  refine yields_within _ (hstored (within_execute fun _ _ _ _ _ => trivial)) hstep hnone ?_
  intro _ g₁ hg₁
  apply yields_bind
  refine yields_within _ (hstored (within_execute fun _ _ _ _ _ => trivial)) hstep hg₁ ?_
  intro _ g₂ hg₂
  apply yields_execute
  intro db o hdb ho
  obtain ⟨hfree, hedits, hlocks⟩ := insertChecked_ok ho
  apply hpost
  intro db' hdb'
  have hbefore : ∀ k ∈ Row.entries (pendingMembership c.membershipId c.tenantId c.userId),
      k ∉ db'.tenantMemberships.taken := by
    intro k hk
    have hnow : k ∉ db.tenantMemberships.taken := by
      rw [← OnboardingWrite.taken_replay_stored hg₂ db]
      exact Table.isSome_insert?_iff_taken.mp hfree k hk
    have hlock : (freeMembershipLease k).lock ∈ o.locks :=
      hlocks _ (List.mem_map.mpr ⟨k, hk, rfl⟩)
    have hfound : (freeMembershipLease k).Found (g₂.ran .insertMembership db o) :=
      Lease.found_ran hlock hnow
    exact hfound.holds (hdb'.leases (.free k))
  have hpending : (g₂.ran .insertMembership db o).pending =
      g₂.pending ++ [.insertMembership (pendingMembership c.membershipId c.tenantId c.userId)] := by
    simp [Progress.ran, hedits]
  rw [hpending]
  exact OnboardingWrite.inviting_of_insert hg₂ rfl hdb'.live hbefore

/-- `except Exception: rollback; raise` around a part that settles. -/
theorem guarded_settles {S : Settlement OnboardingDatabase OnboardingWrite OnboardingLock
    OnboardingStatement α} {p : OnboardingTx α} (h : p.Settles S g) :
    (attempt rollbackAndReraise p).Settles S g := by
  refine settles_attempt h (fun e g => ?_) fun e P a ha => ?_
  · exact settles_rollback_bind (settles_raise e)
  · cases ha

theorem settled_answers {tells : α → OnboardingDatabase → OnboardingDatabase → Prop}
    {idle : α → Prop} {a : α} (h : g.Ensures InvitationRely fun db view =>
      view.Live ∧ Later db view ∧ tells a db view) :
    (commitNow >>= fun _ => pure a : OnboardingTx α).Settles (invitationSettlement tells idle) g := by
  refine settles_commit_bind fun db hdb => ?_
  obtain ⟨hlive, hlater, htells⟩ := h db hdb
  exact ⟨⟨hlive, hlater⟩, reports_pure htells⟩

theorem kept_harmless (w : OnboardingWrite) (db view : OnboardingDatabase) (hw : w.Harmless)
    (h : view.Live ∧ Later db view ∧ True) :
    (w.apply view).Live ∧ Later db (w.apply view) ∧ True :=
  ⟨OnboardingWrite.live_of_harmless hw h.1,
    h.2.1.trans (OnboardingWrite.later_of_harmless hw view), trivial⟩

theorem storeInvitation_settles {c : CreateInvitationCall} (ht : row.tenantId = c.tenantId)
    (hu : row.invitedUserId = c.userId) (hg : g.pending = []) :
    (storeInvitation c row).Settles (invitationSettlement (fun _ _ _ => True) fun _ => False) g := by
  refine settles_bind (createInvitedUser_yields hg fun g₁ h₁ => ?_)
  rw [← ht, ← hu] at h₁
  refine settles_bind (yields_execute fun db o hdb ho => ?_)
  have h₂ : (g₁.ran .insertInvitation db o).Ensures InvitationRely fun db view =>
      view.Live ∧ Later db view ∧ True := by
    refine h₁.ran steady_invitationRely hdb _ o fun a b hab => ?_
    rw [(insertChecked_ok ho).2.1]
    exact ⟨hab.invite.1, hab.invite.2, trivial⟩
  have haudit : ∀ row, OnboardingWrite.Harmless (.stored (.insertAdminChange row)) := fun _ => trivial
  refine settles_bind (yields_ensures (within_insertChecked (haudit _)) steady_invitationRely
    kept_harmless h₂ fun _ g₃ h₃ => ?_)
  exact settled_answers h₃

theorem createInvitation_settles (hash : String → String) (c : CreateInvitationCall) :
    (createInvitation hash c).Settles (silentSettlement _) Progress.start := by
  unfold createInvitation
  split
  · exact settles_raise _
  split
  · refine settles_bind (yields_reads within_query rfl fun found g₁ hg₁ => ?_)
    split
    · exact settles_raise _
    refine settles_bind (yields_reads (validatedAccess_reads _ _) hg₁ fun validated g₂ hg₂ => ?_)
    have hstore := guarded_settles (storeInvitation_settles rfl rfl hg₂ :
      (storeInvitation c (c.row hash validated ‹_›)).Settles _ g₂)
    refine hstore.bind (fun _ _ h => h) (fun _ _ h => h.elim) (fun _ _ h => h) fun _ _ _ _ => ?_
    refine reports_query_bind fun row => ?_
    cases row with
    | none => exact reports_raise _
    | some row => exact reports_pure trivial
  · exact settles_raise _

/-! ## A locked invitation -/

/-- The call has locked this invitation. If it is pending, the membership behind it stays the same. -/
structure LockedInvitation (row : TenantInvitation) (g : OnboardingProgress) : Prop where
  found : (invitationLease row).Found g
  member : row.status = .pending → ∃ id, g.Ensures InvitationRely fun db _ =>
    db.HasMember id row.tenantId row.invitedUserId

theorem lockInvitation_yields {id : Uuid} {inTenant : TenantInvitation → Bool}
    {post : Option TenantInvitation → OnboardingProgress → Prop} (hg : g.pending = [])
    (hnone : ∀ g', g'.pending = [] → post none g')
    (hsome : ∀ row g', row.invitationId = id → inTenant row = true → g'.pending = [] →
      LockedInvitation row g' → post (some row) g') :
    (lockInvitation id inTenant).Yields InvitationRely post g := by
  apply yields_execute
  intro db o hdb ho
  rw [hg, replayAll_nil] at ho
  cases hfound : db.tenantInvitations.rows.find? fun r => decide (r.invitationId = id) && inTenant r with
  | none =>
    rw [hfound] at ho
    cases ho
    exact hnone _ (pending_ran hg)
  | some row =>
    rw [hfound] at ho
    cases ho
    have hrow : row ∈ db.tenantInvitations.rows := List.mem_of_find?_eq_some hfound
    have hmatch := List.find?_some hfound
    simp only [Bool.and_eq_true, decide_eq_true_eq] at hmatch
    refine hsome row _ hmatch.1 hmatch.2 (pending_ran hg) ?_
    have hlease : (invitationLease row).Found (g.ran .lockInvitation db ⟨some row, [],
        [ownLock .tenantInvitations id .update]⟩) := by
      refine Lease.found_ran ?_ hrow
      rw [invitationLease, hmatch.1]
      exact List.mem_singleton_self _
    refine ⟨hlease, fun hpending => ?_⟩
    obtain ⟨membershipId, hmember⟩ := hdb.live.member row hrow hpending
    refine ⟨membershipId, fun db' hdb' => ?_⟩
    have hlater : Later db db' := hdb'.later _ List.mem_cons_self
    exact hlater.hasMember hrow (hlease.holds (hdb'.leases (.invitation row))) hpending hmember

def OnboardingWrite.KeepsInvitations (w : OnboardingWrite) : Prop :=
  ∀ db : OnboardingDatabase, (w.apply db).tenantInvitations = db.tenantInvitations

structure Closes (row final : TenantInvitation) (g : OnboardingProgress) : Prop where
  found : (invitationLease row).Found g
  closing : ∀ w ∈ g.pending, w.Closing row
  final : g.Ensures InvitationRely fun _ view => final ∈ view.tenantInvitations.rows

section Closes

variable {final : TenantInvitation} {db : OnboardingDatabase}

/-- One statement of the call. -/
theorem Closes.ran {β : Type} {final' : TenantInvitation} (h : Closes row final g)
    (hdb : InvitationRely g db) (label : OnboardingStatement)
    (o : Outcome OnboardingWrite OnboardingLock β) (ho : ∀ w ∈ o.edits, w.Closing row)
    (hfinal : ∀ view : OnboardingDatabase, final ∈ view.tenantInvitations.rows →
      final' ∈ (replayAll o.edits view).tenantInvitations.rows) :
    Closes row final' (g.ran label db o) where
  found := h.found.ran (hdb.leases (.invitation row)) label o
  closing w hw := by
    rcases List.mem_append.mp hw with hw | hw
    · exact h.closing w hw
    · exact ho w hw
  final := h.final.ran steady_invitationRely hdb label o fun _ view hview => hfinal view hview

theorem Closes.yields {p : OnboardingTx α} {post : α → OnboardingProgress → Prop}
    (hp : p.Within fun w => w.Closing row ∧ w.KeepsInvitations) (h : Closes row final g)
    (hpost : ∀ a g', Closes row final g' → post a g') : p.Yields InvitationRely post g := by
  refine yields_within (Closes row final) hp (fun g db label o hg hdb ho => ?_) h hpost
  refine hg.ran hdb label o (fun w hw => (ho w hw).1) fun view hview => ?_
  refine Program.replayAll_keeps (R := fun view : OnboardingDatabase =>
    final ∈ view.tenantInvitations.rows) (fun w view hw hview => ?_) (fun w hw => (ho w hw).2) hview
  simp only [onboarding_replay, hw view]
  exact hview

/-- At the commit the invitation is still pending, and it is settled by it. -/
theorem Closes.commits (h : Closes row final g) (hpending : row.status = .pending)
    (hid : final.invitationId = row.invitationId) (hstatus : final.status ≠ .pending)
    (hdb : InvitationRely g db) : row ∈ db.tenantInvitations.rows ∧
      (replayAll g.pending db).Live ∧ Later db (replayAll g.pending db) := by
  have hrow : row ∈ db.tenantInvitations.rows := h.found.holds (hdb.leases (.invitation row))
  exact ⟨hrow, OnboardingWrite.closing_commit hdb.live hrow hpending h.closing
    ⟨final, h.final db hdb, hid, hstatus⟩⟩

end Closes

theorem LockedInvitation.closes (h : LockedInvitation row g) (hg : g.pending = []) :
    Closes row row g where
  found := h.found
  closing := by
    rw [hg]
    exact List.forall_mem_nil _
  final := ensures_start hg fun _ hdb => h.found.holds (hdb.leases (.invitation row))

/-! ## `cancel_invitation` -/

/-- The commit of a cancellation: the invitation was pending until then. -/
def CancelledAtCommit (c : CancelInvitationCall) (before after : OnboardingDatabase) : Prop :=
  ∃ row ∈ before.tenantInvitations.rows, row.invitationId = c.invitationId ∧
    row.tenantId = c.tenantId ∧ row.status = .pending ∧
    ({ row with status := .cancelled } : TenantInvitation) ∈ after.tenantInvitations.rows

theorem cancelInvitation_settles (c : CancelInvitationCall) : (cancelInvitation c).Settles
    (invitationSettlement (fun a before after => a = true → CancelledAtCommit c before after)
      fun a => a = false) Progress.start := by
  refine settles_bind (lockInvitation_yields rfl (fun g₁ hg₁ => ?_) ?_)
  · exact settles_rollback_bind (settles_pure rfl)
  intro row g₁ hid htenant hg₁ hlocked
  have ht : row.tenantId = c.tenantId := of_decide_eq_true htenant
  dsimp only
  split
  · exact settles_rollback_bind (settles_raise _)
  rename_i hstatus
  have hpending : row.status = .pending := not_not.mp hstatus
  refine guarded_settles (settles_bind (yields_execute fun db o hdb ho => ?_))
  cases ho
  have hclosed : Closes row { row with status := .cancelled } (g₁.ran .cancelInvitation db
      ⟨(), [.cancelInvitation c.tenantId c.invitationId],
        [ownLock .tenantInvitations c.invitationId .noKeyUpdate]⟩) := by
    refine (hlocked.closes hg₁).ran hdb _ _ (fun w hw => ?_) fun view hview => ?_
    · rw [List.mem_singleton.mp hw]
      exact hid.symm
    · simp only [replayAll_cons, replayAll_nil, onboarding_replay, OnboardingWrite.apply, setInvitations]
      exact Table.mem_update_set hview (decide_eq_true ⟨ht, hid⟩)
  refine settles_bind (hclosed.yields (within_changeWhere fun ids => ?_) fun _ g₂ h₂ => ?_)
  · exact ⟨⟨ht.symm, rfl⟩, fun _ => rfl⟩
  refine settles_bind (h₂.yields (within_insertChecked ⟨trivial, fun _ => rfl⟩) fun _ g₃ h₃ => ?_)
  refine settled_answers fun db hdb => ?_
  obtain ⟨hrow, hlive, hlater⟩ := h₃.commits hpending rfl InvitationStatus.noConfusion hdb
  exact ⟨hlive, hlater, fun _ => ⟨row, hrow, hid, ht, hpending, h₃.final db hdb⟩⟩

end Programs

end VerigenceSecurity
