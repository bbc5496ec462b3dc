import VerigenceSecurity.OnboardingStore
import VerigenceSecurity.RowHistories

/-! # What pending invitations rest on

A pending invitation has the membership of its user in its tenant, which is pending or active, and
shares it with no other pending invitation. Which writes keep this, and what they leave of earlier
rows.
-/

namespace VerigenceSecurity
set_option autoImplicit false

open Transaction Relational

namespace OnboardingDatabase

def HasMember (db : OnboardingDatabase) (membershipId tenantId userId : Uuid) : Prop :=
  ∃ m ∈ db.tenantMemberships.rows, m.membershipId = membershipId ∧ m.tenantId = tenantId ∧
    m.userId = userId ∧ (m.status = .pending ∨ m.status = .active)

def ActiveMember (db : OnboardingDatabase) (tenantId userId : Uuid) : Prop :=
  ∃ m ∈ db.tenantMemberships.rows, m.tenantId = tenantId ∧ m.userId = userId ∧ m.status = .active

def Settled (db : OnboardingDatabase) (invitationId : Uuid) : Prop :=
  ∃ r ∈ db.tenantInvitations.rows, r.invitationId = invitationId ∧ r.status ≠ .pending

/-- Every pending invitation has the membership of its user, and has it alone. -/
structure Live (db : OnboardingDatabase) : Prop where
  member : ∀ r ∈ db.tenantInvitations.rows, r.status = .pending →
    ∃ id, db.HasMember id r.tenantId r.invitedUserId
  alone : ∀ r ∈ db.tenantInvitations.rows, ∀ r' ∈ db.tenantInvitations.rows, r.status = .pending →
    r'.status = .pending → r.tenantId = r'.tenantId → r.invitedUserId = r'.invitedUserId → r = r'

/-- What every write leaves: roles keep their keys, and active memberships stay active. -/
structure CarriedInto (before after : OnboardingDatabase) : Prop where
  roles : before.roles.Followed Role.Later after.roles
  active : ∀ t u, before.ActiveMember t u → after.ActiveMember t u

/-- An invitation stays as it is, or it was pending and is settled. -/
structure Later (before after : OnboardingDatabase) : Prop extends CarriedInto before after where
  invitations : ∀ r ∈ before.tenantInvitations.rows,
    (r ∈ after.tenantInvitations.rows ∧ (r.status = .pending →
      ∀ id, before.HasMember id r.tenantId r.invitedUserId →
        after.HasMember id r.tenantId r.invitedUserId)) ∨
      r.status = .pending ∧ after.Settled r.invitationId

end OnboardingDatabase

open OnboardingDatabase

theorem TenantInvitation.eq_of_id {db : OnboardingDatabase} {r r' : TenantInvitation}
    (h : r ∈ db.tenantInvitations.rows) (h' : r' ∈ db.tenantInvitations.rows)
    (hid : r.invitationId = r'.invitationId) : r = r' := by
  apply Table.shared_entry h h' (k := (Index.primary, [r.invitationId]))
  · exact List.mem_cons_self
  · rw [hid]
    exact List.mem_cons_self

theorem TenantMembership.eq_of_user {db : OnboardingDatabase} {m m' : TenantMembership}
    (h : m ∈ db.tenantMemberships.rows) (h' : m' ∈ db.tenantMemberships.rows)
    (ht : m.tenantId = m'.tenantId) (hu : m.userId = m'.userId) : m = m' := by
  apply Table.shared_entry h h' (k := (Index.natural, [m.tenantId, m.userId]))
  · exact List.mem_cons_of_mem _ List.mem_cons_self
  · rw [ht, hu]
    exact List.mem_cons_of_mem _ List.mem_cons_self

section CarriedInto

variable {db db' db'' : OnboardingDatabase}

theorem OnboardingDatabase.CarriedInto.refl (db : OnboardingDatabase) : CarriedInto db db :=
  ⟨Table.Followed.refl Table.Lifecycle.refl _, fun _ _ h => h⟩

theorem OnboardingDatabase.CarriedInto.trans (h : CarriedInto db db') (h' : CarriedInto db' db'') :
    CarriedInto db db'' :=
  ⟨h.roles.trans Table.Lifecycle.trans h'.roles, fun t u hactive => h'.active t u (h.active t u hactive)⟩

theorem OnboardingDatabase.Later.refl (db : OnboardingDatabase) : Later db db :=
  ⟨CarriedInto.refl db, fun _ hr => Or.inl ⟨hr, fun _ _ h => h⟩⟩

theorem OnboardingDatabase.Later.trans (h : Later db db') (h' : Later db' db'') : Later db db'' := by
  refine ⟨h.toCarriedInto.trans h'.toCarriedInto, fun r hr => ?_⟩
  rcases h.invitations r hr with ⟨hr', hkeeps⟩ | ⟨hpending, r', hr', hid, hsettled⟩
  · refine (h'.invitations r hr').imp_left fun ⟨hr'', hkeeps'⟩ => ⟨hr'', fun hpending id hmember => ?_⟩
    exact hkeeps' hpending id (hkeeps hpending id hmember)
  · rcases h'.invitations r' hr' with ⟨hr'', _⟩ | ⟨hpending', _⟩
    · exact Or.inr ⟨hpending, r', hr'', hid, hsettled⟩
    · exact absurd hpending' hsettled

/-- A settled invitation stays as it is. -/
theorem OnboardingDatabase.Later.settled_row (h : Later db db') {r : TenantInvitation}
    (hr : r ∈ db.tenantInvitations.rows) (hstatus : r.status ≠ .pending) :
    r ∈ db'.tenantInvitations.rows := by
  rcases h.invitations r hr with ⟨hr', _⟩ | ⟨hpending, _⟩
  · exact hr'
  · exact absurd hpending hstatus

theorem OnboardingDatabase.Later.settled (h : Later db db') {id : Uuid} (hid : db.Settled id) :
    db'.Settled id := by
  obtain ⟨r, hr, hrid, hstatus⟩ := hid
  exact ⟨r, h.settled_row hr hstatus, hrid, hstatus⟩

/-- An invitation that is still pending has the membership that it had. -/
theorem OnboardingDatabase.Later.hasMember (h : Later db db') {r : TenantInvitation}
    (hr : r ∈ db.tenantInvitations.rows) (hr' : r ∈ db'.tenantInvitations.rows)
    (hpending : r.status = .pending) {id : Uuid} (hmember : db.HasMember id r.tenantId r.invitedUserId) :
    db'.HasMember id r.tenantId r.invitedUserId := by
  rcases h.invitations r hr with ⟨_, hkeeps⟩ | ⟨_, r', hin, hid, hstatus⟩
  · exact hkeeps hpending id hmember
  · rw [← TenantInvitation.eq_of_id hr' hin hid.symm] at hstatus
    exact absurd hpending hstatus

end CarriedInto

/-! ## What a write does to memberships and invitations -/

namespace OnboardingWrite

def Harmless : OnboardingWrite → Prop
  | insertInvitation _ | cancelInvitation .. | expireInvitation _ | rebindInvitation ..
  | acceptInvitation .. | endPendingMembership .. | deletePendingMembership .. => False
  | _ => True

variable {w : OnboardingWrite} {db : OnboardingDatabase} {id t u : Uuid}

theorem invitations_of_harmless (h : w.Harmless) (db : OnboardingDatabase) :
    (w.apply db).tenantInvitations = db.tenantInvitations := by
  cases w <;> first | rfl | exact h.elim

/-- The version of a membership is all that the other services change. -/
theorem memberships_stored (write : Write) (db : Database) :
    (write.apply db).tenantMemberships = db.tenantMemberships ∨
      ∃ t u, write = .bumpMembershipVersion t u := by
  cases write with
  | bumpMembershipVersion t u => exact Or.inr ⟨t, u, rfl⟩
  | _ => exact Or.inl rfl

theorem hasMember_stored (write : Write) (h : db.HasMember id t u) :
    ((stored write).apply db).HasMember id t u := by
  obtain ⟨m, hm, hfields⟩ := h
  rcases memberships_stored write db.toDatabase with hsame | ⟨t', u', rfl⟩
  · refine ⟨m, ?_, hfields⟩
    simp only [apply, hsame]
    exact hm
  · simp only [HasMember, apply, Write.apply]
    by_cases hsel : m.tenantId = t' ∧ m.userId = u' ∧ m.status = .active
    · exact ⟨_, Table.mem_update_set hm (decide_eq_true hsel), hfields⟩
    · exact ⟨m, Table.mem_update_of_not hm (decide_eq_false hsel), hfields⟩

theorem hasMember_activate {ids : List Uuid} {t' u' : Uuid} {now : Instant} (h : db.HasMember id t u) :
    ((activatePendingMembership ids t' u' now).apply db).HasMember id t u := by
  obtain ⟨m, hm, hid, ht, hu, hstatus⟩ := h
  simp only [HasMember, apply, setMemberships]
  cases hsel : m.isPendingOf ids t' u' with
  | true => exact ⟨_, Table.mem_update_set hm hsel, hid, ht, hu, Or.inr rfl⟩
  | false => exact ⟨m, Table.mem_update_of_not hm hsel, hid, ht, hu, hstatus⟩

theorem not_isPendingOf {ids : List Uuid} {t' u' : Uuid} {m : TenantMembership}
    (h : ¬ (m.tenantId = t' ∧ m.userId = u')) : m.isPendingOf ids t' u' = false :=
  decide_eq_false fun hsel => h ⟨hsel.2.1, hsel.2.2.1⟩

def Sparing (t u : Uuid) : OnboardingWrite → Prop
  | endPendingMembership _ t' u' _ | deletePendingMembership _ t' u' => ¬ (t' = t ∧ u' = u)
  | _ => True

theorem hasMember_of_sparing (hw : w.Sparing t u) (h : db.HasMember id t u) :
    (w.apply db).HasMember id t u := by
  cases w with
  | stored write => exact hasMember_stored write h
  | insertMembership row =>
    obtain ⟨m, hm, hfields⟩ := h
    exact ⟨m, Table.mem_insert_of_mem hm, hfields⟩
  | activatePendingMembership ids t' u' now => exact hasMember_activate h
  | endPendingMembership ids t' u' now =>
    simp only [HasMember, apply, setMemberships]
    obtain ⟨m, hm, hid, ht, hu, hstatus⟩ := h
    have hother : ¬ (m.tenantId = t' ∧ m.userId = u') :=
      fun hsel => hw ⟨hsel.1.symm.trans ht, hsel.2.symm.trans hu⟩
    exact ⟨m, Table.mem_update_of_not hm (not_isPendingOf hother), hid, ht, hu, hstatus⟩
  | deletePendingMembership ids t' u' =>
    obtain ⟨m, hm, hid, ht, hu, hstatus⟩ := h
    have hother : ¬ (m.tenantId = t' ∧ m.userId = u') :=
      fun hsel => hw ⟨hsel.1.symm.trans ht, hsel.2.symm.trans hu⟩
    exact ⟨m, Table.mem_delete.mpr ⟨hm, not_isPendingOf hother⟩, hid, ht, hu, hstatus⟩
  | _ => exact h

theorem sparing_of_harmless (h : w.Harmless) (t u : Uuid) : w.Sparing t u := by
  cases w <;> trivial

theorem activeMember_apply (w : OnboardingWrite) (h : db.ActiveMember t u) :
    (w.apply db).ActiveMember t u := by
  obtain ⟨m, hm, ht, hu, hactive⟩ := h
  have hnot : ∀ ids t' u', m.isPendingOf ids t' u' = false := by
    intro ids t' u'
    refine decide_eq_false fun hsel => ?_
    rw [hactive] at hsel
    cases hsel.2.2.2
  cases w with
  | stored write =>
    rcases memberships_stored write db.toDatabase with hsame | ⟨t', u', rfl⟩
    · refine ⟨m, ?_, ht, hu, hactive⟩
      simp only [apply, hsame]
      exact hm
    · simp only [ActiveMember, apply, Write.apply]
      by_cases hsel : m.tenantId = t' ∧ m.userId = u' ∧ m.status = .active
      · exact ⟨_, Table.mem_update_set hm (decide_eq_true hsel), ht, hu, hactive⟩
      · exact ⟨m, Table.mem_update_of_not hm (decide_eq_false hsel), ht, hu, hactive⟩
  | insertMembership row => exact ⟨m, Table.mem_insert_of_mem hm, ht, hu, hactive⟩
  | activatePendingMembership ids t' u' now =>
    simp only [ActiveMember, apply, setMemberships]
    exact ⟨m, Table.mem_update_of_not hm (hnot ids t' u'), ht, hu, hactive⟩
  | endPendingMembership ids t' u' now =>
    simp only [ActiveMember, apply, setMemberships]
    exact ⟨m, Table.mem_update_of_not hm (hnot ids t' u'), ht, hu, hactive⟩
  | deletePendingMembership ids t' u' =>
    exact ⟨m, Table.mem_delete.mpr ⟨hm, hnot ids t' u'⟩, ht, hu, hactive⟩
  | _ => exact ⟨m, hm, ht, hu, hactive⟩

theorem carried (w : OnboardingWrite) (db : OnboardingDatabase) : CarriedInto db (w.apply db) where
  roles := by
    cases w with
    | stored write => exact (write.later db.toDatabase).roles
    | _ => exact Table.Followed.refl Table.Lifecycle.refl _
  active _ _ h := activeMember_apply w h

/-! ## Harmless writes -/

theorem live_of_harmless (hw : w.Harmless) (h : db.Live) : (w.apply db).Live where
  member r hr hpending := by
    rw [invitations_of_harmless hw] at hr
    obtain ⟨id, hmember⟩ := h.member r hr hpending
    exact ⟨id, hasMember_of_sparing (sparing_of_harmless hw _ _) hmember⟩
  alone := by
    rw [invitations_of_harmless hw]
    exact h.alone

theorem later_of_harmless (hw : w.Harmless) (db : OnboardingDatabase) : Later db (w.apply db) where
  toCarriedInto := carried w db
  invitations r hr := by
    refine Or.inl ⟨?_, fun _ id => hasMember_of_sparing (sparing_of_harmless hw _ _)⟩
    rw [invitations_of_harmless hw]
    exact hr

/-- A transaction of harmless writes. -/
theorem harmless_commit {es : List OnboardingWrite} (hes : ∀ e ∈ es, e.Harmless) (hlive : db.Live) :
    (replayAll es db).Live ∧ Later db (replayAll es db) :=
  Program.replayAll_keeps (R := fun view => view.Live ∧ Later db view)
    (fun _ view he hview => ⟨live_of_harmless he hview.1, hview.2.trans (later_of_harmless he view)⟩)
    hes ⟨hlive, Later.refl db⟩

/-! ## Transactions that settle an invitation -/

def Closing (row : TenantInvitation) : OnboardingWrite → Prop
  | insertInvitation _ => False
  | cancelInvitation _ id | expireInvitation id | rebindInvitation id _ | acceptInvitation id _ =>
    id = row.invitationId
  | endPendingMembership _ t u _ | deletePendingMembership _ t u =>
    t = row.tenantId ∧ u = row.invitedUserId
  | _ => True

theorem mem_update_other {t u : Invitations} {where? : TenantInvitation → Bool}
    {set : TenantInvitation → TenantInvitation} {r : TenantInvitation}
    (hrows : u.rows = t.rows.map fun r => if where? r then set r else r)
    (hsel : ∀ o, where? o = true → o.invitationId = id)
    (hset : ∀ o, (set o).invitationId = o.invitationId) (hr : r.invitationId ≠ id) :
    r ∈ u.rows ↔ r ∈ t.rows := by
  rw [hrows, List.mem_map]
  constructor
  · rintro ⟨o, ho, rfl⟩
    cases hw : where? o with
    | true =>
      rw [hw, if_pos rfl] at hr
      exact absurd ((hset o).trans (hsel o hw)) hr
    | false => simpa using ho
  · intro hin
    cases hw : where? r with
    | true => exact absurd (hsel r hw) hr
    | false => exact ⟨r, hin, by simp [hw]⟩

/-- The write is harmless, or it changes this invitation alone, or memberships of its user alone. -/
theorem closing_cases {row : TenantInvitation} (h : w.Closing row) : w.Harmless ∨
    (∀ db : OnboardingDatabase, (w.apply db).toDatabase = db.toDatabase ∧
      ∀ r : TenantInvitation, r.invitationId ≠ row.invitationId →
        (r ∈ (w.apply db).tenantInvitations.rows ↔ r ∈ db.tenantInvitations.rows)) ∨
    (∀ db : OnboardingDatabase, (w.apply db).tenantInvitations = db.tenantInvitations) ∧
      ∀ t u, ¬ (t = row.tenantId ∧ u = row.invitedUserId) → w.Sparing t u := by
  cases w with
  | insertInvitation r => exact h.elim
  | cancelInvitation tenantId id =>
    refine Or.inr (Or.inl fun db => ⟨rfl, fun r hr => ?_⟩)
    refine mem_update_other rfl ?_ (fun _ => rfl) hr
    exact fun o ho => (of_decide_eq_true ho).2.trans h
  | expireInvitation id =>
    refine Or.inr (Or.inl fun db => ⟨rfl, fun r hr => ?_⟩)
    refine mem_update_other rfl ?_ (fun _ => rfl) hr
    exact fun o ho => (of_decide_eq_true ho).1.trans h
  | rebindInvitation id userId =>
    refine Or.inr (Or.inl fun db => ⟨rfl, fun r hr => ?_⟩)
    refine mem_update_other rfl ?_ (fun _ => rfl) hr
    exact fun o ho => (of_decide_eq_true ho).trans h
  | acceptInvitation id now =>
    refine Or.inr (Or.inl fun db => ⟨rfl, fun r hr => ?_⟩)
    refine mem_update_other rfl ?_ (fun _ => rfl) hr
    exact fun o ho => (of_decide_eq_true ho).trans h
  | endPendingMembership ids t u now =>
    refine Or.inr (Or.inr ⟨fun db => rfl, fun t' u' hother hsame => hother ?_⟩)
    exact ⟨hsame.1.symm.trans h.1, hsame.2.symm.trans h.2⟩
  | deletePendingMembership ids t u =>
    refine Or.inr (Or.inr ⟨fun db => rfl, fun t' u' hother hsame => hother ?_⟩)
    exact ⟨hsame.1.symm.trans h.1, hsame.2.symm.trans h.2⟩
  | _ => exact Or.inl trivial

structure ClosingView (row : TenantInvitation) (db view : OnboardingDatabase) : Prop where
  others : ∀ r : TenantInvitation, r.invitationId ≠ row.invitationId →
    (r ∈ view.tenantInvitations.rows ↔ r ∈ db.tenantInvitations.rows)
  carried : CarriedInto db view
  members : ∀ r ∈ db.tenantInvitations.rows, r.invitationId ≠ row.invitationId → r.status = .pending →
    ∀ id, db.HasMember id r.tenantId r.invitedUserId → view.HasMember id r.tenantId r.invitedUserId

theorem ClosingView.refl (row : TenantInvitation) (db : OnboardingDatabase) : ClosingView row db db :=
  ⟨fun _ _ => Iff.rfl, CarriedInto.refl db, fun _ _ _ _ _ h => h⟩

theorem ClosingView.step {row : TenantInvitation} {view : OnboardingDatabase} (hlive : db.Live)
    (hrow : row ∈ db.tenantInvitations.rows) (hpending : row.status = .pending) (hw : w.Closing row)
    (h : ClosingView row db view) : ClosingView row db (w.apply view) := by
  have hcarried : CarriedInto db (w.apply view) := h.carried.trans (OnboardingWrite.carried w view)
  rcases closing_cases hw with hharmless | happly | ⟨hsame, hspares⟩
  · refine ⟨fun r hid => ?_, hcarried, fun r hr hid hstatus id hmember => ?_⟩
    · rw [invitations_of_harmless hharmless]
      exact h.others r hid
    · exact hasMember_of_sparing (sparing_of_harmless hharmless _ _) (h.members r hr hid hstatus id hmember)
  · obtain ⟨hdb, hothers⟩ := happly view
    refine ⟨fun r hid => (hothers r hid).trans (h.others r hid), hcarried, ?_⟩
    intro r hr hid hstatus id hmember
    have hview := h.members r hr hid hstatus id hmember
    unfold HasMember at hview ⊢
    rwa [hdb]
  · refine ⟨fun r hid => ?_, hcarried, fun r hr hid hstatus id hmember => ?_⟩
    · rw [hsame]
      exact h.others r hid
    · -- Another pending invitation does not share the membership.
      have hother : ¬ (r.tenantId = row.tenantId ∧ r.invitedUserId = row.invitedUserId) := by
        intro hshared
        have heq := hlive.alone r hr row hrow hstatus hpending hshared.1 hshared.2
        rw [heq] at hid
        exact hid rfl
      exact hasMember_of_sparing (hspares _ _ hother) (h.members r hr hid hstatus id hmember)

/-- A transaction that settles a pending invitation. -/
theorem closing_commit {row : TenantInvitation} {es : List OnboardingWrite} (hlive : db.Live)
    (hrow : row ∈ db.tenantInvitations.rows) (hpending : row.status = .pending)
    (hes : ∀ e ∈ es, e.Closing row) (hsettled : (replayAll es db).Settled row.invitationId) :
    (replayAll es db).Live ∧ Later db (replayAll es db) := by
  have hview : ClosingView row db (replayAll es db) :=
    Program.replayAll_keeps (R := ClosingView row db)
      (fun e view he hview => hview.step hlive hrow hpending he) hes (ClosingView.refl row db)
  obtain ⟨settled, hin, hid, hstatus⟩ := hsettled
  have hapart : ∀ r ∈ (replayAll es db).tenantInvitations.rows, r.status = .pending →
      r.invitationId ≠ row.invitationId ∧ r ∈ db.tenantInvitations.rows := by
    intro r hr hrpending
    have hne : r.invitationId ≠ row.invitationId := by
      intro hsame
      rw [TenantInvitation.eq_of_id hr hin (hsame.trans hid.symm)] at hrpending
      exact hstatus hrpending
    exact ⟨hne, (hview.others r hne).mp hr⟩
  refine ⟨⟨fun r hr hrpending => ?_, fun r hr r' hr' hp hp' ht hu => ?_⟩, ⟨hview.carried, ?_⟩⟩
  · obtain ⟨hne, hbefore⟩ := hapart r hr hrpending
    obtain ⟨id, hmember⟩ := hlive.member r hbefore hrpending
    exact ⟨id, hview.members r hbefore hne hrpending id hmember⟩
  · exact hlive.alone r (hapart r hr hp).2 r' (hapart r' hr' hp').2 hp hp' ht hu
  · intro r hr
    by_cases hsame : r.invitationId = row.invitationId
    · refine Or.inr ⟨?_, settled, hin, hid.trans hsame.symm, hstatus⟩
      rw [TenantInvitation.eq_of_id hr hrow hsame]
      exact hpending
    · exact Or.inl ⟨(hview.others r hsame).mpr hr, hview.members r hr hsame⟩

/-! ## A new invitation -/

theorem taken_stored (write : Write) (db : Database) :
    (write.apply db).tenantMemberships.taken = db.tenantMemberships.taken := by
  rcases memberships_stored write db with hsame | ⟨t, u, rfl⟩
  · rw [hsame]
  · simp only [Write.apply]
    rw [Table.taken_update]
    exact fun _ => rfl

theorem taken_replay_stored {es : List OnboardingWrite} (hes : ∀ e ∈ es, ∃ write, e = stored write)
    (db : OnboardingDatabase) :
    (replayAll es db).tenantMemberships.taken = db.tenantMemberships.taken := by
  refine Program.replayAll_keeps (R := fun view : OnboardingDatabase =>
    view.tenantMemberships.taken = db.tenantMemberships.taken) ?_ hes rfl
  rintro e view ⟨write, rfl⟩ hview
  exact (taken_stored write view.toDatabase).trans hview

structure Inviting (membershipId tenantId userId : Uuid) (db view : OnboardingDatabase) : Prop where
  live : view.Live
  later : Later db view
  member : view.HasMember membershipId tenantId userId
  uninvited : ∀ r ∈ view.tenantInvitations.rows, r.status = .pending →
    ¬ (r.tenantId = tenantId ∧ r.invitedUserId = userId)

theorem inviting_of_insert {m : TenantMembership} {es : List OnboardingWrite}
    (hes : ∀ e ∈ es, ∃ write, e = stored write) (hpending : m.status = .pending) (hlive : db.Live)
    (hfree : ∀ k ∈ Row.entries m, k ∉ db.tenantMemberships.taken) :
    Inviting m.membershipId m.tenantId m.userId db (replayAll (es ++ [insertMembership m]) db) := by
  have hharmless : ∀ e ∈ es ++ [insertMembership m], e.Harmless := by
    intro e he
    rcases List.mem_append.mp he with he | he
    · obtain ⟨write, rfl⟩ := hes e he
      trivial
    · rw [List.mem_singleton.mp he]
      trivial
  obtain ⟨hlive', hlater⟩ := harmless_commit hharmless hlive
  have hinvitations : (replayAll (es ++ [insertMembership m]) db).tenantInvitations =
      db.tenantInvitations :=
    Program.replayAll_keeps (R := fun view : OnboardingDatabase =>
      view.tenantInvitations = db.tenantInvitations)
      (fun e view he hview => (invitations_of_harmless he view).trans hview) hharmless rfl
  refine ⟨hlive', hlater, ?_, fun r hr hrpending hshared => ?_⟩
  · rw [replayAll_append]
    have hentries : ∀ k ∈ Row.entries m, k ∉ (replayAll es db).tenantMemberships.taken := by
      rw [taken_replay_stored hes]
      exact hfree
    exact ⟨m, Table.mem_insert_of_free hentries, rfl, rfl, rfl, Or.inl hpending⟩
  · rw [hinvitations] at hr
    obtain ⟨id, m', hm', _, ht, hu, _⟩ := hlive.member r hr hrpending
    refine hfree (Index.natural, [m.tenantId, m.userId]) (by simp [Row.entries]) ?_
    refine Table.mem_taken.mpr ⟨m', hm', ?_⟩
    simp [Row.entries, ht, hu, hshared.1, hshared.2]

theorem Inviting.harmless {id t u : Uuid} {view : OnboardingDatabase} (h : Inviting id t u db view)
    (hw : w.Harmless) : Inviting id t u db (w.apply view) where
  live := live_of_harmless hw h.live
  later := h.later.trans (later_of_harmless hw view)
  member := hasMember_of_sparing (sparing_of_harmless hw _ _) h.member
  uninvited := by
    rw [invitations_of_harmless hw]
    exact h.uninvited

/-- The new invitation has the membership that was made for it. -/
theorem Inviting.invite {id : Uuid} {row : TenantInvitation} {view : OnboardingDatabase}
    (h : Inviting id row.tenantId row.invitedUserId db view) :
    ((insertInvitation row).apply view).Live ∧ Later db ((insertInvitation row).apply view) := by
  have hmembers : ∀ {id t u : Uuid}, view.HasMember id t u →
      ((insertInvitation row).apply view).HasMember id t u := fun hmember => hmember
  refine ⟨⟨fun r hr hpending => ?_, fun r hr r' hr' hp hp' ht hu => ?_⟩,
    h.later.trans ⟨carried _ view, fun r hr => ?_⟩⟩
  · rcases Table.mem_insert hr with hr | rfl
    · obtain ⟨id, hmember⟩ := h.live.member r hr hpending
      exact ⟨id, hmembers hmember⟩
    · exact ⟨id, hmembers h.member⟩
  · rcases Table.mem_insert hr with hold | hnew
    · rcases Table.mem_insert hr' with hold' | hnew'
      · exact h.live.alone r hold r' hold' hp hp' ht hu
      · rw [hnew'] at ht hu
        exact absurd ⟨ht, hu⟩ (h.uninvited r hold hp)
    · rcases Table.mem_insert hr' with hold' | hnew'
      · rw [hnew] at ht hu
        exact absurd ⟨ht.symm, hu.symm⟩ (h.uninvited r' hold' hp')
      · rw [hnew, hnew']
  · exact Or.inl ⟨Table.mem_insert_of_mem hr, fun _ _ hmember => hmembers hmember⟩

end OnboardingWrite

end VerigenceSecurity
