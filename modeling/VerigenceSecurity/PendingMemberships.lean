import VerigenceSecurity.OnboardingCalls

/-! # Pending memberships

A grant activates the pending membership that its statement has found. The snapshot may be older
than the commit; that the user is then an active member rests on what other calls leave alone.
-/

namespace VerigenceSecurity
set_option autoImplicit false

open Transaction Program Relational OnboardingDatabase

namespace OnboardingWrite

def Unactivating : OnboardingWrite → Prop
  | activatePendingMembership .. => False
  | insertMembership m => m.status ≠ .active
  | _ => True

variable {w : OnboardingWrite} {db : OnboardingDatabase} {t u : Uuid}

theorem activeMember_of_unactivating (hw : w.Unactivating) (h : (w.apply db).ActiveMember t u) :
    db.ActiveMember t u := by
  obtain ⟨m, hm, ht, hu, hactive⟩ := h
  cases w with
  | stored write =>
    rcases memberships_stored write db.toDatabase with hsame | ⟨t', u', rfl⟩
    · simp only [apply, hsame] at hm
      exact ⟨m, hm, ht, hu, hactive⟩
    · simp only [apply, Write.apply] at hm
      obtain ⟨o, ho, ⟨_, rfl⟩ | ⟨_, rfl⟩⟩ := Table.mem_update.mp hm
      · exact ⟨o, ho, ht, hu, hactive⟩
      · exact ⟨m, ho, ht, hu, hactive⟩
  | insertMembership row =>
    rcases Table.mem_insert hm with hold | hnew
    · exact ⟨m, hold, ht, hu, hactive⟩
    · rw [hnew] at hactive
      exact absurd hactive hw
  | activatePendingMembership ids t' u' now => exact hw.elim
  | endPendingMembership ids t' u' now =>
    simp only [apply, setMemberships] at hm
    obtain ⟨o, ho, ⟨_, rfl⟩ | ⟨_, rfl⟩⟩ := Table.mem_update.mp hm
    · cases hactive
    · exact ⟨m, ho, ht, hu, hactive⟩
  | deletePendingMembership ids t' u' => exact ⟨m, (Table.mem_delete.mp hm).1, ht, hu, hactive⟩
  | _ => exact ⟨m, hm, ht, hu, hactive⟩

end OnboardingWrite

def Awaiting (id t u : Uuid) (db view : OnboardingDatabase) : Prop :=
  view.HasMember id t u ∧ (view.ActiveMember t u → db.ActiveMember t u)

section Awaiting

variable {id t u : Uuid} {db view db' view' : OnboardingDatabase} {ids : List Uuid}

theorem Awaiting.apply {w : OnboardingWrite} (h : Awaiting id t u db view) (hspares : w.Sparing t u)
    (hw : w.Unactivating) : Awaiting id t u db (w.apply view) :=
  ⟨OnboardingWrite.hasMember_of_sparing hspares h.1,
    fun hactive => h.2 (OnboardingWrite.activeMember_of_unactivating hw hactive)⟩

theorem activeMember_replayAll {es : List OnboardingWrite} (h : db.ActiveMember t u) :
    (replayAll es db).ActiveMember t u :=
  Program.replayAll_keeps (Q := fun _ => True) (R := fun view : OnboardingDatabase =>
    view.ActiveMember t u) (fun w _ _ => OnboardingWrite.activeMember_apply w) (fun _ _ => trivial) h

/-- A membership that is pending at the commit was pending for every statement before it. -/
theorem Awaiting.found (h : Awaiting id t u db view) (hcarried : CarriedInto db db')
    (hview : db'.ActiveMember t u → view'.ActiveMember t u) {m : TenantMembership}
    (hm : m ∈ view'.tenantMemberships.rows) (ht : m.tenantId = t) (hu : m.userId = u)
    (hpending : m.status = .pending) : id ∈ view.pendingMembershipIds t u := by
  obtain ⟨⟨o, ho, hoid, hot, hou, hstatus⟩, hactive⟩ := h
  rcases hstatus with hstatus | hstatus
  · refine List.mem_map.mpr ⟨o, List.mem_filter.mpr ⟨ho, ?_⟩, hoid⟩
    exact decide_eq_true ⟨hot, hou, hstatus⟩
  · obtain ⟨m', hm', ht', hu', hstatus'⟩ :=
      hview (hcarried.active t u (hactive ⟨o, ho, hot, hou, hstatus⟩))
    have hsame : m = m' := TenantMembership.eq_of_user hm hm' (ht.trans ht'.symm) (hu.trans hu'.symm)
    rw [hsame, hstatus'] at hpending
    cases hpending

theorem activeMember_of_activate {now : Instant} {m : TenantMembership}
    (hm : m ∈ view.tenantMemberships.rows) (hid : m.membershipId ∈ ids) (ht : m.tenantId = t)
    (hu : m.userId = u) (hpending : m.status = .pending) :
    ((OnboardingWrite.activatePendingMembership ids t u now).apply view).ActiveMember t u := by
  simp only [ActiveMember, OnboardingWrite.apply, setMemberships]
  exact ⟨_, Table.mem_update_set hm (decide_eq_true ⟨hid, ht, hu, hpending⟩), ht, hu, rfl⟩

variable {rely : OnboardingProgress → OnboardingDatabase → Prop} {g : OnboardingProgress}

/-- Whoever is a member at the activation is an active member after the commit. -/
theorem activate_yields {name : OnboardingStatement} {locks : Uuid → List OnboardingLock}
    {check : OnboardingDatabase → List Uuid → Option Failure} {now : Instant}
    (hsteady : Steady rely) (hrely : ∀ g db, rely g db → OnboardingRely g db)
    (h : g.Ensures rely (Awaiting id t u)) :
    (changeWhere name (·.pendingMembershipIds t u) locks check
      (.activatePendingMembership · t u now)).Yields rely
        (fun _ g' => g'.Ensures rely fun _ view => view.ActiveMember t u) g := by
  apply yields_bind
  apply yields_query
  intro db₀ found hdb₀ hfound
  cases hfound
  apply yields_execute
  intro db₁ o hdb₁ ho
  dsimp only at ho
  split at ho
  · cases ho
  cases ho
  intro db hdb
  have hbefore := hsteady.earlier hdb₁ hdb
  have hfirst := hsteady.earlier hdb₀ hbefore
  have hawaits := h db hfirst
  have hgrown : db.ActiveMember t u → (replayAll g.pending db).ActiveMember t u :=
    activeMember_replayAll
  have hcarried₁ : CarriedInto db₁ db := (hrely _ _ hdb).carried _ List.mem_cons_self
  have hcarried₀ : CarriedInto db₀ db :=
    (hrely _ _ hdb).carried _ (List.mem_cons_of_mem _ List.mem_cons_self)
  have hawaits₀ := h db₀ hdb₀
  have hawaits₁ := h db₁ (hsteady.earlier hdb₀ hdb₁)
  simp only [Progress.ran, List.append_nil] at hfirst ⊢
  rw [replayAll_append, replayAll_cons, replayAll_nil, onboarding_replay]
  obtain ⟨m, hm, hid, ht, hu, hstatus⟩ := hawaits.1
  rcases hstatus with hpending | hactive
  · refine activeMember_of_activate hm (List.mem_filter.mpr ⟨?_, decide_eq_true ?_⟩) ht hu hpending
    · rw [hid]
      exact hawaits₁.found hcarried₁ hgrown hm ht hu hpending
    · rw [hid]
      exact hawaits₀.found hcarried₀ hgrown hm ht hu hpending
  · exact OnboardingWrite.activeMember_apply _ ⟨m, hm, ht, hu, hactive⟩

end Awaiting

/-- An entry that was free once a pending membership was deleted is still free after the deletion. -/
theorem free_after_delete {db db' : OnboardingDatabase} {ids : List Uuid} {t u : Uuid} {k : IndexEntry}
    (hnow : k ∉ (db.tenantMemberships.delete (TenantMembership.isPendingOf ids t u)).taken)
    (hstays : k ∉ db.tenantMemberships.taken → k ∉ db'.tenantMemberships.taken)
    (hmembers : ∀ id ∈ ids, db'.PendingMember id t u) :
    k ∉ (db'.tenantMemberships.delete (TenantMembership.isPendingOf ids t u)).taken := by
  intro htaken
  obtain ⟨m', hm', hk'⟩ := Table.mem_taken.mp htaken
  obtain ⟨hrow', hkept⟩ := Table.mem_delete.mp hm'
  by_cases hk : k ∈ db.tenantMemberships.taken
  · -- Its owner is the deleted membership, which nobody else has changed.
    obtain ⟨m, hm, hkm⟩ := Table.mem_taken.mp hk
    cases hsel : m.isPendingOf ids t u with
    | false => exact hnow (Table.mem_taken.mpr ⟨m, Table.mem_delete.mpr ⟨hm, hsel⟩, hkm⟩)
    | true =>
      obtain ⟨hid, ht, hu, _⟩ := of_decide_eq_true hsel
      obtain ⟨o, ho, hoid, hot, hou, hpending⟩ := hmembers m.membershipId hid
      have hentries : Row.entries m = Row.entries o := by
        simp only [Row.entries, hoid, hot, hou, ht, hu]
      have hsame : m' = o := Table.shared_entry hrow' ho hk' (hentries ▸ hkm)
      rw [hsame] at hkept
      have hdeleted : o.isPendingOf ids t u = true := by
        refine decide_eq_true ⟨?_, hot, hou, hpending⟩
        rwa [hoid]
      rw [hdeleted] at hkept
      cases hkept
  · exact hstays hk (Table.mem_taken.mpr ⟨m', hrow', hk'⟩)

end VerigenceSecurity
