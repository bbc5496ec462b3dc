import VerigenceSecurity.SelfOnboarding
import VerigenceSecurity.OverlappingOperations

/-! # Entries reserved for a registration

The rows of a registration reserve their index entries until the commit: what was free
when a row was inserted is still free when the transaction ends.
-/

namespace VerigenceSecurity
set_option autoImplicit false

open Transaction Program Relational

/-! ## Reserved index entries -/

def Write.reserves : Write → List (Relation × IndexEntry)
  | insertSecurityPrincipal row => (Row.entries row).map (Relation.securityPrincipals, ·)
  | insertUser row => (Row.entries row).map (Relation.users, ·)
  | insertExternalIdentity row => (Row.entries row).map (Relation.externalIdentities, ·)
  | insertOnboardingRequest row => (Row.entries row).map (Relation.platformUserOnboardingRequests, ·)
  | insertSecurityEvent row => (Row.entries row).map (Relation.securityEvents, ·)
  | _ => []

def Database.taken (db : Database) : Relation → List IndexEntry
  | .securityPrincipals => db.securityPrincipals.taken
  | .users => db.users.taken
  | .externalIdentities => db.externalIdentities.taken
  | .platformUserOnboardingRequests => db.platformUserOnboardingRequests.taken
  | .securityEvents => db.securityEvents.taken
  | _ => []

theorem mem_taken_insertRow {ρ : Type} [Row ρ] {T : Rows ρ} {row : ρ} {relation : Relation}
    {k : IndexEntry} (h : k ∈ (T.insert row).taken) :
    k ∈ T.taken ∨ (relation, k) ∈ (Row.entries row).map (relation, ·) :=
  (Table.mem_taken_insert h).imp_right fun hk => List.mem_map_of_mem hk

theorem taken_updateUserStatus (db : Database) (userId : Uuid) (status : UserStatus) (now : Instant) :
    ((Write.updateUserStatus userId status now).apply db).users.taken = db.users.taken := by
  refine Table.taken_update ?_ ?_
  · exact fun _ => List.Subset.refl _
  · exact fun _ => rfl

theorem taken_approveOnboardingRequest (db : Database) (ids : List Uuid) (userId actor : Uuid)
    (now : Instant) (reason : Option String) :
    ((Write.approveOnboardingRequest ids userId actor now reason).apply
      db).platformUserOnboardingRequests.taken = db.platformUserOnboardingRequests.taken := by
  refine Table.taken_update ?_ ?_
  · exact fun _ => List.Subset.refl _
  · exact fun _ => rfl

/-- A write takes no entries but those it reserves. -/
theorem mem_taken_apply {w : Write} {db : Database} {relation : Relation} {k : IndexEntry}
    (h : k ∈ (w.apply db).taken relation) : k ∈ db.taken relation ∨ (relation, k) ∈ w.reserves := by
  cases relation with
  | securityPrincipals =>
    cases w with
    | insertSecurityPrincipal row => exact mem_taken_insertRow h
    | _ => exact Or.inl h
  | users =>
    cases w with
    | insertUser row => exact mem_taken_insertRow h
    | updateUserStatus userId status now =>
      simp only [Database.taken, taken_updateUserStatus] at h
      exact Or.inl h
    | _ => exact Or.inl h
  | externalIdentities =>
    cases w with
    | insertExternalIdentity row => exact mem_taken_insertRow h
    | _ => exact Or.inl h
  | platformUserOnboardingRequests =>
    cases w with
    | insertOnboardingRequest row => exact mem_taken_insertRow h
    | approveOnboardingRequest ids userId actor now reason =>
      simp only [Database.taken, taken_approveOnboardingRequest] at h
      exact Or.inl h
    | _ => exact Or.inl h
  | securityEvents =>
    cases w with
    | insertSecurityEvent row => exact mem_taken_insertRow h
    | _ => exact Or.inl h
  | _ => cases h

/-- Entries stay taken: none of these rows is ever deleted. -/
theorem taken_subset_apply (w : Write) (db : Database) (relation : Relation) :
    db.taken relation ⊆ (w.apply db).taken relation := by
  cases relation with
  | securityPrincipals =>
    cases w with
    | insertSecurityPrincipal row => exact Table.taken_subset_insert _ _
    | _ => exact List.Subset.refl _
  | users =>
    cases w with
    | insertUser row => exact Table.taken_subset_insert _ _
    | updateUserStatus userId status now =>
      simp only [Database.taken, taken_updateUserStatus]
      exact List.Subset.refl _
    | _ => exact List.Subset.refl _
  | externalIdentities =>
    cases w with
    | insertExternalIdentity row => exact Table.taken_subset_insert _ _
    | _ => exact List.Subset.refl _
  | platformUserOnboardingRequests =>
    cases w with
    | insertOnboardingRequest row => exact Table.taken_subset_insert _ _
    | approveOnboardingRequest ids userId actor now reason =>
      simp only [Database.taken, taken_approveOnboardingRequest]
      exact List.Subset.refl _
    | _ => exact List.Subset.refl _
  | securityEvents =>
    cases w with
    | insertSecurityEvent row => exact Table.taken_subset_insert _ _
    | _ => exact List.Subset.refl _
  | _ => exact List.nil_subset _

theorem taken_subset_replayAll (ws : List Write) (db : Database) (relation : Relation) :
    db.taken relation ⊆ (replayAll ws db).taken relation := by
  induction ws generalizing db with
  | nil => exact List.Subset.refl _
  | cons w ws ih => exact fun _ hk => ih (w.apply db) (taken_subset_apply w db relation hk)

/-- An insertion locks the entries it reserves and claims that they are free. -/
def reservations : Protocol Database Write RowLock where
  needs w := w.reserves.map fun e => ⟨e.1, e.2, .update⟩
  claim w db := ∀ e ∈ w.reserves, e.2 ∉ db.taken e.1

theorem reservations_stable : reservations.Stable RowLock.conflicts := by
  intro w w' db hlocks hclaim e he htaken
  rcases mem_taken_apply htaken with hbefore | hother
  · exact hclaim e he hbefore
  · have hfree := hlocks ⟨e.1, e.2, .update⟩ (List.mem_map.mpr ⟨e, he, rfl⟩) ⟨e.1, e.2, .update⟩
      (List.mem_map.mpr ⟨e, hother, rfl⟩)
    simp [RowLock.conflicts, LockMode.conflicts] at hfree

section Follows

variable {α : Type}

theorem follows_unreserved {name : StatementName} {run : Database → Except Failure (Outcome Write RowLock α)}
    (h : ∀ db o, run db = .ok o → ∀ w ∈ o.edits, w.reserves = []) :
    (execute name run : Tx α).Follows reservations := by
  apply follows_execute
  intro pending db o ho w hw
  have hnone := h _ o ho w hw
  constructor
  · intro l hl
    simp [reservations, hnone] at hl
  · intro e he
    simp [hnone] at he

/-- An insertion of a row that reserves exactly the entries of the row. -/
theorem follows_reserving {ρ : Type} [Row ρ] {name : StatementName} (T : Database → Rows ρ) (row : ρ)
    (write : Write) {run : Database → Except Failure (Outcome Write RowLock Unit)}
    (hrun : ∀ db o, run db = .ok o → ∃ references, insertRow (T db) row references write = .ok o)
    (hreserves : write.reserves = (Row.entries row).map (Row.relation ρ, ·))
    (htaken : ∀ db : Database, db.taken (Row.relation ρ) = (T db).taken) :
    (execute name run : Tx Unit).Follows reservations := by
  apply follows_execute
  intro pending db o ho w hw
  obtain ⟨references, hinsert⟩ := hrun _ o ho
  obtain ⟨hunique, _, hedits⟩ := insertRow_ok hinsert
  rw [hedits, List.mem_singleton] at hw
  subst hw
  constructor
  · intro l hl
    simp only [reservations, hreserves, List.map_map, List.mem_map, Function.comp] at hl
    obtain ⟨k, hk, rfl⟩ := hl
    exact insertRow_locks hinsert hk
  · intro e he hmem
    rw [hreserves, List.mem_map] at he
    obtain ⟨k, hk, rfl⟩ := he
    have hview := taken_subset_replayAll pending db _ hmem
    rw [htaken] at hview
    exact Table.isSome_insert?_iff_taken.mp hunique k hk hview

theorem insertPrincipal_follows (row : SecurityPrincipal) : (insertPrincipal row).Follows reservations := by
  refine follows_reserving (fun db => db.securityPrincipals) row (.insertSecurityPrincipal row) ?_ rfl fun _ => rfl
  intro db o ho
  split at ho
  · cases ho
  · exact ⟨_, ho⟩

theorem insertUser_follows (row : User) : (insertUser row).Follows reservations := by
  refine follows_reserving (fun db => db.users) row (.insertUser row) ?_ rfl
    fun _ => rfl
  intro db o ho
  split at ho
  · cases ho
  · exact ⟨_, ho⟩

theorem insertExternalIdentity_follows (row : ExternalIdentity) :
    (insertExternalIdentity row).Follows reservations :=
  follows_reserving (fun db => db.externalIdentities) row (.insertExternalIdentity row) (fun _ _ ho => ⟨_, ho⟩) rfl
    fun _ => rfl

theorem insertOnboardingRequest_follows (row : PlatformUserOnboardingRequest) :
    (insertOnboardingRequest row).Follows reservations :=
  follows_reserving (fun db => db.platformUserOnboardingRequests) row (.insertOnboardingRequest row)
    (fun _ _ ho => ⟨_, ho⟩) rfl fun _ => rfl

theorem securityEvent_follows (row : SecurityEvent) : (securityEvent row).Follows reservations :=
  follows_reserving (fun db => db.securityEvents) row (.insertSecurityEvent row) (fun _ _ ho => ⟨_, ho⟩) rfl
    fun _ => rfl

theorem completeSignupAttempt_follows (signupAttemptId : Uuid) (now : Instant) :
    (completeSignupAttempt signupAttemptId now).Follows reservations := by
  apply follows_unreserved
  intro db o ho w hw
  split at ho
  · cases ho
  · cases ho
    rw [List.mem_singleton.mp hw]
    rfl

theorem requireCompletable_follows (attempt : PlatformUserSignupAttempt) (now : Instant) :
    (requireCompletable attempt now).Follows reservations := by
  unfold requireCompletable
  split
  · exact follows_raise _
  · split
    · refine follows_bind ?_ fun _ => follows_bind follows_commitNow fun _ => follows_raise _
      refine follows_bind (follows_bind follows_query fun found => follows_unreserved ?_) fun _ =>
        follows_pure _
      intro db o ho w hw
      cases ho
      rw [List.mem_singleton.mp hw]
      rfl
    · exact follows_pure _

theorem requireIdentityNotRegistered_follows (email mobile : String) :
    (requireIdentityNotRegistered email mobile).Follows reservations := by
  refine follows_bind follows_query fun emailRow => ?_
  cases emailRow with
  | true => exact follows_raise _
  | false =>
    refine follows_bind follows_query fun mobileRow => ?_
    cases mobileRow with
    | true => exact follows_raise _
    | false => exact follows_pure _

theorem requireClerkIdentityNotRegistered_follows (clerkUserId : String) :
    (requireClerkIdentityNotRegistered clerkUserId).Follows reservations := by
  refine follows_bind follows_query fun row => ?_
  cases row with
  | true => exact follows_raise _
  | false => exact follows_pure _

theorem register_follows (c : VerifyCall) (attempt : PlatformUserSignupAttempt) (clerkUserId : String) :
    (register c attempt clerkUserId).Follows reservations :=
  follows_bind (insertPrincipal_follows _) fun _ =>
    follows_bind (insertUser_follows _) fun _ =>
      follows_bind (insertExternalIdentity_follows _) fun _ =>
        follows_bind (insertOnboardingRequest_follows _) fun _ =>
          follows_bind (completeSignupAttempt_follows _ _) fun _ => securityEvent_follows _

theorem follows_done (r : Except Failure α) : (done r : Tx α).Follows reservations := trivial

theorem completeVerified_follows (c : VerifyCall) (attempt : PlatformUserSignupAttempt)
    (clerkUserId : String) : (completeVerified c attempt clerkUserId).Follows reservations := by
  refine follows_bind (follows_unreserved ?_) fun lockedAttempt =>
    follows_bind (requireCompletable_follows _ _) fun _ => follows_bind (follows_done _) fun _ => ?_
  · intro db o ho w hw
    split at ho
    · cases ho
    · cases ho
      cases hw
  · split
    · exact follows_raise _
    · refine follows_bind (requireIdentityNotRegistered_follows _ _) fun _ =>
        follows_bind (requireClerkIdentityNotRegistered_follows _) fun _ =>
          follows_bind (follows_attempt ?_ ?_) fun _ => follows_pure _
      · exact follows_bind (register_follows ..) fun _ => follows_commitNow
      · intro e
        cases e <;> exact follows_bind follows_rollbackNow fun _ => follows_raise _

theorem verifyEmailCode_follows (c : VerifyCall) : (verifyEmailCode c).Follows reservations := by
  unfold verifyEmailCode
  split
  · exact follows_raise _
  · refine follows_bind follows_query fun attempt =>
      follows_bind (requireCompletable_follows _ _) fun _ => follows_bind (follows_done _) fun _ =>
        follows_bind (follows_done _) fun _ => follows_bind follows_rollbackNow fun _ =>
          follows_bind follows_query fun accepted => follows_bind follows_query fun verified => ?_
    split
    · exact follows_raise _
    · split
      · exact follows_raise _
      · exact completeVerified_follows ..

end Follows

end VerigenceSecurity
