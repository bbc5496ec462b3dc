import VerigenceSecurity.OnboardingCompletion

/-! # Exactly one registration

What overlapping calls of `verify_email_code` leave behind, and when a later call
completes an attempt that is still pending.
-/

namespace VerigenceSecurity
set_option autoImplicit false

open Transaction Program Relational

/-! ## Normal forms of e-mail and mobile -/

theorem toLower_toLower (c : Char) : c.toLower.toLower = c.toLower := by
  by_cases h : c.val ≥ 'A'.val ∧ c.val ≤ 'Z'.val
  · have hval : c.toLower.val = c.val + ('a'.val - 'A'.val) := by
      unfold Char.toLower
      rw [dif_pos h]
    have hnot : ¬ (c.toLower.val ≥ 'A'.val ∧ c.toLower.val ≤ 'Z'.val) := by
      rw [hval]
      simp only [ge_iff_le, UInt32.le_iff_toNat_le, UInt32.toNat_add] at h ⊢
      simp at h ⊢
      omega
    generalize c.toLower = d at hnot
    unfold Char.toLower
    rw [dif_neg hnot]
  · have hsame : c.toLower = c := by
      unfold Char.toLower
      rw [dif_neg h]
    rw [hsame, hsame]

theorem lower_lower (value : String) : lower (lower value) = lower value := by
  unfold lower String.toLower
  rw [String.map_map]
  congr 1
  funext c
  exact toLower_toLower c

theorem mobileDigits_mobileDigits (value : String) :
    mobileDigits (mobileDigits value) = mobileDigits value := by
  simp [mobileDigits]

theorem mobileDigits_removePrefix (value : String) :
    mobileDigits (removePrefix value "+") = mobileDigits value := by
  unfold removePrefix startsWith
  split
  · rename_i h
    obtain ⟨rest, hrest⟩ := List.isPrefixOf_iff_prefix.mp h
    simp only [mobileDigits, String.toList_ofList, ← hrest]
    rfl
  · rfl

/-! ## A call that nothing overlaps -/

/-- Nobody has the e-mail, the mobile or the Clerk user of the attempt. -/
structure Unregistered (db : Database) (attempt : PlatformUserSignupAttempt) (clerkUserId : String) :
    Prop where
  email : ∀ u ∈ db.users.rows, u.primaryEmail.map lower ≠ some (lower attempt.email)
  mobile : ∀ u ∈ db.users.rows, u.primaryMobile.map mobileDigits ≠ some (mobileDigits attempt.mobile)
  clerkUser : ∀ e ∈ db.externalIdentities.rows, ¬ (e.provider = .clerk ∧ e.providerSubject = clerkUserId)

structure VerifyCall.Fresh (c : VerifyCall) (db : Database) : Prop where
  principal : ∀ r ∈ db.securityPrincipals.rows, r.principalId ≠ c.userId
  user : ∀ r ∈ db.users.rows, r.userId ≠ c.userId
  identity : ∀ r ∈ db.externalIdentities.rows, r.externalIdentityId ≠ c.externalIdentityId
  request : ∀ r ∈ db.platformUserOnboardingRequests.rows,
    r.onboardingRequestId ≠ c.requestId ∧ r.userId ≠ c.userId
  event : ∀ r ∈ db.securityEvents.rows, r.securityEventId ≠ c.eventId

/-- The attempt is pending and not expired, nobody has registered meanwhile, and Clerk reports the
address verified. -/
structure VerifyCall.Retries (c : VerifyCall) (db : Database) (attempt : PlatformUserSignupAttempt)
    (clerkUserId emailAddressId : String) : Prop where
  code : isMissing c.code = false
  loaded : db.signupAttempt c.signupAttemptId = some attempt
  live : attempt.status = .authorizedForClerk
  unexpired : c.loadedAt < attempt.expiresAt ∧ c.now < attempt.expiresAt
  clerkUser : requiredClerkUserId attempt = .ok clerkUserId
  clerkEmail : requiredClerkEmailId attempt = .ok emailAddressId
  accepted : ∃ yes, c.accepted = .ok yes
  verified : c.verified = .ok true
  unregistered : Unregistered db attempt clerkUserId
  fresh : c.Fresh db

section Alone

variable {db : Database} {s : Session Database} {attempt : PlatformUserSignupAttempt}
  {clerkUserId emailAddressId : String} {c : VerifyCall}

theorem exec_requireCompletable {now : Instant} (hlive : attempt.status = .authorizedForClerk)
    (hnow : now < attempt.expiresAt) : (requireCompletable attempt now).exec s = (.ok (), s) := by
  have hlate : ¬ attempt.expiresAt ≤ now := Int.not_le.mpr hnow
  simp [requireCompletable, hlive, hlate]

theorem Unregistered.emailRegistered (h : Unregistered db attempt clerkUserId) :
    db.emailRegistered attempt.email = false := by
  simp only [Database.emailRegistered, List.any_eq_false, decide_eq_true_eq]
  intro u hu hemail
  obtain ⟨email, hmail, hlower⟩ := Option.map_eq_some_iff.mp hemail
  apply h.email u hu
  rw [hmail, Option.map_some, ← hlower, lower_lower]

theorem Unregistered.mobileRegistered (h : Unregistered db attempt clerkUserId) :
    db.mobileRegistered (removePrefix attempt.mobile "+") = false := by
  simp only [Database.mobileRegistered, List.any_eq_false, decide_eq_true_eq]
  intro u hu hmobile
  obtain ⟨mobile, hmail, hdigits⟩ := Option.map_eq_some_iff.mp hmobile
  apply h.mobile u hu
  rw [hmail, Option.map_some, ← mobileDigits_removePrefix attempt.mobile, ← hdigits,
    mobileDigits_mobileDigits]

theorem Unregistered.clerkIdentityRegistered (h : Unregistered db attempt clerkUserId) :
    db.clerkIdentityRegistered clerkUserId = false := by
  simp only [Database.clerkIdentityRegistered, List.any_eq_false, decide_eq_true_eq]
  exact h.clerkUser

theorem Unregistered.exec_requireIdentityNotRegistered
    (h : Unregistered s.view attempt clerkUserId) :
    (requireIdentityNotRegistered attempt.email attempt.mobile).exec s = (.ok (), s) := by
  simp [requireIdentityNotRegistered, exec_bind, exec_query, h.emailRegistered, h.mobileRegistered]

theorem Unregistered.exec_requireClerkIdentityNotRegistered
    (h : Unregistered s.view attempt clerkUserId) :
    (requireClerkIdentityNotRegistered clerkUserId).exec s = (.ok (), s) := by
  simp [requireClerkIdentityNotRegistered, exec_bind, exec_query, h.clerkIdentityRegistered]

/-- Such a call gets as far as its registration. -/
theorem VerifyCall.Retries.exec_verifyEmailCode (h : c.Retries db attempt clerkUserId emailAddressId) :
    (verifyEmailCode c).exec ⟨db, db⟩ = (do
      Program.attempt registrationFailed (do
        register c attempt clerkUserId
        commitNow)
      pure (⟨c.requestId, "PENDING_ADMIN_APPROVAL",
        "Registration successful. Pending administrator approval."⟩ : VerifyResult) :
          Tx VerifyResult).exec ⟨db, db⟩ := by
  obtain ⟨yes, haccepted⟩ := h.accepted
  have hload : (loadAttempt c.signupAttemptId).exec ⟨db, db⟩ = (.ok attempt, ⟨db, db⟩) := by
    simp [loadAttempt, exec_query, h.loaded]
  have hlock : (loadAttemptForUpdate c.signupAttemptId).exec ⟨db, db⟩ = (.ok attempt, ⟨db, db⟩) := by
    simp [loadAttemptForUpdate, exec_execute, h.loaded]
  have hidentity : (requireIdentityNotRegistered attempt.email attempt.mobile).exec ⟨db, db⟩ =
      (.ok (), ⟨db, db⟩) :=
    h.unregistered.exec_requireIdentityNotRegistered (s := ⟨db, db⟩)
  have hclerk : (requireClerkIdentityNotRegistered clerkUserId).exec ⟨db, db⟩ = (.ok (), ⟨db, db⟩) :=
    h.unregistered.exec_requireClerkIdentityNotRegistered (s := ⟨db, db⟩)
  have hdone : ∀ {α : Type} (a : α), (done (.ok a) : Tx α).exec ⟨db, db⟩ = (.ok a, ⟨db, db⟩) :=
    fun _ => rfl
  unfold verifyEmailCode
  rw [h.code, if_neg Bool.false_ne_true]
  simp only [exec_bind, hload, exec_requireCompletable h.live h.unexpired.1, h.clerkUser, h.clerkEmail,
    hdone, exec_rollbackNow, askClerk, exec_query, haccepted, h.verified, completeVerified, hlock,
    exec_requireCompletable h.live h.unexpired.2, hidentity, hclerk, Bool.true_eq_false, and_false,
    if_false, ne_eq, not_true_eq_false]

theorem exec_edit {label : StatementName} {run : Database → Except Failure (Outcome Write RowLock Unit)}
    {w : Write} {o : Outcome Write RowLock Unit} (hrun : run s.view = .ok o) (hedits : o.edits = [w]) :
    (execute label run).exec s = (.ok (), ⟨s.committed, w.apply s.view⟩) := by
  rw [exec_execute, hrun]
  dsimp only
  rw [hedits]
  rfl

theorem insertRow_of_free {ρ : Type} [Row ρ] {T : Rows ρ} {row : ρ} (references : List Reference)
    (write : Write) (hfree : ∀ k ∈ Row.entries row, k ∉ T.taken)
    (hreferences : references.all (·.present) = true) :
    ∃ o, insertRow T row references write = .ok o ∧ o.edits = [write] := by
  have hunique := Table.isSome_insert?_iff_taken.mpr hfree
  simp [insertRow, hunique, hreferences]

structure RowsFree (c : VerifyCall) (db : Database) (attempt : PlatformUserSignupAttempt)
    (clerkUserId : String) : Prop where
  principal : ∀ k ∈ Row.entries (c.principal attempt), k ∉ db.securityPrincipals.taken
  user : ∀ k ∈ Row.entries (c.user attempt), k ∉ db.users.taken
  identity : ∀ k ∈ Row.entries (c.identity clerkUserId), k ∉ db.externalIdentities.taken
  request : ∀ k ∈ Row.entries (c.request attempt clerkUserId), k ∉ db.platformUserOnboardingRequests.taken
  event : ∀ k ∈ Row.entries c.event, k ∉ db.securityEvents.taken

theorem Unregistered.rowsFree (h : Unregistered db attempt clerkUserId) (hfresh : c.Fresh db) :
    RowsFree c db attempt clerkUserId where
  principal k hk htaken := by
    obtain ⟨r, hr, hkr⟩ := Table.mem_taken.mp htaken
    simp only [Row.entries, VerifyCall.principal, List.mem_singleton] at hk hkr
    rw [hk] at hkr
    simp only [Prod.mk.injEq, List.cons.injEq, and_true, true_and] at hkr
    exact hfresh.principal r hr hkr.symm
  user k hk htaken := by
    obtain ⟨r, hr, hkr⟩ := Table.mem_taken.mp htaken
    simp only [Row.entries, VerifyCall.user, Option.toList_some, List.map_cons, List.map_nil,
      List.cons_append, List.nil_append, List.mem_cons, List.not_mem_nil, or_false] at hk
    rcases hk with rfl | rfl | rfl
    · simp [Row.entries] at hkr
      exact hfresh.user r hr hkr.symm
    · simp [Row.entries] at hkr
      exact h.email r hr (by simpa using hkr)
    · simp [Row.entries] at hkr
      exact h.mobile r hr (by simpa using hkr)
  identity k hk htaken := by
    obtain ⟨r, hr, hkr⟩ := Table.mem_taken.mp htaken
    simp only [Row.entries, VerifyCall.identity, List.mem_cons, List.not_mem_nil, or_false] at hk
    rcases hk with rfl | rfl
    · simp [Row.entries] at hkr
      exact hfresh.identity r hr hkr.symm
    · simp [Row.entries] at hkr
      refine h.clerkUser r hr ⟨?_, hkr.2.symm⟩
      cases hprovider : r.provider with
      | clerk => rfl
      | devMock => simp [hprovider, IdentityProvider.text] at hkr
  request k hk htaken := by
    obtain ⟨r, hr, hkr⟩ := Table.mem_taken.mp htaken
    have hids := hfresh.request r hr
    simp only [Row.entries, VerifyCall.request, List.mem_cons, List.not_mem_nil, or_false] at hk
    rcases hk with rfl | rfl
    · simp [Row.entries] at hkr
      exact hids.1 hkr.symm
    · simp [Row.entries] at hkr
      exact hids.2 hkr.symm
  event k hk htaken := by
    obtain ⟨r, hr, hkr⟩ := Table.mem_taken.mp htaken
    simp only [Row.entries, VerifyCall.event, List.mem_singleton] at hk hkr
    rw [hk] at hkr
    simp only [Prod.mk.injEq, List.cons.injEq, and_true, true_and] at hkr
    exact hfresh.event r hr hkr.symm

theorem exec_insertPrincipal {row : SecurityPrincipal} (hwidth : row.principalName.length ≤ 240)
    (hfree : ∀ k ∈ Row.entries row, k ∉ s.view.securityPrincipals.taken) :
    (insertPrincipal row).exec s = (.ok (), ⟨s.committed, (Write.insertSecurityPrincipal row).apply s.view⟩) := by
  obtain ⟨o, ho, hedits⟩ := insertRow_of_free [] (.insertSecurityPrincipal row) hfree rfl
  refine exec_edit ?_ hedits
  rw [if_neg (Nat.not_lt.mpr hwidth)]
  exact ho

theorem exec_insertUser {row : User} (hwidth : row.displayName.length ≤ 240)
    (hfree : ∀ k ∈ Row.entries row, k ∉ s.view.users.taken)
    (hprincipal : (s.view.principalReference row.userId).present = true) :
    (insertUser row).exec s = (.ok (), ⟨s.committed, (Write.insertUser row).apply s.view⟩) := by
  obtain ⟨o, ho, hedits⟩ := insertRow_of_free [s.view.principalReference row.userId] (.insertUser row)
    hfree (by simpa using hprincipal)
  refine exec_edit ?_ hedits
  rw [if_neg (Nat.not_lt.mpr hwidth)]
  exact ho

/-- An insertion of a free row with one reference, which is there. -/
theorem exec_insert {ρ : Type} [Row ρ] {label : StatementName} {T : Database → Rows ρ} {row : ρ}
    {reference : Database → Reference} {write : Write} (hfree : ∀ k ∈ Row.entries row, k ∉ (T s.view).taken)
    (hreference : (reference s.view).present = true) :
    (execute label (fun db => insertRow (T db) row [reference db] write) : Tx Unit).exec s =
      (.ok (), ⟨s.committed, write.apply s.view⟩) := by
  obtain ⟨o, ho, hedits⟩ := insertRow_of_free [reference s.view] write hfree (by simpa using hreference)
  exact exec_edit ho hedits

theorem exec_completeSignupAttempt {signupAttemptId : Uuid} {now : Instant}
    (h : s.view.signupAttempt signupAttemptId = some attempt)
    (hclerk : attempt.clerkUserId = some clerkUserId) :
    (completeSignupAttempt signupAttemptId now).exec s =
      (.ok (), ⟨s.committed, (Write.completeSignupAttempt signupAttemptId now).apply s.view⟩) := by
  simp [completeSignupAttempt, exec_execute, h, hclerk]

theorem exec_register (hfree : RowsFree c db attempt clerkUserId)
    (hloaded : db.signupAttempt c.signupAttemptId = some attempt)
    (hclerk : attempt.clerkUserId = some clerkUserId)
    (hemail : (c.principal attempt).principalName.length ≤ 240)
    (hname : (c.user attempt).displayName.length ≤ 240) : (register c attempt clerkUserId).exec ⟨db, db⟩ =
      (.ok (), ⟨db, replayAll (c.registration attempt clerkUserId) db⟩) := by
  have hprincipal : (db.securityPrincipals.insert (c.principal attempt)).rows.any
      (fun r => decide (r.principalId = c.userId)) = true := by
    rw [rows_insert_of_free hfree.principal]
    simp [VerifyCall.principal]
  have huser : (db.users.insert (c.user attempt)).rows.any
      (fun r => decide (r.userId = c.userId)) = true := by
    rw [rows_insert_of_free hfree.user]
    simp [VerifyCall.user]
  have hinsertUser := exec_insertUser
    (s := ⟨db, (Write.insertSecurityPrincipal (c.principal attempt)).apply db⟩) hname hfree.user hprincipal
  unfold register
  rw [exec_bind, exec_insertPrincipal hemail hfree.principal]
  dsimp only
  rw [exec_bind, hinsertUser]
  dsimp only
  rw [exec_bind, insertExternalIdentity, exec_insert hfree.identity huser]
  dsimp only
  rw [exec_bind, insertOnboardingRequest, exec_insert hfree.request huser]
  dsimp only
  rw [exec_bind, exec_completeSignupAttempt hloaded hclerk]
  dsimp only
  rw [securityEvent, exec_insert hfree.event hprincipal]
  rfl

theorem register_widths {t : Session Database} {u : Unit}
    (h : (register c attempt clerkUserId).exec s = (.ok u, t)) :
    attempt.email.length ≤ 240 ∧ (displayName attempt).length ≤ 240 := by
  obtain ⟨_, s₁, hprincipal, h⟩ := exec_bind_ok h
  obtain ⟨_, s₂, huser, _⟩ := exec_bind_ok h
  obtain ⟨o, hrun, _⟩ := exec_execute_ok hprincipal
  obtain ⟨o', hrun', _⟩ := exec_execute_ok huser
  constructor
  · split at hrun
    · cases hrun
    · rename_i hwidth
      exact Nat.not_lt.mp hwidth
  · split at hrun'
    · cases hrun'
    · rename_i hwidth
      exact Nat.not_lt.mp hwidth

/-- The columns for the name of the principal and of the user are narrower than the columns
of the attempt that fill them. -/
theorem VerifyCall.Retries.completes_iff (h : c.Retries db attempt clerkUserId emailAddressId) :
    (verifyEmailCode c).alone db = (.ok ⟨c.requestId, "PENDING_ADMIN_APPROVAL",
        "Registration successful. Pending administrator approval."⟩,
        replayAll (c.registration attempt clerkUserId) db) ↔
      attempt.email.length ≤ 240 ∧ (displayName attempt).length ≤ 240 := by
  simp only [alone, h.exec_verifyEmailCode]
  constructor
  · intro hresult
    have hok := congrArg Prod.fst hresult
    dsimp only at hok
    obtain ⟨_, s₁, hattempt, _⟩ := exec_bind_ok (Prod.ext hok rfl)
    rw [exec_attempt] at hattempt
    cases hbody : (register c attempt clerkUserId >>= fun _ => commitNow : Tx Unit).exec ⟨db, db⟩ with
    | mk r t =>
      rw [hbody] at hattempt
      cases r with
      | ok u =>
        obtain ⟨_, _, hregister, _⟩ := exec_bind_ok hbody
        exact register_widths hregister
      | error e => cases e <;> cases hattempt
  · rintro ⟨hemail, hname⟩
    have hregister := exec_register (h.unregistered.rowsFree h.fresh) h.loaded
      (requiredClerkUserId_ok h.clerkUser) hemail hname
    simp only [exec_bind, exec_attempt, hregister, exec_commitNow, exec_pure]

end Alone

/-! ## Every run -/

structure ExactlyOnce (calls : List VerifyCall) (db : Database) (regs : List UserRegistration)
    (s : TxState VerifyResult) : Prop where
  registered : Registered calls db regs s.committed
  attempts : (regs.map fun reg => reg.attempt.signupAttemptId).Nodup
  emails : (regs.map fun reg => lower reg.attempt.email).Nodup
  mobiles : (regs.map fun reg => mobileDigits reg.attempt.mobile).Nodup
  clerkUsers : (regs.map fun reg => reg.clerkUserId).Nodup
  verified : ∀ reg ∈ regs, ∃ c : Call Database Write RowLock StatementName Failure VerifyResult,
    s.calls[reg.index]? = some c ∧ EmailVerified reg.clerkUserId reg.attempt.email c.progress
  answered : ∀ i (c : Call Database Write RowLock StatementName Failure VerifyResult) r,
    s.calls[i]? = some c → c.program = .done r → (r.isOk = true ↔ ∃ reg ∈ regs, reg.index = i)

/-- Rows of one table never share an entry. -/
theorem nodup_of_entries {ρ β κ : Type} [Row ρ] {T : Rows ρ} {before : List ρ} {xs : List β} {row : β → ρ}
    (entry : κ → IndexEntry) (h : T.rows = before ++ xs.map row) {key : β → κ}
    (hentry : ∀ x, entry (key x) ∈ Row.entries (row x)) : (xs.map key).Nodup := by
  have hunique := T.unique
  rw [h, List.pairwise_append] at hunique
  have hrows := List.pairwise_map.mp hunique.2.1
  rw [List.Nodup, List.pairwise_map]
  refine hrows.imp ?_
  intro x y hdisjoint hkey
  apply hdisjoint _ (hentry x)
  rw [hkey]
  exact hentry y

theorem Registered.clerkUsers_nodup {calls : List VerifyCall} {db₀ db : Database}
    {regs : List UserRegistration} (h : Registered calls db₀ regs db) :
    (regs.map fun reg => reg.clerkUserId).Nodup :=
  nodup_of_entries (fun id => (.natural, [IdentityProvider.clerk.text, id])) h.identities
    fun reg => by simp [Row.entries, VerifyCall.identity]

theorem Registered.attempts_nodup {calls : List VerifyCall} {db₀ db : Database}
    {regs : List UserRegistration} (h : Registered calls db₀ regs db) :
    (regs.map fun reg => reg.attempt.signupAttemptId).Nodup := by
  have hclerk := List.pairwise_map.mp h.clerkUsers_nodup
  rw [List.Nodup, List.pairwise_map]
  refine hclerk.imp_of_mem ?_
  intro x y hx hy hne hid
  have hsame := Database.attempt_unique (h.of x hx).mem (h.of y hy).mem hid
  have hxy := (h.of x hx).clerkUser.symm.trans ((congrArg (·.clerkUserId) hsame).trans (h.of y hy).clerkUser)
  exact hne (Option.some.inj hxy)

theorem Completing.exactlyOnce {calls : List VerifyCall} {db : Database} {order : List Nat}
    {s : TxState VerifyResult} (hkeeps : s.Keeps (completionTerms calls) order)
    (h : Completing calls db order s) : ∃ regs, ExactlyOnce calls db regs s := by
  obtain ⟨regs, hregs, haccount⟩ := h.registered
  refine ⟨regs, hregs, hregs.attempts_nodup, ?_, ?_, hregs.clerkUsers_nodup, haccount.verified, ?_⟩
  · exact nodup_of_entries (fun email => (.email, [email])) hregs.users
      fun reg => by simp [Row.entries, VerifyCall.user]
  · exact nodup_of_entries (fun digits => (.mobile, [digits])) hregs.users
      fun reg => by simp [Row.entries, VerifyCall.user]
  · intro i c r hc hdone
    have hown := hkeeps i c hc
    rw [hdone] at hown
    rw [haccount.committed i c hc]
    exact hown.2

theorem onboarding_completes_exactly_once (calls : List VerifyCall) (db : Database)
    {s : TxState VerifyResult}
    (hreach : State.Reaches RowLock.conflicts (fun _ _ => True) (verifications calls db) s) :
    (∃ regs, ExactlyOnce calls db regs s) ∧
    ∀ (c : VerifyCall) (attempt : PlatformUserSignupAttempt) (clerkUserId emailAddressId : String),
      c.Retries s.committed attempt clerkUserId emailAddressId →
      ((verifyEmailCode c).alone s.committed = (.ok ⟨c.requestId, "PENDING_ADMIN_APPROVAL",
          "Registration successful. Pending administrator approval."⟩,
          replayAll (c.registration attempt clerkUserId) s.committed) ↔
        attempt.email.length ≤ 240 ∧ (displayName attempt).length ≤ 240) := by
  obtain ⟨order, hkeeps, h⟩ := State.Reaches.keeps (fun _ _ _ _ _ _ _ _ _ => trivial)
    (fun order s t i hkeeps hinv _ hstep => hinv.step hkeeps hstep) (verifications_keep calls db)
    (completing_initial calls db) hreach
  exact ⟨h.exactlyOnce hkeeps, fun c attempt clerkUserId emailAddressId hretry => hretry.completes_iff⟩

def pendingAttempt (id firstName lastName email mobile clerkUserId : String) : PlatformUserSignupAttempt where
  signupAttemptId := id
  firstName := firstName
  lastName := lastName
  email := email
  mobile := mobile
  status := .authorizedForClerk
  submittedSourceIp := "127.0.0.1"
  correlationId := "correlation"
  createdAt := 0
  expiresAt := attemptTtl
  clerkUserId := some clerkUserId
  clerkEmailAddressId := some ("email_" ++ clerkUserId)
  completedAt := none
  lifetime := by decide
  completion := Or.inr ⟨nofun, rfl⟩

def verifyFor (attemptId n : String) : VerifyCall where
  signupAttemptId := attemptId
  code := "424242"
  sourceIp := "127.0.0.1"
  correlationId := "correlation"
  loadedAt := 1
  now := 2
  accepted := .ok true
  verified := .ok true
  userId := "user-" ++ n
  requestId := "request-" ++ n
  externalIdentityId := "identity-" ++ n
  eventId := "event-" ++ n

def ashasAttempt : PlatformUserSignupAttempt :=
  pendingAttempt "attempt-1" "Asha" "Rao" "asha@example.com" "+919876543210" "user_asha"

/-- Both names are as long as the service admits. -/
def longNamedAttempt : PlatformUserSignupAttempt :=
  pendingAttempt "attempt-2" (String.ofList (List.replicate 120 'a'))
    (String.ofList (List.replicate 120 'b')) "ben@example.com" "+919876543211" "user_ben"

def signups : Database :=
  { (default : Database) with
    platformUserSignupAttempts := (Table.empty.insert ashasAttempt).insert longNamedAttempt }

theorem signups_retries (attempt : PlatformUserSignupAttempt) {clerkUserId emailAddressId : String}
    (n : String) (hload : signups.signupAttempt attempt.signupAttemptId = some attempt)
    (hlive : attempt.status = .authorizedForClerk) (hexpiry : attempt.expiresAt = attemptTtl)
    (hclerk : requiredClerkUserId attempt = .ok clerkUserId)
    (hemail : requiredClerkEmailId attempt = .ok emailAddressId) :
    (verifyFor attempt.signupAttemptId n).Retries signups attempt clerkUserId emailAddressId where
  code := (by decide +kernel : isMissing "424242" = false)
  loaded := hload
  live := hlive
  unexpired := by
    rw [hexpiry]
    exact (by decide : (1 : Instant) < attemptTtl ∧ (2 : Instant) < attemptTtl)
  clerkUser := hclerk
  clerkEmail := hemail
  accepted := ⟨true, rfl⟩
  verified := rfl
  unregistered := ⟨fun _ h => (nomatch h), fun _ h => (nomatch h), fun _ h => (nomatch h)⟩
  fresh := ⟨fun _ h => (nomatch h), fun _ h => (nomatch h), fun _ h => (nomatch h),
    fun _ h => (nomatch h), fun _ h => (nomatch h)⟩

/-- Two calls for one attempt: the second finds it completed. Another attempt is completed later. -/
theorem second_verification_is_refused : (∃ s : TxState VerifyResult,
    State.Reaches RowLock.conflicts (fun _ _ => True)
      (verifications [verifyFor "attempt-1" "1", verifyFor "attempt-1" "2"] signups) s ∧
    (∃ regs, ExactlyOnce [verifyFor "attempt-1" "1", verifyFor "attempt-1" "2"] signups regs s) ∧
    s.committed.users.rows.map (·.userId) = ["user-1"]) ∧
    (verifyEmailCode (verifyFor "attempt-1" "1")).alone signups = (.ok ⟨"request-1",
      "PENDING_ADMIN_APPROVAL", "Registration successful. Pending administrator approval."⟩,
      replayAll ((verifyFor "attempt-1" "1").registration ashasAttempt "user_asha") signups) := by
  constructor
  · have hrun : ((verifications [verifyFor "attempt-1" "1", verifyFor "attempt-1" "2"] signups).run
        RowLock.conflicts ([0, 1] ++ List.replicate 14 0 ++ List.replicate 4 1)).map (fun s =>
          s.committed.users.rows.map (·.userId)) = some ["user-1"] := by
      decide +kernel
    obtain ⟨s, hs, husers⟩ := Option.map_eq_some_iff.mp hrun
    have hok : (verifications [verifyFor "attempt-1" "1", verifyFor "attempt-1" "2"] signups).Meets
        RowLock.conflicts (fun _ _ => True)
        ([0, 1] ++ List.replicate 14 0 ++ List.replicate 4 1 ++ []) := State.meets_true _ _
    have hreach := (State.reaches_of_run hok hs).1
    exact ⟨s, hreach, (onboarding_completes_exactly_once _ signups hreach).1, husers⟩
  · have hretries : (verifyFor "attempt-1" "1").Retries signups ashasAttempt "user_asha"
        "email_user_asha" :=
      signups_retries ashasAttempt "1" (by decide +kernel) rfl rfl (by decide +kernel)
        (by decide +kernel)
    have hiff := (onboarding_completes_exactly_once [] signups .refl).2 _ _ _ _ hretries
    exact hiff.mpr (by decide +kernel)

/-- An attempt with two long names is never completed. -/
theorem long_name_blocks_completion : ¬ ∀ (calls : List VerifyCall) (db : Database)
    (s : TxState VerifyResult),
    State.Reaches RowLock.conflicts (fun _ _ => True) (verifications calls db) s →
    (∃ regs, ExactlyOnce calls db regs s) ∧
    ∀ (c : VerifyCall) (attempt : PlatformUserSignupAttempt) (clerkUserId emailAddressId : String),
      c.Retries s.committed attempt clerkUserId emailAddressId →
      (verifyEmailCode c).alone s.committed = (.ok ⟨c.requestId, "PENDING_ADMIN_APPROVAL",
        "Registration successful. Pending administrator approval."⟩,
        replayAll (c.registration attempt clerkUserId) s.committed) := by
  intro hclaim
  have hretries : (verifyFor "attempt-2" "1").Retries signups longNamedAttempt "user_ben"
      "email_user_ben" :=
    signups_retries longNamedAttempt "1" (by decide +kernel) rfl rfl (by decide +kernel)
      (by decide +kernel)
  have hcompletes := (hclaim [] signups _ .refl).2 _ _ _ _ hretries
  have hwidths := hretries.completes_iff.mp hcompletes
  revert hwidths
  decide +kernel

end VerigenceSecurity
