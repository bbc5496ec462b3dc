import VerigenceSecurity.ReservedEntries
import VerigenceSecurity.Library.RelyGuarantee

/-! # Completions of signup attempts

Calls of `verify_email_code` overlap. Each of them commits at most once: that its attempt
has expired, or all six rows of a registration.
-/

namespace VerigenceSecurity
set_option autoImplicit false

open Transaction Program Relational

/-! ## Attempts and their progress -/

namespace PlatformUserSignupAttempt

def details (r : PlatformUserSignupAttempt) : PlatformUserSignupAttempt :=
  { r with status := .expired, completedAt := none, completion := Or.inr ⟨nofun, rfl⟩ }

@[simp] theorem details_closed (r : PlatformUserSignupAttempt) (status : SignupStatus) :
    (r.closed status).details = r.details := by
  unfold closed
  split <;> rfl

@[simp] theorem details_completed (r : PlatformUserSignupAttempt) (now : Instant) :
    (r.completed now).details = r.details := by
  unfold completed
  split <;> rfl

theorem id_closed (r : PlatformUserSignupAttempt) (status : SignupStatus) :
    (r.closed status).signupAttemptId = r.signupAttemptId :=
  congrArg (·.signupAttemptId) (details_closed r status)

theorem id_completed (r : PlatformUserSignupAttempt) (now : Instant) :
    (r.completed now).signupAttemptId = r.signupAttemptId :=
  congrArg (·.signupAttemptId) (details_completed r now)

theorem completed_details (r : PlatformUserSignupAttempt) (now : Instant) :
    r.details.completed now = r.completed now ∨ r.clerkUserId = none := by
  cases hclerk : r.clerkUserId with
  | none => exact Or.inr rfl
  | some id =>
    left
    simp [completed, details, hclerk]

theorem completed_eq {r a : PlatformUserSignupAttempt} {id : String} (h : r.details = a.details)
    (hid : a.clerkUserId = some id) (now : Instant) : r.completed now = a.completed now := by
  have hrid : r.clerkUserId = some id := (congrArg (·.clerkUserId) h).trans hid
  have hr := (completed_details r now).resolve_right (by simp [hrid])
  have ha := (completed_details a now).resolve_right (by simp [hid])
  rw [← hr, ← ha, h]

theorem closed_of_closed {r : PlatformUserSignupAttempt} {status : SignupStatus}
    (h : r.status ≠ .authorizedForClerk) : r.closed status = r := by
  simp [closed, h]

theorem status_closed_expired (r : PlatformUserSignupAttempt) :
    (r.closed .expired).status ≠ .authorizedForClerk := by
  unfold closed
  split
  · simp
  · rename_i h
    exact fun hstatus => h ⟨hstatus, by simp, by simp⟩

theorem status_completed {r : PlatformUserSignupAttempt} {id : String} (h : r.clerkUserId = some id)
    (now : Instant) : (r.completed now).status = .completed := by
  simp [completed, h]

end PlatformUserSignupAttempt

namespace Database

def applicants (db : Database) : List PlatformUserSignupAttempt :=
  db.platformUserSignupAttempts.rows.map (·.details)

theorem attempt_unique {db : Database} {a b : PlatformUserSignupAttempt}
    (ha : a ∈ db.platformUserSignupAttempts.rows) (hb : b ∈ db.platformUserSignupAttempts.rows)
    (h : a.signupAttemptId = b.signupAttemptId) : a = b := by
  refine Table.shared_entry ha hb (k := (.primary, [a.signupAttemptId])) List.mem_cons_self ?_
  rw [h]
  exact List.mem_cons_self

theorem applicant_of_mem {db db₀ : Database} (h : db.applicants = db₀.applicants)
    {r : PlatformUserSignupAttempt} (hr : r ∈ db.platformUserSignupAttempts.rows) :
    ∃ a ∈ db₀.platformUserSignupAttempts.rows, a.details = r.details := by
  have hmem : r.details ∈ db₀.applicants := by
    rw [← h]
    exact List.mem_map_of_mem hr
  exact List.mem_map.mp hmem

theorem signupAttempt_mem {db : Database} {signupAttemptId : Uuid} {r : PlatformUserSignupAttempt}
    (h : db.signupAttempt signupAttemptId = some r) :
    r ∈ db.platformUserSignupAttempts.rows ∧ r.signupAttemptId = signupAttemptId :=
  ⟨List.mem_of_find?_eq_some h, by simpa using List.find?_some h⟩

theorem mem_closeSignupAttempts {db : Database} {ids : List Uuid} {status : SignupStatus}
    {r : PlatformUserSignupAttempt} :
    r ∈ ((Write.closeSignupAttempts ids status).apply db).platformUserSignupAttempts.rows ↔
      ∃ o ∈ db.platformUserSignupAttempts.rows,
        ((o.signupAttemptId ∈ ids ∧ o.status = .authorizedForClerk) ∧ r = o.closed status) ∨
          ¬ (o.signupAttemptId ∈ ids ∧ o.status = .authorizedForClerk) ∧ r = o := by
  simp only [Write.apply, Table.mem_update, decide_eq_true_eq, decide_eq_false_iff_not]

theorem mem_completeSignupAttempt {db : Database} {signupAttemptId : Uuid} {now : Instant}
    {r : PlatformUserSignupAttempt} :
    r ∈ ((Write.completeSignupAttempt signupAttemptId now).apply db).platformUserSignupAttempts.rows ↔
      ∃ o ∈ db.platformUserSignupAttempts.rows,
        (o.signupAttemptId = signupAttemptId ∧ r = o.completed now) ∨
          ¬ o.signupAttemptId = signupAttemptId ∧ r = o := by
  simp only [Write.apply, Table.mem_update, decide_eq_true_eq, decide_eq_false_iff_not]

theorem applicants_closeSignupAttempts (db : Database) (ids : List Uuid) (status : SignupStatus) :
    ((Write.closeSignupAttempts ids status).apply db).applicants = db.applicants := by
  simp only [applicants, Write.apply, Table.rows_update, List.map_map]
  apply List.map_congr_left
  intro r _
  simp only [Function.comp]
  split <;> simp

theorem applicants_completeSignupAttempt (db : Database) (signupAttemptId : Uuid) (now : Instant) :
    ((Write.completeSignupAttempt signupAttemptId now).apply db).applicants = db.applicants := by
  simp only [applicants, Write.apply, Table.rows_update, List.map_map]
  apply List.map_congr_left
  intro r _
  simp only [Function.comp]
  split <;> simp

end Database

/-! ## What a call commits -/

def VerifyCall.sawExpired (c : VerifyCall) (attempt : PlatformUserSignupAttempt) : Prop :=
  attempt.expiresAt ≤ c.loadedAt ∨ attempt.expiresAt ≤ c.now

def VerifyCall.registration (c : VerifyCall) (attempt : PlatformUserSignupAttempt)
    (clerkUserId : String) : List Write :=
  [.insertSecurityPrincipal (c.principal attempt), .insertUser (c.user attempt),
    .insertExternalIdentity (c.identity clerkUserId),
    .insertOnboardingRequest (c.request attempt clerkUserId),
    .completeSignupAttempt c.signupAttemptId c.now, .insertSecurityEvent c.event]

def EmailVerified (clerkUserId email : String) (g : TxProgress) : Prop :=
  ∃ e ∈ g.history, e.label = .clerk (.isEmailVerified clerkUserId email) (.verified true)

def Completes (g : TxProgress) : Prop := ∃ e ∈ g.history, e.label = .completeSignupAttempt

def Loaded (attempt : PlatformUserSignupAttempt) (g : TxProgress) : Prop :=
  ∃ e ∈ g.history, attempt ∈ e.committed.platformUserSignupAttempts.rows

structure Expires (c : VerifyCall) (attempt : PlatformUserSignupAttempt) (g : TxProgress) : Prop where
  loaded : Loaded attempt g
  id : attempt.signupAttemptId = c.signupAttemptId
  expired : c.sawExpired attempt
  pending : ∃ ids, g.pending = [.closeSignupAttempts ids .expired] ∧ ∀ id ∈ ids, id = c.signupAttemptId

structure Registers (c : VerifyCall) (attempt : PlatformUserSignupAttempt) (clerkUserId : String)
    (g : TxProgress) : Prop where
  loaded : Loaded attempt g
  id : attempt.signupAttemptId = c.signupAttemptId
  clerkUser : attempt.clerkUserId = some clerkUserId
  pending : g.pending = c.registration attempt clerkUserId
  verified : EmailVerified clerkUserId attempt.email g

/-- What the one commit of a call can be. -/
def VerifyCall.Commits (c : VerifyCall) (g : TxProgress) : Prop :=
  ((∃ attempt, Expires c attempt g) ∧ ¬ Completes g) ∨
    (∃ attempt clerkUserId, Registers c attempt clerkUserId g) ∧ Completes g

/-- What has not changed since another reading of the attempt. -/
theorem Expires.of_details {c : VerifyCall} {a attempt : PlatformUserSignupAttempt} {g : TxProgress}
    (h : Expires c attempt g) (hdetails : a.details = attempt.details) :
    a.signupAttemptId = c.signupAttemptId ∧ c.sawExpired a := by
  have hexpiry : a.expiresAt = attempt.expiresAt := congrArg (·.expiresAt) hdetails
  constructor
  · exact (congrArg (·.signupAttemptId) hdetails).trans h.id
  · unfold VerifyCall.sawExpired
    rw [hexpiry]
    exact h.expired

theorem VerifyCall.registration_of_details (c : VerifyCall) {a attempt : PlatformUserSignupAttempt}
    (hdetails : a.details = attempt.details) (clerkUserId : String) :
    c.registration a clerkUserId = c.registration attempt clerkUserId := by
  have hsame : c.registration a.details clerkUserId = c.registration attempt.details clerkUserId := by
    rw [hdetails]
  exact hsame

def EndsWithEvent (g : TxProgress) : Prop := ∀ e ∈ g.history.head?, e.label = .securityEvent

def verifyTerms (c : VerifyCall) : Terms Database Write RowLock StatementName Failure VerifyResult where
  rely _ _ _ := True
  always n g := n = 1 → Completes g → EndsWithEvent g
  commits n g _ := n = 0 ∧ c.Commits g
  returns r n g := r.isOk = true ↔ n = 1 ∧ Completes g

structure Verifies {α : Type} (c : VerifyCall) (T : Terms Database Write RowLock StatementName Failure α) :
    Prop where
  before : ∀ g, T.always 0 g
  after : ∀ g, (Completes g → EndsWithEvent g) → T.always 1 g
  commits : ∀ g db, c.Commits g → T.commits 0 g db
  raises : ∀ e g, T.returns (.error e) 0 g
  expires : ∀ e g, ¬ Completes g → T.returns (.error e) 1 g

theorem verifies_terms (c : VerifyCall) : Verifies c (verifyTerms c) where
  before _ h := nomatch h
  after _ h _ := h
  commits _ _ h := ⟨rfl, h⟩
  raises e g := by simp [verifyTerms, Except.isOk, Except.toBool]
  expires e g h := by simp [verifyTerms, Except.isOk, Except.toBool, h]

section Keeps

variable {α β : Type} {c : VerifyCall} {g : TxProgress}
  {T : Terms Database Write RowLock StatementName Failure α}

theorem not_completes_failed {label : StatementName} {db : Database} (h : ¬ Completes g)
    (hlabel : label ≠ .completeSignupAttempt) : ¬ Completes (g.failed label db) := by
  rintro ⟨e, he, hl⟩
  rcases List.mem_cons.mp he with rfl | he
  · exact hlabel hl
  · exact h ⟨e, he, hl⟩

theorem not_completes_ran {label : StatementName} {db : Database} {o : Outcome Write RowLock β}
    (h : ¬ Completes g) (hlabel : label ≠ .completeSignupAttempt) :
    ¬ Completes (g.ran label db o) :=
  not_completes_failed h hlabel

theorem Loaded.mono {attempt : PlatformUserSignupAttempt} {g' : TxProgress} (h : Loaded attempt g)
    (hgrows : ∀ e ∈ g.history, e ∈ g'.history) : Loaded attempt g' := by
  obtain ⟨e, he, hmem⟩ := h
  exact ⟨e, hgrows e he, hmem⟩

theorem Verifies.part (hT : Verifies c T) {k : β → Tx α} :
    Verifies c (T.part fun b n g => (k b).Keeps T n g) where
  before := hT.before
  after := hT.after
  commits := hT.commits
  raises := hT.raises
  expires := hT.expires

theorem Verifies.keeps_raise_bind (hT : Verifies c T) {e : Failure} {k : β → Tx α} :
    ((raise e : Tx β) >>= k).Keeps T 0 g := ⟨hT.before g, hT.raises e g⟩

/-- An attempt that is not completable is refused, or marked as expired first. -/
theorem Verifies.keeps_requireCompletable_bind (hT : Verifies c T)
    {attempt : PlatformUserSignupAttempt} {now : Instant} {k : Unit → Tx α} (hg : ¬ Completes g)
    (hpending : g.pending = []) (hloaded : Loaded attempt g)
    (hid : attempt.signupAttemptId = c.signupAttemptId)
    (hexpired : attempt.expiresAt ≤ now → c.sawExpired attempt) (hk : (k ()).Keeps T 0 g) :
    (requireCompletable attempt now >>= k).Keeps T 0 g := by
  unfold requireCompletable
  split
  · exact hT.keeps_raise_bind
  split
  · rename_i hnow
    simp only [closeAttempt, updateWhere, Program.bind_assoc]
    refine keeps_query_bind (hT.before g) ?_ fun _ _ _ he => nomatch he
    intro db found _ _
    refine keeps_execute_bind (hT.before _) ?_ fun _ _ _ he => nomatch he
    intro db' o _ ho
    have hedits : o.edits = [.closeSignupAttempts o.value .expired] := by
      rw [← Except.ok.inj ho]
    have hids : ∀ id ∈ o.value, id = c.signupAttemptId := by
      intro id hmem
      rw [← Except.ok.inj ho] at hmem
      have hpend := (List.mem_filter.mp hmem).1
      simp only [Database.pendingAttempt, List.mem_map, List.mem_filter, decide_eq_true_eq] at hpend
      obtain ⟨r, ⟨_, hr, _⟩, rfl⟩ := hpend
      exact hr.trans hid
    have hmark : ¬ Completes ((g.failed (.snapshot .expireSignupAttempt) db).ran
        .expireSignupAttempt db' o) :=
      not_completes_ran (not_completes_failed hg nofun) nofun
    refine keeps_commitNow_bind (hT.before _) ?_ ?_
    · intro db'' _
      refine hT.commits _ _ (Or.inl ⟨⟨attempt, ?_, hid, hexpired hnow, o.value, ?_, hids⟩, hmark⟩)
      · exact hloaded.mono fun e he => List.mem_cons_of_mem _ (List.mem_cons_of_mem _ he)
      · simp only [Progress.ran, Progress.failed, hpending, hedits, List.nil_append]
    · exact ⟨hT.after _ fun h => absurd h hmark, hT.expires _ _ hmark⟩
  · exact hk

/-- A query that a call makes before it completes its attempt. -/
theorem Verifies.keeps_query_bind (hT : Verifies c T) {label : StatementName}
    {read : Database → Except Failure β} {k : β → Tx α}
    (hk : ∀ db b, read (replayAll g.pending db) = .ok b →
      (k b).Keeps T 0 (g.failed label db)) : (query label read >>= k).Keeps T 0 g := by
  refine Program.keeps_query_bind (hT.before g) ?_ ?_
  · intro db b _ hb
    exact hk db b hb
  · intro db e _ _
    exact ⟨hT.before _, hT.raises e _⟩

theorem Verifies.keeps_done_bind (hT : Verifies c T) {r : Except Failure β} {k : β → Tx α}
    (hk : ∀ b, r = .ok b → (k b).Keeps T 0 g) : (done r >>= k).Keeps T 0 g :=
  Program.keeps_done_bind hk fun e _ => ⟨hT.before g, hT.raises e g⟩

theorem Verifies.keeps_requireIdentityNotRegistered_bind (hT : Verifies c T)
    {email mobile : String} {k : Unit → Tx α} {P : TxProgress → Prop} (hg : P g)
    (hP : ∀ g label db, P g → label ≠ .completeSignupAttempt → P (g.failed label db))
    (hk : ∀ g, P g → (k ()).Keeps T 0 g) :
    (requireIdentityNotRegistered email mobile >>= k).Keeps T 0 g := by
  unfold requireIdentityNotRegistered
  rw [Program.bind_assoc]
  refine hT.keeps_query_bind fun db emailRow _ => ?_
  have hfirst := hP g .emailRegistered db hg nofun
  cases emailRow with
  | true => exact hT.keeps_raise_bind
  | false =>
    refine hT.keeps_query_bind fun db' mobileRow _ => ?_
    have hsecond := hP _ .mobileRegistered db' hfirst nofun
    cases mobileRow with
    | true => exact hT.keeps_raise_bind
    | false => exact hk _ hsecond

theorem Verifies.keeps_requireClerkIdentityNotRegistered_bind (hT : Verifies c T)
    {clerkUserId : String} {k : Unit → Tx α} {P : TxProgress → Prop} (hg : P g)
    (hP : ∀ g label db, P g → label ≠ .completeSignupAttempt → P (g.failed label db))
    (hk : ∀ g, P g → (k ()).Keeps T 0 g) :
    (requireClerkIdentityNotRegistered clerkUserId >>= k).Keeps T 0 g := by
  unfold requireClerkIdentityNotRegistered
  rw [Program.bind_assoc]
  refine hT.keeps_query_bind fun db row _ => ?_
  have hnext := hP g .clerkIdentityRegistered db hg nofun
  cases row with
  | true => exact hT.keeps_raise_bind
  | false => exact hk _ hnext

/-- A statement with one edit, after which the history is at least what it was. -/
theorem Verifies.keeps_edit_bind (hT : Verifies c T) {label : StatementName} {w : Write}
    {run : Database → Except Failure (Outcome Write RowLock Unit)} {k : Unit → Tx α}
    (hrun : ∀ db o, run db = .ok o → o.edits = [w])
    (hk : ∀ g', g'.pending = g.pending ++ [w] → (∃ e, g'.history = e :: g.history ∧ e.label = label) →
      (k ()).Keeps T 0 g') : (execute label run >>= k).Keeps T 0 g := by
  refine keeps_execute_bind (hT.before g) ?_ ?_
  · intro db o _ ho
    refine hk _ ?_ ⟨_, rfl, rfl⟩
    simp only [Progress.ran, hrun _ o ho]
  · intro db e _ _
    exact ⟨hT.before _, hT.raises e _⟩

theorem Verifies.keeps_register_bind (hT : Verifies c T) {attempt : PlatformUserSignupAttempt}
    {clerkUserId : String} {k : Unit → Tx α} (hpending : g.pending = [])
    (hk : ∀ g', g'.pending = c.registration attempt clerkUserId → (∀ e ∈ g.history, e ∈ g'.history) →
      Completes g' → EndsWithEvent g' → (k ()).Keeps T 0 g') :
    (register c attempt clerkUserId >>= k).Keeps T 0 g := by
  simp only [register, Program.bind_assoc]
  refine hT.keeps_edit_bind (w := .insertSecurityPrincipal (c.principal attempt)) ?_ ?_
  · intro db o ho
    split at ho
    · cases ho
    · exact (insertRow_ok ho).2.2
  intro g₁ hp₁ ⟨e₁, hh₁, _⟩
  refine hT.keeps_edit_bind (w := .insertUser (c.user attempt)) ?_ ?_
  · intro db o ho
    split at ho
    · cases ho
    · exact (insertRow_ok ho).2.2
  intro g₂ hp₂ ⟨e₂, hh₂, _⟩
  refine hT.keeps_edit_bind (w := .insertExternalIdentity (c.identity clerkUserId))
    (fun db o ho => (insertRow_ok ho).2.2) ?_
  intro g₃ hp₃ ⟨e₃, hh₃, _⟩
  refine hT.keeps_edit_bind (w := .insertOnboardingRequest (c.request attempt clerkUserId))
    (fun db o ho => (insertRow_ok ho).2.2) ?_
  intro g₄ hp₄ ⟨e₄, hh₄, _⟩
  refine hT.keeps_edit_bind (w := .completeSignupAttempt c.signupAttemptId c.now) ?_ ?_
  · intro db o ho
    split at ho
    · cases ho
    · cases ho
      rfl
  intro g₅ hp₅ ⟨e₅, hh₅, hl₅⟩
  refine hT.keeps_edit_bind (w := .insertSecurityEvent c.event)
    (fun db o ho => (insertRow_ok ho).2.2) ?_
  intro g₆ hp₆ ⟨e₆, hh₆, hl₆⟩
  apply hk g₆
  · rw [hp₆, hp₅, hp₄, hp₃, hp₂, hp₁, hpending]
    rfl
  · intro e he
    simp [hh₆, hh₅, hh₄, hh₃, hh₂, hh₁, he]
  · exact ⟨e₅, by simp [hh₆, hh₅], hl₅⟩
  · intro e he
    rw [hh₆] at he
    cases he
    exact hl₆

/-- In the `try` block, whose errors end the transaction. -/
theorem Verifies.registering (hT : Verifies c T) :
    Verifies c (T.guarded fun e n g => (registrationFailed e).Keeps T n g) where
  before := hT.before
  after := hT.after
  commits := hT.commits
  raises e g := by
    cases e <;> exact ⟨hT.before g, hT.before g.ended, hT.raises _ g.ended⟩
  expires e g h := by
    have hafter := hT.after g fun hc => absurd hc h
    have hended := hT.after g.ended fun hc => absurd hc h
    cases e <;> exact ⟨hafter, hended, hT.expires _ g.ended h⟩

theorem requiredClerkUserId_ok {attempt : PlatformUserSignupAttempt} {id : String}
    (h : requiredClerkUserId attempt = .ok id) : attempt.clerkUserId = some id := by
  unfold requiredClerkUserId at h
  split at h
  · split at h
    · rename_i value hvalue _
      cases h
      exact hvalue
    · cases h
  · cases h

structure Confirmed (attempt : PlatformUserSignupAttempt) (clerkUserId : String) (g : TxProgress) :
    Prop where
  pending : g.pending = []
  loaded : Loaded attempt g
  verified : EmailVerified clerkUserId attempt.email g
  incomplete : ¬ Completes g

theorem Confirmed.failed {attempt : PlatformUserSignupAttempt} {clerkUserId : String}
    {label : StatementName} {db : Database} (h : Confirmed attempt clerkUserId g)
    (hlabel : label ≠ .completeSignupAttempt) : Confirmed attempt clerkUserId (g.failed label db) where
  pending := h.pending
  loaded := h.loaded.mono fun _ he => List.mem_cons_of_mem _ he
  verified := by
    obtain ⟨e, he, hl⟩ := h.verified
    exact ⟨e, List.mem_cons_of_mem _ he, hl⟩
  incomplete := not_completes_failed h.incomplete hlabel

theorem completeVerified_keeps {T : Terms Database Write RowLock StatementName Failure VerifyResult}
    (hT : Verifies c T) (hok : ∀ r g, Completes g → T.returns (.ok r) 1 g)
    {attempt : PlatformUserSignupAttempt} {clerkUserId : String} (hg : Confirmed attempt clerkUserId g)
    (hid : attempt.signupAttemptId = c.signupAttemptId) (hclerk : attempt.clerkUserId = some clerkUserId) :
    (completeVerified c attempt clerkUserId).Keeps T 0 g := by
  unfold completeVerified
  refine keeps_execute_bind (hT.before g) ?_ fun _ e _ _ => ⟨hT.before _, hT.raises e _⟩
  intro db o _ ho
  rw [hg.pending, replayAll_nil] at ho
  cases hload : db.signupAttempt c.signupAttemptId with
  | none =>
    rw [hload] at ho
    cases ho
  | some row =>
    rw [hload] at ho
    cases ho
    obtain ⟨hmem, hrow⟩ := Database.signupAttempt_mem hload
    have hlocked : Confirmed attempt clerkUserId (g.ran .loadAttemptForUpdate db
        ⟨row, [], [rowLock .platformUserSignupAttempts [c.signupAttemptId] .update]⟩) := by
      have hfailed : Confirmed attempt clerkUserId (g.failed .loadAttemptForUpdate db) := hg.failed nofun
      refine ⟨?_, hfailed.loaded, hfailed.verified, hfailed.incomplete⟩
      simp [Progress.ran, hg.pending]
    refine hT.keeps_requireCompletable_bind hlocked.incomplete hlocked.pending
      ⟨_, List.mem_cons_self, hmem⟩ hrow Or.inr ?_
    refine hT.keeps_done_bind fun lockedId _ => ?_
    split
    · exact ⟨hT.before _, hT.raises _ _⟩
    refine hT.keeps_requireIdentityNotRegistered_bind hlocked (fun _ _ _ h hl => h.failed hl) ?_
    intro g₁ hg₁
    refine hT.keeps_requireClerkIdentityNotRegistered_bind hg₁ (fun _ _ _ h hl => h.failed hl) ?_
    intro g₂ hg₂
    apply keeps_bind
    apply keeps_attempt
    refine hT.part.registering.keeps_register_bind hg₂.pending ?_
    intro g₃ hpending hhistory hcompletes hend
    have hregisters : Registers c attempt clerkUserId g₃ := by
      refine ⟨hg₂.loaded.mono hhistory, hid, hclerk, hpending, ?_⟩
      obtain ⟨e, he, hl⟩ := hg₂.verified
      exact ⟨e, hhistory e he, hl⟩
    have hafter := hT.after g₃.ended fun _ => hend
    exact keeps_commitNow (hT.before g₃)
      (fun db _ => hT.commits g₃ db (Or.inr ⟨⟨attempt, clerkUserId, hregisters⟩, hcompletes⟩)) hafter
      ⟨hafter, hok _ _ hcompletes⟩

theorem not_completes_start : ¬ Completes (Progress.start : TxProgress) := by
  rintro ⟨e, he, _⟩
  cases he

theorem askClerk_label {call : ClerkCall} {answer : Except Failure Bool} {k : Bool → Tx α}
    (hT : Verifies c T) (hk : ∀ yes db, answer = .ok yes →
      (k yes).Keeps T 0 (g.failed (.clerk call (.verified yes)) db)) :
    (askClerk call answer >>= k).Keeps T 0 g := by
  unfold askClerk
  refine hT.keeps_query_bind fun db yes hyes => ?_
  cases hyes
  exact hk yes db rfl

theorem verifyEmailCode_keeps (c : VerifyCall) :
    (verifyEmailCode c).Keeps (verifyTerms c) 0 Progress.start := by
  have hT := verifies_terms c
  unfold verifyEmailCode
  split
  · exact ⟨hT.before _, hT.raises _ _⟩
  refine hT.keeps_query_bind fun db attempt hread => ?_
  rw [show (Progress.start : TxProgress).pending = [] from rfl, replayAll_nil] at hread
  cases hload : db.signupAttempt c.signupAttemptId with
  | none =>
    rw [hload] at hread
    cases hread
  | some row =>
    rw [hload] at hread
    cases hread
    obtain ⟨hmem, hid⟩ := Database.signupAttempt_mem hload
    have hincomplete : ¬ Completes (Progress.start.failed (.loadAttempt : StatementName) db : TxProgress) :=
      not_completes_failed not_completes_start nofun
    have hloaded : Loaded attempt (Progress.start.failed (.loadAttempt : StatementName) db : TxProgress) :=
      ⟨_, List.mem_cons_self, hmem⟩
    refine hT.keeps_requireCompletable_bind hincomplete rfl hloaded hid Or.inl ?_
    refine hT.keeps_done_bind fun clerkUserId hclerk => ?_
    refine hT.keeps_done_bind fun emailAddressId _ => ?_
    refine keeps_rollbackNow_bind (hT.before _) ?_
    refine askClerk_label hT fun accepted db₁ _ => ?_
    refine askClerk_label hT fun verified db₂ _ => ?_
    split
    · exact ⟨hT.before _, hT.raises _ _⟩
    split
    · exact ⟨hT.before _, hT.raises _ _⟩
    rename_i hverified
    rw [Bool.of_not_eq_false hverified]
    refine completeVerified_keeps hT ?_ ?_ hid (requiredClerkUserId_ok hclerk)
    · intro r g hcompletes
      simp [verifyTerms, Except.isOk, Except.toBool, hcompletes]
    · refine ⟨rfl, ?_, ⟨_, List.mem_cons_self, rfl⟩, ?_⟩
      · exact hloaded.mono fun e he => List.mem_cons_of_mem _ (List.mem_cons_of_mem _ he)
      · exact not_completes_failed (not_completes_failed hincomplete nofun) nofun

end Keeps

/-! ## The rows of the registrations -/

structure UserRegistration where
  index : Nat
  call : VerifyCall
  attempt : PlatformUserSignupAttempt
  clerkUserId : String

structure UserRegistration.Of (calls : List VerifyCall) (db₀ : Database) (reg : UserRegistration) : Prop where
  call : calls[reg.index]? = some reg.call
  mem : reg.attempt ∈ db₀.platformUserSignupAttempts.rows
  id : reg.attempt.signupAttemptId = reg.call.signupAttemptId
  clerkUser : reg.attempt.clerkUserId = some reg.clerkUserId

/-- The committed rows are those at the beginning and all rows of each registration. -/
structure Registered (calls : List VerifyCall) (db₀ : Database) (regs : List UserRegistration)
    (db : Database) : Prop where
  of : ∀ reg ∈ regs, reg.Of calls db₀
  principals : db.securityPrincipals.rows =
    db₀.securityPrincipals.rows ++ regs.map fun reg => reg.call.principal reg.attempt
  users : db.users.rows = db₀.users.rows ++ regs.map fun reg => reg.call.user reg.attempt
  identities : db.externalIdentities.rows =
    db₀.externalIdentities.rows ++ regs.map fun reg => reg.call.identity reg.clerkUserId
  requests : db.platformUserOnboardingRequests.rows = db₀.platformUserOnboardingRequests.rows ++
    regs.map fun reg => reg.call.request reg.attempt reg.clerkUserId
  events : db.securityEvents.rows = db₀.securityEvents.rows ++ regs.map fun reg => reg.call.event
  applicants : db.applicants = db₀.applicants
  completed : ∀ r ∈ db.platformUserSignupAttempts.rows, ∀ reg ∈ regs,
    r.signupAttemptId = reg.attempt.signupAttemptId → r = reg.attempt.completed reg.call.now
  others : ∀ r ∈ db.platformUserSignupAttempts.rows,
    (∀ reg ∈ regs, reg.attempt.signupAttemptId ≠ r.signupAttemptId) →
      r ∈ db₀.platformUserSignupAttempts.rows ∨ ∃ a ∈ db₀.platformUserSignupAttempts.rows,
        r = a.closed .expired ∧ ∃ c ∈ calls, c.signupAttemptId = a.signupAttemptId ∧ c.sawExpired a

section Registered

variable {calls : List VerifyCall} {db₀ db : Database} {regs : List UserRegistration} {c : VerifyCall}
  {g : TxProgress} {a : PlatformUserSignupAttempt} {clerkUserId : String} {i : Nat}

theorem registered_nil (calls : List VerifyCall) (db : Database) : Registered calls db [] db where
  of _ h := nomatch h
  principals := by simp
  users := by simp
  identities := by simp
  requests := by simp
  events := by simp
  applicants := rfl
  completed _ _ _ h := nomatch h
  others _ hr _ := Or.inl hr

theorem closed_of_completed {reg : UserRegistration} (h : reg.Of calls db₀) :
    (reg.attempt.completed reg.call.now).closed .expired = reg.attempt.completed reg.call.now := by
  apply PlatformUserSignupAttempt.closed_of_closed
  rw [PlatformUserSignupAttempt.status_completed h.clerkUser]
  nofun

/-- A commit that marks an attempt as expired. -/
theorem Registered.expire (h : Registered calls db₀ regs db) (hc : c ∈ calls)
    {attempt : PlatformUserSignupAttempt} (hg : Expires c attempt g)
    (hb : a ∈ db₀.platformUserSignupAttempts.rows) (hdetails : a.details = attempt.details) :
    Registered calls db₀ regs (replayAll g.pending db) := by
  obtain ⟨hbid, hexpired⟩ := hg.of_details hdetails
  obtain ⟨ids, hpending, hids⟩ := hg.pending
  rw [hpending]
  refine ⟨h.of, h.principals, h.users, h.identities, h.requests, h.events, ?_, ?_, ?_⟩
  · exact (Database.applicants_closeSignupAttempts db ids .expired).trans h.applicants
  · intro r hr reg hreg hid
    obtain ⟨o, ho, ⟨_, rfl⟩ | ⟨_, rfl⟩⟩ := Database.mem_closeSignupAttempts.mp hr
    · rw [PlatformUserSignupAttempt.id_closed] at hid
      rw [h.completed o ho reg hreg hid, closed_of_completed (h.of reg hreg)]
    · exact h.completed r ho reg hreg hid
  · intro r hr hnone
    obtain ⟨o, ho, ⟨⟨hmem, hlive⟩, rfl⟩ | ⟨_, rfl⟩⟩ := Database.mem_closeSignupAttempts.mp hr
    · rw [PlatformUserSignupAttempt.id_closed] at hnone
      rcases h.others o ho hnone with hbefore | ⟨closed, _, rfl, _⟩
      · have hcid := hids _ hmem
        have hob : o = a := Database.attempt_unique hbefore hb (hcid.trans hbid.symm)
        right
        exact ⟨o, hbefore, rfl, c, hc, hcid.symm, hob ▸ hexpired⟩
      · exact absurd hlive (PlatformUserSignupAttempt.status_closed_expired closed)
    · exact h.others r ho hnone

theorem rows_insert_of_free {ρ : Type} [Row ρ] {T : Rows ρ} {row : ρ}
    (h : ∀ k ∈ Row.entries row, k ∉ T.taken) : (T.insert row).rows = T.rows ++ [row] := by
  obtain ⟨u, hu⟩ := Option.isSome_iff_exists.mp (Table.isSome_insert?_iff_taken.mpr h)
  exact Table.rows_insert_of_some hu

/-- A commit that registers a user. -/
theorem Registered.register (h : Registered calls db₀ regs db) (hc : calls[i]? = some c)
    {attempt : PlatformUserSignupAttempt} (hg : Registers c attempt clerkUserId g)
    (hmem : a ∈ db₀.platformUserSignupAttempts.rows) (hdetails : a.details = attempt.details)
    (hclaims : ∀ w ∈ g.pending, reservations.claim w db) :
    Registered calls db₀ (regs ++ [⟨i, c, a, clerkUserId⟩]) (replayAll g.pending db) := by
  have hid : a.signupAttemptId = c.signupAttemptId := (congrArg (·.signupAttemptId) hdetails).trans hg.id
  have hclerkUser : a.clerkUserId = some clerkUserId := (congrArg (·.clerkUserId) hdetails).trans hg.clerkUser
  rw [hg.pending, ← c.registration_of_details hdetails] at hclaims ⊢
  simp only [VerifyCall.registration, List.forall_mem_cons] at hclaims
  obtain ⟨hprincipal, huser, hidentity, hrequest, _, hevent, _⟩ := hclaims
  have hfree : ∀ {relation : Relation} {entries : List IndexEntry},
      (∀ e ∈ entries.map (relation, ·), e.2 ∉ db.taken e.1) → ∀ k ∈ entries, k ∉ db.taken relation :=
    fun hclaim k hk => hclaim _ (List.mem_map_of_mem hk)
  -- The Clerk user of an earlier registration is taken, so the attempt is another one.
  have hother : ∀ reg ∈ regs, reg.attempt.signupAttemptId ≠ c.signupAttemptId := by
    intro reg hreg hregid
    have hof := h.of reg hreg
    have hsame : reg.attempt = a := Database.attempt_unique hof.mem hmem (hregid.trans hid.symm)
    have hclerk : reg.clerkUserId = clerkUserId := by
      have := hof.clerkUser.symm.trans ((congrArg (·.clerkUserId) hsame).trans hclerkUser)
      exact Option.some.inj this
    have hrow : reg.call.identity reg.clerkUserId ∈ db.externalIdentities.rows := by
      rw [h.identities]
      exact List.mem_append_right _ (List.mem_map_of_mem hreg)
    have htaken : (Index.natural, [IdentityProvider.clerk.text, clerkUserId]) ∈
        db.externalIdentities.taken :=
      Table.mem_taken.mpr ⟨_, hrow, by simp [Row.entries, VerifyCall.identity, hclerk]⟩
    exact hfree hidentity _ (by simp [Row.entries, VerifyCall.identity]) htaken
  constructor
  · intro reg hreg
    rcases List.mem_append.mp hreg with hreg | hreg
    · exact h.of reg hreg
    · rw [List.mem_singleton.mp hreg]
      exact ⟨hc, hmem, hid, hclerkUser⟩
  · rw [List.map_append, ← List.append_assoc, ← h.principals]
    exact rows_insert_of_free (hfree hprincipal)
  · rw [List.map_append, ← List.append_assoc, ← h.users]
    exact rows_insert_of_free (hfree huser)
  · rw [List.map_append, ← List.append_assoc, ← h.identities]
    exact rows_insert_of_free (hfree hidentity)
  · rw [List.map_append, ← List.append_assoc, ← h.requests]
    exact rows_insert_of_free (hfree hrequest)
  · rw [List.map_append, ← List.append_assoc, ← h.events]
    exact rows_insert_of_free (hfree hevent)
  · exact (Database.applicants_completeSignupAttempt db c.signupAttemptId c.now).trans h.applicants
  · intro r hr reg hreg hregid
    obtain ⟨o, ho, ⟨hoid, rfl⟩ | ⟨hoid, rfl⟩⟩ := Database.mem_completeSignupAttempt.mp hr
    · rw [PlatformUserSignupAttempt.id_completed] at hregid
      rcases List.mem_append.mp hreg with hreg | hreg
      · exact absurd (hregid.symm.trans hoid) (hother reg hreg)
      · rw [List.mem_singleton.mp hreg]
        obtain ⟨b, hb, hbo⟩ := Database.applicant_of_mem h.applicants ho
        have hbid : b.signupAttemptId = o.signupAttemptId := congrArg (·.signupAttemptId) hbo
        have hba : b = a := Database.attempt_unique hb hmem (hbid.trans (hoid.trans hid.symm))
        exact PlatformUserSignupAttempt.completed_eq (hba ▸ hbo.symm) hclerkUser c.now
    · rcases List.mem_append.mp hreg with hreg | hreg
      · exact h.completed r ho reg hreg hregid
      · rw [List.mem_singleton.mp hreg] at hregid
        exact absurd (hregid.trans hid) hoid
  · intro r hr hnone
    have hnew := hnone ⟨i, c, a, clerkUserId⟩ (List.mem_append_right _ List.mem_cons_self)
    obtain ⟨o, ho, ⟨hoid, rfl⟩ | ⟨_, rfl⟩⟩ := Database.mem_completeSignupAttempt.mp hr
    · rw [PlatformUserSignupAttempt.id_completed] at hnew
      exact absurd (hid.trans hoid.symm) hnew
    · exact h.others r ho fun reg hreg => hnone reg (List.mem_append_left _ hreg)

end Registered

/-! ## Overlapping calls -/

def verifications (calls : List VerifyCall) (db : Database) : TxState VerifyResult :=
  State.initial db (calls.map verifyEmailCode)

def completionTerms (calls : List VerifyCall) (i : Nat) :
    Terms Database Write RowLock StatementName Failure VerifyResult where
  rely _ _ _ := True
  always n g := n = 1 → Completes g → EndsWithEvent g
  commits n g _ := n = 0 ∧ ∃ c, calls[i]? = some c ∧ c.Commits g
  returns r n g := r.isOk = true ↔ n = 1 ∧ Completes g

structure Accounted (regs : List UserRegistration) (order : List Nat) (s : TxState VerifyResult) : Prop where
  committed : ∀ i (c : Call Database Write RowLock StatementName Failure VerifyResult),
    s.calls[i]? = some c → ((∃ reg ∈ regs, reg.index = i) ↔ order.count i = 1 ∧ Completes c.progress)
  verified : ∀ reg ∈ regs, ∃ c : Call Database Write RowLock StatementName Failure VerifyResult,
    s.calls[reg.index]? = some c ∧ EmailVerified reg.clerkUserId reg.attempt.email c.progress

structure Completing (calls : List VerifyCall) (db₀ : Database) (order : List Nat)
    (s : TxState VerifyResult) : Prop where
  reserved : s.Protected reservations RowLock.conflicts
  saw : s.Saw fun db => db.applicants = db₀.applicants
  registered : ∃ regs, Registered calls db₀ regs s.committed ∧ Accounted regs order s

section Run

variable {calls : List VerifyCall} {db₀ : Database} {order : List Nat} {s t : TxState VerifyResult}
  {i : Nat} {regs : List UserRegistration}

theorem verifications_keep (calls : List VerifyCall) (db : Database) :
    (verifications calls db).Keeps (completionTerms calls) [] := by
  apply State.keeps_initial
  intro i p hp
  rw [List.getElem?_map] at hp
  obtain ⟨c, hc, rfl⟩ := Option.map_eq_some_iff.mp hp
  refine (verifyEmailCode_keeps c).weaken (fun _ _ _ h => h) (fun _ _ h => h) ?_ fun _ _ _ _ h => h
  exact fun n g db' _ _ h => ⟨h.1, c, hc, h.2⟩

/-- A row that a call has found was there from the beginning, but for its progress. -/
theorem Completing.loaded (h : Completing calls db₀ order s)
    {c : Call Database Write RowLock StatementName Failure VerifyResult} (hc : s.calls[i]? = some c)
    {attempt : PlatformUserSignupAttempt} (hloaded : Loaded attempt c.progress) :
    ∃ a ∈ db₀.platformUserSignupAttempts.rows, a.details = attempt.details := by
  obtain ⟨e, he, hmem⟩ := hloaded
  exact Database.applicant_of_mem (h.saw.then_ i c hc e he) hmem

/-- A statement of a call changes neither side of the account. -/
theorem Accounted.advance (h : Accounted regs order s)
    {c c' : Call Database Write RowLock StatementName Failure VerifyResult} (hc : s.calls[i]? = some c)
    (hcalls : t.calls = s.calls.set i c')
    (hhistory : c'.progress.history = c.progress.history ∨
      ∃ e, e.committed = s.committed ∧ c'.progress.history = e :: c.progress.history)
    (halways : order.count i = 1 → Completes c'.progress → EndsWithEvent c'.progress) :
    Accounted regs order t := by
  have hgrows : ∀ e ∈ c.progress.history, e ∈ c'.progress.history := by
    intro e he
    rcases hhistory with hsame | ⟨e', _, hnew⟩
    · rwa [hsame]
    · rw [hnew]
      exact List.mem_cons_of_mem _ he
  constructor
  · intro j d hd
    rcases State.call_cases hcalls hd with ⟨rfl, rfl⟩ | ⟨_, hd⟩
    · rw [h.committed j c hc]
      apply and_congr_right
      intro hcount
      constructor
      · rintro ⟨e, he, hl⟩
        exact ⟨e, hgrows e he, hl⟩
      · intro hcompletes
        rcases hhistory with hsame | ⟨e', _, hnew⟩
        · rwa [Completes, hsame] at hcompletes
        · -- The new statement would have to be the last one of the registration.
          obtain ⟨e, he, hl⟩ := id hcompletes
          rw [hnew] at he
          rcases List.mem_cons.mp he with rfl | he
          · have hlast := halways hcount hcompletes e (by rw [hnew]; rfl)
            rw [hl] at hlast
            cases hlast
          · exact ⟨e, he, hl⟩
    · exact h.committed j d hd
  · intro reg hreg
    obtain ⟨d, hd, hverified⟩ := h.verified reg hreg
    rcases State.call_after hcalls hd with ⟨hri, hnow⟩ | ⟨_, hnow⟩
    · rw [hri, hc] at hd
      cases hd
      obtain ⟨e, he, hl⟩ := hverified
      exact ⟨c', hnow, e, hgrows e he, hl⟩
    · exact ⟨d, hnow, hverified⟩

/-- The commit of a call settles whether it has registered a user. -/
theorem Accounted.commit (h : Accounted regs order s)
    {c c' : Call Database Write RowLock StatementName Failure VerifyResult} (hc : s.calls[i]? = some c)
    (hcalls : t.calls = s.calls.set i c') (hhistory : c'.progress.history = c.progress.history)
    (hzero : order.count i = 0) {new : List UserRegistration} (hnew : ∀ reg ∈ new, reg.index = i ∧
      EmailVerified reg.clerkUserId reg.attempt.email c.progress)
    (hcompletes : (∃ reg, reg ∈ new) ↔ Completes c.progress) : Accounted (regs ++ new) (order ++ [i]) t := by
  have hnone : ¬ ∃ reg ∈ regs, reg.index = i := by
    rw [h.committed i c hc]
    rintro ⟨hone, _⟩
    omega
  constructor
  · intro j d hd
    rcases State.call_cases hcalls hd with ⟨rfl, rfl⟩ | ⟨hji, hd⟩
    · have hcount : (order ++ [j]).count j = 1 := by simp [hzero]
      have hsame : Completes d.progress ↔ Completes c.progress := by simp only [Completes, hhistory]
      rw [hsame, ← hcompletes]
      constructor
      · rintro ⟨reg, hreg, hindex⟩
        rcases List.mem_append.mp hreg with hreg | hreg
        · exact absurd ⟨reg, hreg, hindex⟩ hnone
        · exact ⟨hcount, reg, hreg⟩
      · rintro ⟨_, reg, hreg⟩
        exact ⟨reg, List.mem_append_right _ hreg, (hnew reg hreg).1⟩
    · have hcount : (order ++ [i]).count j = order.count j := by simp [Ne.symm hji]
      rw [hcount, ← h.committed j d hd]
      constructor
      · rintro ⟨reg, hreg, hindex⟩
        rcases List.mem_append.mp hreg with hreg | hreg
        · exact ⟨reg, hreg, hindex⟩
        · exact absurd (hindex.symm.trans (hnew reg hreg).1) hji
      · rintro ⟨reg, hreg, hindex⟩
        exact ⟨reg, List.mem_append_left _ hreg, hindex⟩
  · intro reg hreg
    rcases List.mem_append.mp hreg with hreg | hreg
    · obtain ⟨d, hd, hverified⟩ := h.verified reg hreg
      rcases State.call_after hcalls hd with ⟨hri, _⟩ | ⟨_, hnow⟩
      · exact absurd ⟨reg, hreg, hri⟩ hnone
      · exact ⟨d, hnow, hverified⟩
    · obtain ⟨hindex, hverified⟩ := hnew reg hreg
      rcases State.call_after hcalls hc with ⟨_, hnow⟩ | ⟨hii, _⟩
      · refine ⟨c', hindex ▸ hnow, ?_⟩
        simpa only [EmailVerified, hhistory] using hverified
      · exact absurd rfl hii

theorem Completing.step (hkeeps : s.Keeps (completionTerms calls) order)
    (h : Completing calls db₀ order s) (hstep : s.step RowLock.conflicts i = some t) :
    Completing calls db₀ (s.orderAfter i order) t := by
  obtain ⟨regs, hregs, haccount⟩ := h.registered
  have hrely : ∀ c : Call Database Write RowLock StatementName Failure VerifyResult,
      s.calls[i]? = some c → c.finished = false →
      (completionTerms calls i).rely (order.count i) c.progress s.committed := fun _ _ _ => trivial
  suffices hregistered : ∃ regs, Registered calls db₀ regs t.committed ∧
      Accounted regs (s.orderAfter i order) t by
    obtain ⟨regs', hregs', _⟩ := id hregistered
    exact ⟨h.reserved.step RowLock.conflicts_comm reservations_stable hstep,
      h.saw.step hregs'.applicants hstep, hregistered⟩
  obtain ⟨c, c', hc, hadvance, hcalls⟩ := State.step_cases hstep
  rcases hkeeps.committed hrely hstep with ⟨hno, hdb⟩ | ⟨d, hd, hyes, hcommit, _, hterms, hdb⟩
  · have hlen : i < s.calls.length := (List.getElem?_eq_some_iff.mp hc).1
    have hnow : t.calls[i]? = some c' := by rw [hcalls, List.getElem?_set_self hlen]
    have halways := (hkeeps.step hrely hstep i c' hnow).always
    have horder : s.orderAfter i order = order := by simp [State.orderAfter, hno]
    rw [horder] at halways ⊢
    rw [hdb]
    exact ⟨regs, hregs, haccount.advance hc hcalls (Call.history_of_advance hadvance) halways⟩
  · rw [hc] at hd
    cases hd
    obtain ⟨hzero, call, hcall, hcommits⟩ := hterms
    have hhistory : c'.progress.history = c.progress.history := by
      rw [Call.ended_of_committing hcommit hadvance]
      rfl
    have horder : s.orderAfter i order = order ++ [i] := by simp [State.orderAfter, hyes]
    rw [horder, hdb]
    rcases hcommits with ⟨⟨attempt, hexpires⟩, hincomplete⟩ | ⟨⟨attempt, clerkUserId, hregisters⟩, hcompletes⟩
    · refine ⟨regs ++ [], ?_, haccount.commit hc hcalls hhistory hzero ?_ ?_⟩
      · rw [List.append_nil]
        obtain ⟨a, hmem, hdetails⟩ := h.loaded hc hexpires.loaded
        exact hregs.expire (List.mem_of_getElem? hcall) hexpires hmem hdetails
      · exact fun _ hreg => absurd hreg List.not_mem_nil
      · constructor
        · rintro ⟨_, hreg⟩
          exact absurd hreg List.not_mem_nil
        · exact fun hcompletes => absurd hcompletes hincomplete
    · obtain ⟨a, hmem, hdetails⟩ := h.loaded hc hregisters.loaded
      refine ⟨_, hregs.register hcall hregisters hmem hdetails ?_, haccount.commit hc hcalls hhistory hzero ?_ ?_⟩
      · exact (h.reserved.claims i c hc).true_claims (Call.unfinished_of_committing hcommit)
      · intro reg hreg
        rw [List.mem_singleton.mp hreg]
        have hemail : a.email = attempt.email := congrArg (·.email) hdetails
        exact ⟨rfl, hemail ▸ hregisters.verified⟩
      · exact ⟨fun _ => hcompletes, fun _ => ⟨_, List.mem_cons_self⟩⟩

theorem completing_initial (calls : List VerifyCall) (db : Database) :
    Completing calls db [] (verifications calls db) where
  reserved := by
    apply State.protected_initial
    intro p hp
    obtain ⟨c, _, rfl⟩ := List.mem_map.mp hp
    exact verifyEmailCode_follows c
  saw := State.saw_initial (P := fun d : Database => d.applicants = db.applicants) rfl _
  registered := by
    refine ⟨[], registered_nil calls db, ?_, fun _ hreg => absurd hreg List.not_mem_nil⟩
    intro i c _
    simp

end Run

end VerigenceSecurity
