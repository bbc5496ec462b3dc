import VerigenceSecurity.PlatformBootstrap
import VerigenceSecurity.UserLifecycle

/-! # Phase 1 self-onboarding

`Phase1SelfOnboardingService`: an applicant starts a signup attempt, has the e-mail
address verified by Clerk and is registered as a pending user. Clerk is called between
the transactions, never inside one.
-/

namespace VerigenceSecurity
set_option autoImplicit false

open Transaction Program Relational

/-! ## Cleaning the input -/

/-- Python's `str.lower` and `str.isdigit`, which know all of Unicode. -/
structure TextRules where
  lower : String → String
  isDigit : Char → Bool

/-- `str.split()`. -/
def words (value : String) : List String :=
  ((value.toList.splitOnP isSpace).filter fun word => !word.isEmpty).map String.ofList

@[irreducible] def cleanName (value label : String) : Except Failure String :=
  let clean := " ".intercalate (words (strip value))
  if clean = "" then .error (.valueError (label ++ " is required")) else .ok clean

@[irreducible] def cleanEmail (rules : TextRules) (value : String) : Except Failure String :=
  let clean := rules.lower (strip value)
  let chars := clean.toList
  if clean = "" ∨ '@' ∉ chars ∨ chars.head? = some '@' ∨ chars.getLast? = some '@' then
    .error (.valueError "A valid email address is required")
  else if chars.any isSpace then .error (.valueError "A valid email address is required")
  else .ok clean

@[irreducible] def indianMobile (rules : TextRules) (value : String) : Except Failure String :=
  let found := value.toList.filter rules.isDigit
  let digits :=
    if found.length = 12 ∧ ['9', '1'].isPrefixOf found = true then found.drop 2
    else if found.length = 11 ∧ ['0'].isPrefixOf found = true then found.drop 1
    else found
  if digits.length ≠ 10 ∨ digits.head?.all (fun c => decide (c ∉ ['6', '7', '8', '9'])) then
    .error (.valueError "A valid 10-digit Indian mobile number is required")
  else .ok ("+91" ++ String.ofList digits)

/-! ## Attempts -/

def attemptTtl : Int := minutes 30

namespace Database

def signupAttempt (db : Database) (signupAttemptId : Uuid) : Option PlatformUserSignupAttempt :=
  db.platformUserSignupAttempts.rows.find? fun r => decide (r.signupAttemptId = signupAttemptId)

def staleAttempts (db : Database) (email mobile : String) (now : Instant) :
    List PlatformUserSignupAttempt :=
  db.platformUserSignupAttempts.rows.filter fun r =>
    decide (r.status = .authorizedForClerk ∧ r.expiresAt ≤ now ∧
      (lower r.email = email ∨ r.mobile = mobile))

def pendingAttempt (db : Database) (signupAttemptId : Uuid) : List Uuid :=
  (db.platformUserSignupAttempts.rows.filter fun r =>
    decide (r.signupAttemptId = signupAttemptId ∧ r.status = .authorizedForClerk)).map
      (·.signupAttemptId)

def liveAttempt (db : Database) (email mobile : String) : Bool :=
  db.platformUserSignupAttempts.rows.any fun r =>
    decide (r.status = .authorizedForClerk ∧ (lower r.email = email ∨ r.mobile = mobile))

def emailRegistered (db : Database) (email : String) : Bool :=
  db.users.rows.any fun r => decide (r.primaryEmail.map lower = some email)

def mobileRegistered (db : Database) (digits : String) : Bool :=
  db.users.rows.any fun r => decide (r.primaryMobile.map mobileDigits = some digits)

def clerkIdentityRegistered (db : Database) (clerkUserId : String) : Bool :=
  db.externalIdentities.rows.any fun r =>
    decide (r.provider = .clerk ∧ r.providerSubject = clerkUserId)

end Database

/-- `UPDATE ... SET status WHERE signup_attempt_id AND status='AUTHORIZED_FOR_CLERK'`. -/
def closeAttempt (name : StatementName) (signupAttemptId : Uuid) (status : SignupStatus) : Tx Unit := do
  let _ ← updateWhere name .platformUserSignupAttempts .noKeyUpdate
    (·.pendingAttempt signupAttemptId) (.closeSignupAttempts · status)
  pure ()

def requireIdentityNotRegistered (email mobile : String) : Tx Unit := do
  let emailRow ← query .emailRegistered fun db => .ok (db.emailRegistered email)
  if emailRow then raise (.valueError "Email address is already registered")
  else
    let digits := removePrefix mobile "+"
    let mobileRow ← query .mobileRegistered fun db => .ok (db.mobileRegistered digits)
    if mobileRow then raise (.valueError "Mobile number is already registered") else pure ()

def requireNoLiveAttempt (email mobile : String) : Tx Unit := do
  let row ← query .liveAttempt fun db => .ok (db.liveAttempt email mobile)
  if row then
    raise (.valueError "Email or mobile number already has an active signup attempt")
  else pure ()

def requireClerkIdentityNotRegistered (clerkUserId : String) : Tx Unit := do
  let row ← query .clerkIdentityRegistered fun db => .ok (db.clerkIdentityRegistered clerkUserId)
  if row then raise (.valueError "Clerk identity is already registered") else pure ()

@[irreducible] def requiredClerkUserId (attempt : PlatformUserSignupAttempt) : Except Failure String :=
  match attempt.clerkUserId with
  | some value =>
    if startsWith value "user_" then .ok value
    else .error (.valueError "Signup identity has not been prepared")
  | none => .error (.valueError "Signup identity has not been prepared")

@[irreducible] def requiredClerkEmailId (attempt : PlatformUserSignupAttempt) : Except Failure String :=
  match attempt.clerkEmailAddressId with
  | some value =>
    if value = "" then .error (.valueError "Signup email verification has not been prepared")
    else .ok value
  | none => .error (.valueError "Signup email verification has not been prepared")

def loadAttempt (signupAttemptId : Uuid) : Tx PlatformUserSignupAttempt :=
  query .loadAttempt fun db =>
    match db.signupAttempt signupAttemptId with
    | none => .error (.lookupError "Signup attempt was not found")
    | some row => .ok row

/-- `_load_attempt(..., for_update=True)`. -/
def loadAttemptForUpdate (signupAttemptId : Uuid) : Tx PlatformUserSignupAttempt :=
  execute .loadAttemptForUpdate fun db =>
    match db.signupAttempt signupAttemptId with
    | none => .error (.lookupError "Signup attempt was not found")
    | some row => .ok {
        value := row
        locks := [rowLock .platformUserSignupAttempts [signupAttemptId] .update] }

/-- An expired attempt is marked, in a transaction that is committed before the error. -/
def requireCompletable (attempt : PlatformUserSignupAttempt) (now : Instant) : Tx Unit :=
  if attempt.status ≠ .authorizedForClerk then
    raise (.valueError "Signup attempt is no longer available for completion")
  else if attempt.expiresAt ≤ now then do
    closeAttempt .expireSignupAttempt attempt.signupAttemptId .expired
    commitNow
    raise (.valueError "Signup attempt has expired")
  else pure ()

/-! ## `start` -/

structure StartCall where
  firstName : String
  lastName : String
  email : String
  mobile : String
  password : String
  onboardingKey : String
  sourceIp : String
  correlationId : String
  now : Instant
  attemptId : Uuid
  created : Except Failure (String × String)
  deleted : String → Except Failure Unit

structure SignupAnswer where
  signupAttemptId : Uuid
  status : String
  expiresAt : Instant
  deriving DecidableEq, Repr

def requireValidOnboardingKey (verifyHash : String → String → Bool) (supplied : String) : Tx Unit := do
  let row ← query .onboardingKey fun db =>
    .ok (db.platformUserOnboardingSettings.rows.find? fun r => decide (r.singletonId = 1))
  match row with
  | none => raise (securityError .permissionDenied)
  | some row =>
    if row.status ≠ .active then raise (securityError .permissionDenied)
    else if verifyHash row.keyHash (strip supplied) = false then
      raise (securityError .permissionDenied)
    else pure ()

/-- A user that Clerk does not know any more is as good as deleted. -/
def ignoreNotFound : Failure → Tx Unit
  | .clerk _ (some 404) => pure ()
  | e => raise e

def deleteClerkUser (c : StartCall) (clerkUserId : String) : Tx Unit :=
  attempt ignoreNotFound (clerkCall (.deleteUser clerkUserId) (c.deleted clerkUserId))

def clerkUsers (rows : List PlatformUserSignupAttempt) : List String :=
  (rows.filterMap (·.clerkUserId)).filter fun id => decide (id ≠ "")

/-- What is deleted in Clerk are the users of the rows read first. -/
def expireStaleIdentityAttempts (c : StartCall) (email mobile : String) : Tx Unit := do
  let rows ← query .staleIdentityAttempts fun db => .ok (db.staleAttempts email mobile c.now)
  if rows.isEmpty then pure ()
  else
    let _ ← updateWhere .expireStaleIdentityAttempts .platformUserSignupAttempts .noKeyUpdate
      (fun db => (db.staleAttempts email mobile c.now).map (·.signupAttemptId))
      (.closeSignupAttempts · .expired)
    commitNow
    each (deleteClerkUser c) (clerkUsers rows)

theorem attemptTtl_pos (now : Instant) : now < now + attemptTtl :=
  lt_add_of_pos_right now (minutes_pos (by decide))

def attemptRow (c : StartCall) (firstName lastName email mobile : String) : PlatformUserSignupAttempt where
  signupAttemptId := c.attemptId
  firstName := firstName
  lastName := lastName
  email := email
  mobile := mobile
  status := .authorizedForClerk
  submittedSourceIp := c.sourceIp
  correlationId := c.correlationId
  createdAt := c.now
  expiresAt := c.now + attemptTtl
  clerkUserId := none
  clerkEmailAddressId := none
  completedAt := none
  lifetime := attemptTtl_pos c.now
  completion := Or.inr ⟨nofun, rfl⟩

@[irreducible] def PlatformUserSignupAttempt.fits (row : PlatformUserSignupAttempt) : Bool :=
  decide (row.firstName.length ≤ 120 ∧ row.lastName.length ≤ 120 ∧ row.email.length ≤ 320 ∧
    row.mobile.length ≤ 20)

def insertAttempt (row : PlatformUserSignupAttempt) : Tx Unit :=
  execute .insertSignupAttempt fun db =>
    if row.fits = false then .error .dataError
    else insertRow db.platformUserSignupAttempts row [] (.insertSignupAttempt row)

/-- `except IntegrityError`: the error of the client replaces it. -/
def integrityErrorAs {α : Type} (message : String) : Failure → Tx α
  | .integrityError _ => do
    rollbackNow
    raise (.valueError message)
  | e => raise e

def createPendingEmailUser (c : StartCall) (email : String) : Tx (String × String) :=
  let answer := match c.created with
    | .ok (clerkUserId, emailAddressId) => ClerkAnswer.created clerkUserId emailAddressId
    | .error _ => .failed
  query (.clerk (.createPendingEmailUser email) answer) fun _ => c.created

/-- The identifiers are unique, so the update can be refused. -/
def prepareSignupAttempt (c : StartCall) (clerkUserId emailAddressId : String) : Tx Unit := do
  let found ← query (.snapshot .prepareSignupAttempt) fun db => .ok (db.pendingAttempt c.attemptId)
  execute .prepareSignupAttempt fun db =>
    let ids := (db.pendingAttempt c.attemptId).filter fun id => decide (id ∈ found)
    if ids = [] then .ok { value := () }
    else if (db.platformUserSignupAttempts.modify?
        (fun r => decide (r.signupAttemptId = c.attemptId ∧ r.status = .authorizedForClerk))
        (PlatformUserSignupAttempt.prepared clerkUserId emailAddressId)).isNone then
      .error (.integrityError .unique)
    else .ok {
      value := ()
      edits := [.prepareSignupAttempt c.attemptId clerkUserId emailAddressId]
      locks := [rowLock .platformUserSignupAttempts [c.attemptId] .noKeyUpdate,
        ⟨.platformUserSignupAttempts, (.clerkUser, [clerkUserId]), .update⟩,
        ⟨.platformUserSignupAttempts, (.clerkEmail, [emailAddressId]), .update⟩] }

/-- The cleanup of `start`; what Clerk answers to the deletion is ignored. -/
def cancelAttempt {α : Type} (c : StartCall) (clerkUserId : Option String) (e : Failure) : Tx α := do
  rollbackNow
  closeAttempt .cancelSignupAttempt c.attemptId .cancelled
  commitNow
  match clerkUserId with
  | some id => attempt (fun _ => pure ()) (clerkCall (.deleteUser id) (c.deleted id))
  | none => pure ()
  raise e

def start (rules : TextRules) (verifyHash : String → String → Bool) (c : StartCall) :
    Tx SignupAnswer := do
  let firstName ← done (cleanName c.firstName "First name")
  let lastName ← done (cleanName c.lastName "Last name")
  let email ← done (cleanEmail rules c.email)
  let mobile ← done (indianMobile rules c.mobile)
  if c.password = "" then raise (.valueError "Password is required")
  else
    requireValidOnboardingKey verifyHash c.onboardingKey
    expireStaleIdentityAttempts c email mobile
    requireIdentityNotRegistered email mobile
    requireNoLiveAttempt email mobile
    attempt (integrityErrorAs "Email or mobile number already has an active signup attempt") (do
      insertAttempt (attemptRow c firstName lastName email mobile)
      commitNow)
    let (clerkUserId, emailAddressId) ← attempt (cancelAttempt c none) (createPendingEmailUser c email)
    attempt (cancelAttempt c (some clerkUserId)) (do
      prepareSignupAttempt c clerkUserId emailAddressId
      commitNow)
    pure ⟨c.attemptId, "EMAIL_VERIFICATION_REQUIRED", c.now + attemptTtl⟩

/-! ## `resend_email_code` -/

structure ResendCall where
  signupAttemptId : Uuid
  now : Instant
  prepared : Except Failure Unit

def resendEmailCode (c : ResendCall) : Tx SignupAnswer := do
  let attempt ← loadAttempt c.signupAttemptId
  requireCompletable attempt c.now
  let emailAddressId ← done (requiredClerkEmailId attempt)
  rollbackNow
  clerkCall (.prepareEmailVerification emailAddressId) c.prepared
  pure ⟨c.signupAttemptId, "EMAIL_VERIFICATION_REQUIRED", attempt.expiresAt⟩

/-! ## `verify_email_code` -/

/-- The clock is read before and after Clerk is asked. -/
structure VerifyCall where
  signupAttemptId : Uuid
  code : String
  sourceIp : String
  correlationId : String
  loadedAt : Instant
  now : Instant
  accepted : Except Failure Bool
  verified : Except Failure Bool
  userId : Uuid
  requestId : Uuid
  externalIdentityId : Uuid
  eventId : Uuid

structure VerifyResult where
  onboardingRequestId : Uuid
  status : String
  message : String
  deriving DecidableEq, Repr

def askClerk (call : ClerkCall) (answer : Except Failure Bool) : Tx Bool :=
  let reported := match answer with
    | .ok yes => ClerkAnswer.verified yes
    | .error _ => .failed
  query (.clerk call reported) fun _ => answer

def displayName (attempt : PlatformUserSignupAttempt) : String :=
  strip (attempt.firstName ++ " " ++ attempt.lastName)

namespace VerifyCall

def principal (c : VerifyCall) (attempt : PlatformUserSignupAttempt) : SecurityPrincipal :=
  ⟨c.userId, .user, attempt.email, .active⟩

def user (c : VerifyCall) (attempt : PlatformUserSignupAttempt) : User :=
  ⟨c.userId, displayName attempt, some attempt.firstName, some attempt.lastName, some attempt.email,
    some attempt.mobile, .pending, c.now, c.now⟩

def identity (c : VerifyCall) (clerkUserId : String) : ExternalIdentity :=
  ⟨c.externalIdentityId, c.userId, .clerk, clerkUserId, .active⟩

def request (c : VerifyCall) (attempt : PlatformUserSignupAttempt) (clerkUserId : String) :
    PlatformUserOnboardingRequest :=
  ⟨c.requestId, c.userId, attempt.email, some clerkUserId, .pendingAdminApproval, c.sourceIp, c.now,
    none, none, none, c.correlationId⟩

def event (c : VerifyCall) : SecurityEvent :=
  ⟨c.eventId, c.userId, .user, "GLOBAL_USER_EMAIL_VERIFIED_REGISTERED", "USER", c.userId,
    "PENDING_ADMIN_APPROVAL", "SECURITY_ADMIN_APPROVAL_REQUIRED", c.sourceIp, c.correlationId, c.now⟩

end VerifyCall

def insertOnboardingRequest (row : PlatformUserOnboardingRequest) : Tx Unit :=
  execute .insertOnboardingRequest fun db =>
    insertRow db.platformUserOnboardingRequests row [db.userReference row.userId]
      (.insertOnboardingRequest row)

/-- The status is not checked again: the row has been locked since it was. -/
def completeSignupAttempt (signupAttemptId : Uuid) (now : Instant) : Tx Unit :=
  execute .completeSignupAttempt fun db =>
    if (db.signupAttempt signupAttemptId).any (·.clerkUserId.isNone) then
      .error (.integrityError .check)
    else .ok {
      value := ()
      edits := [.completeSignupAttempt signupAttemptId now]
      locks := [rowLock .platformUserSignupAttempts [signupAttemptId] .noKeyUpdate] }

def securityEvent (row : SecurityEvent) : Tx Unit :=
  execute .securityEvent fun db =>
    insertRow db.securityEvents row [db.principalReference row.principalId] (.insertSecurityEvent row)

def register (c : VerifyCall) (attempt : PlatformUserSignupAttempt) (clerkUserId : String) : Tx Unit := do
  insertPrincipal (c.principal attempt)
  insertUser (c.user attempt)
  insertExternalIdentity (c.identity clerkUserId)
  insertOnboardingRequest (c.request attempt clerkUserId)
  completeSignupAttempt c.signupAttemptId c.now
  securityEvent c.event

def registrationFailed {α : Type} : Failure → Tx α
  | .integrityError _ => do
    rollbackNow
    raise (.valueError "Email, mobile, or Clerk identity is already registered")
  | e => do
    rollbackNow
    raise e

def completeVerified (c : VerifyCall) (attempt : PlatformUserSignupAttempt) (clerkUserId : String) :
    Tx VerifyResult := do
  let lockedAttempt ← loadAttemptForUpdate c.signupAttemptId
  requireCompletable lockedAttempt c.now
  let lockedClerkUserId ← done (requiredClerkUserId lockedAttempt)
  if lockedClerkUserId ≠ clerkUserId then
    raise (.valueError "Signup identity changed during verification")
  else
    requireIdentityNotRegistered attempt.email attempt.mobile
    requireClerkIdentityNotRegistered clerkUserId
    Program.attempt registrationFailed (do
      register c attempt clerkUserId
      commitNow)
    pure ⟨c.requestId, "PENDING_ADMIN_APPROVAL",
      "Registration successful. Pending administrator approval."⟩

def verifyEmailCode (c : VerifyCall) : Tx VerifyResult := do
  if isMissing c.code then raise (.valueError "Verification code is required")
  else
    let attempt ← loadAttempt c.signupAttemptId
    requireCompletable attempt c.loadedAt
    let clerkUserId ← done (requiredClerkUserId attempt)
    let emailAddressId ← done (requiredClerkEmailId attempt)
    rollbackNow
    let accepted ← askClerk (.attemptEmailVerification emailAddressId (strip c.code)) c.accepted
    let verified ← askClerk (.isEmailVerified clerkUserId attempt.email) c.verified
    if accepted = false ∧ verified = false then
      raise (.valueError "Invalid or expired email verification code")
    else if verified = false then
      raise (.valueError "Email verification did not complete for the signup address")
    else completeVerified c attempt clerkUserId

end VerigenceSecurity
