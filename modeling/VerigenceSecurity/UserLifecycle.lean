import VerigenceSecurity.TenantRoles

/-! # The status of global users

`GlobalUserOnboardingService.set_user_status`. A deactivation revokes the user's
sessions in the same transaction; the identity provider is told before an
activation and after a deactivation.
-/

namespace VerigenceSecurity
set_option autoImplicit false

open Transaction Program

structure ClerkAnswers where
  unban : Except Failure Unit
  ban : Except Failure Unit

def clerkCall (call : ClerkCall) (answer : Except Failure Unit) : Tx Unit :=
  query (.clerk call (if answer.isOk then .done else .failed)) fun _ => answer

def UserStatus.text : UserStatus → String
  | .pending => "PENDING"
  | .invited => "INVITED"
  | .active => "ACTIVE"
  | .suspended => "SUSPENDED"
  | .disabled => "DISABLED"
  | .exited => "EXITED"

def targetStatus? : String → Option UserStatus
  | "ACTIVE" => some .active
  | "SUSPENDED" => some .suspended
  | "DISABLED" => some .disabled
  | "EXITED" => some .exited
  | _ => none

structure UserLifecycleRow where
  user : User
  clerkUserId : Option String
  onboardingRequestId : Option Uuid
  onboardingStatus : Option OnboardingStatus
  deriving DecidableEq, Repr

namespace Database

def userLifecycleRows (db : Database) (userId : Uuid) : List UserLifecycleRow :=
  (db.users.rows.filter fun u => decide (u.userId = userId)).flatMap fun u =>
    let clerk := (db.externalIdentities.rows.filter fun e => decide (e.userId = u.userId ∧
      e.provider = .clerk ∧ e.status = .active)).map fun e => some e.providerSubject
    let request := db.platformUserOnboardingRequests.rows.find? fun r => decide (r.userId = u.userId)
    (if clerk = [] then [none] else clerk).map fun clerkUserId =>
      ⟨u, clerkUserId, request.map (·.onboardingRequestId), request.map (·.status)⟩

end Database

def userLifecycle (userId : Uuid) : Tx (Option UserLifecycleRow) :=
  query .userLifecycle fun db => .ok (db.userLifecycleRows userId).head?

def userById (userId : Uuid) : Tx UserLifecycleRow :=
  query .userById fun db =>
    match (db.userLifecycleRows userId).head? with
    | none => .error (.lookupError "USER not found")
    | some row => .ok row

def updateUserStatus (userId : Uuid) (status : UserStatus) (now : Instant) : Tx Unit :=
  execute .updateUserStatus fun _ => .ok {
    value := ()
    edits := [.updateUserStatus userId status now]
    locks := [rowLock .users [userId] .noKeyUpdate] }

def Database.activeSessionsOf (db : Database) (userId : Uuid) : List AccessSession :=
  db.accessSessions.rows.filter fun r =>
    decide (r.principalId = userId ∧ r.actorType = .user ∧ r.status = .active)

def revokeUserSessions (userId : Uuid) (now : Instant) : Tx Unit := do
  let _ ← updateWhere .revokeUserSessions .accessSessions .noKeyUpdate
    (fun db => (db.activeSessionsOf userId).map (·.accessSessionId))
    (.revokeUserSessions · userId now)
  pure ()

def approveOnboardingRequest (c : AdminCall) (userId : Uuid) (reason : Option String) : Tx Unit := do
  let _ ← updateWhere .approveOnboardingRequest .platformUserOnboardingRequests .noKeyUpdate
    (fun db => (db.platformUserOnboardingRequests.rows.filter fun r =>
      decide (r.userId = userId ∧ r.status = .pendingAdminApproval)).map (·.onboardingRequestId))
    (.approveOnboardingRequest · userId c.actorUserId c.now reason)
  pure ()

def followStatus (c : AdminCall) (row : UserLifecycleRow) (target : UserStatus)
    (reason : Option String) : Tx Unit :=
  if target ≠ .active then revokeUserSessions row.user.userId c.now
  else if row.onboardingRequestId.isSome then approveOnboardingRequest c row.user.userId reason
  else pure ()

def banDeactivated (clerk : ClerkAnswers) (row : UserLifecycleRow) (target : UserStatus) : Tx Unit :=
  match row.clerkUserId with
  | some clerkUserId => if target ≠ .active then clerkCall (.banUser clerkUserId) clerk.ban else pure ()
  | none => pure ()

def statusTransaction (c : AdminCall) (row : UserLifecycleRow) (target : UserStatus)
    (reason : Option String) : Tx Unit :=
  attempt rollbackAndRaise (do
    updateUserStatus row.user.userId target c.now
    followStatus c row target reason
    platformAudit c "security.user.status.change" "USER" row.user.userId
    commitNow)

def changeUserStatus (clerk : ClerkAnswers) (c : AdminCall) (row : UserLifecycleRow)
    (target : UserStatus) (reason : Option String) : Tx UserLifecycleRow := do
  statusTransaction c row target reason
  banDeactivated clerk row target
  userById row.user.userId

/-- `set_user_status`. Python's `str.upper` is the parameter `upper`. -/
def setUserStatus (upper : String → String) (clerk : ClerkAnswers) (c : AdminCall) (userId : Uuid)
    (newStatus : String) (reason : Option String) : Tx UserLifecycleRow :=
  match targetStatus? (upper newStatus) with
  | none => raise (.valueError "Unsupported USER status")
  | some target => do
    match ← userLifecycle userId with
    | none => raise (.lookupError "USER not found")
    | some row =>
      let current := row.user.status
      if target = .active then
        if current ∉ [.pending, .invited, .suspended, .disabled] then
          raise (.valueError ("USER cannot transition from " ++ current.text ++ " to ACTIVE"))
        else
          match row.clerkUserId with
          | none => raise (.valueError "USER has no active Clerk identity")
          | some clerkUserId =>
            clerkCall (.unbanUser clerkUserId) clerk.unban
            changeUserStatus clerk c row target reason
      else if current = .exited then raise (.valueError "EXITED USER is terminal")
      else if current = target then userById userId
      else changeUserStatus clerk c row target reason

end VerigenceSecurity
