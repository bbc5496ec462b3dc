import VerigenceSecurity.Library.Evaluation
import VerigenceSecurity.MachineTokens
import VerigenceSecurity.SessionRefresh
import VerigenceSecurity.TokenRoundTrips
import VerigenceSecurity.UserLifecycle

/-! # Delegation after revocation

The exchange of a user's token reads the client, the tenant and the token, never the session or the
user that the token names. Once these are gone, only the other gates can refuse the exchange.
-/

namespace VerigenceSecurity
set_option autoImplicit false

open Transaction Relational Program

/-! ## Runs -/

structure SessionWorld where
  runtime : Runtime
  repo : RepositoryClass
  lower : String → String
  upper : String → String
  sha256Hex : String → String

abbrev SessionWorld.tokens (w : SessionWorld) : TokenService := w.runtime.tokens

def SessionWorld.machines (w : SessionWorld) : MachineRuntime := ⟨w.lower, w.sha256Hex, w.tokens⟩

inductive SessionCall
  | createOrReuse (newSessionId : Uuid) (draw : AccessDraw) (request : AccessRequest)
  | refresh (denialId : Uuid) (draw : AccessDraw) (request : RefreshRequest)
  | revoke (accessSessionId tenantId userId : Uuid)
  | setUserStatus (clerk : ClerkAnswers) (c : AdminCall) (userId : Uuid) (newStatus : String)
      (reason : Option String)
  | exchangeUserToken (draw : ExchangeDraw) (request : ExchangeRequest)

def SessionCall.after (w : SessionWorld) (db : Database) : SessionCall → Database
  | createOrReuse newSessionId draw request =>
    ((VerigenceSecurity.createOrReuse w.runtime w.repo newSessionId draw request).alone db).2
  | refresh denialId draw request =>
    ((VerigenceSecurity.refresh w.runtime w.repo denialId draw request).alone db).2
  | revoke accessSessionId tenantId userId =>
    ((VerigenceSecurity.revoke accessSessionId tenantId userId).alone db).2
  | setUserStatus clerk c userId newStatus reason =>
    ((VerigenceSecurity.setUserStatus w.upper clerk c userId newStatus reason).alone db).2
  | exchangeUserToken draw request =>
    ((VerigenceSecurity.exchangeUserToken w.machines draw request).alone db).2

def rowsAfter (w : SessionWorld) (db : Database) (calls : List SessionCall) : Database :=
  calls.foldl (SessionCall.after w) db

/-- The session that the claims name is revoked, or their user is not active. -/
def Database.SessionEnded (db : Database) (claims : AccessTokenClaims) : Prop :=
  (∃ row ∈ db.accessSessions.rows, row.accessSessionId = claims.accessSessionId ∧
    row.status = .revoked) ∨
  ∃ row ∈ db.users.rows, row.userId = claims.principalId ∧ row.status ≠ .active

def EndedBy (w : SessionWorld) (db : Database) (calls : List SessionCall)
    (claims : AccessTokenClaims) : Prop :=
  ∃ earlier, earlier <+: calls ∧ (rowsAfter w db earlier).SessionEnded claims

/-! ## The gates of an exchange -/

structure IssuedToUser (tokens : TokenService) (token : String) (claims : AccessTokenClaims) : Prop where
  user : claims.actorType = .user
  issued : ∃ draw, tokens.issue draw claims = .ok token

/-- What the exchange of the token has to meet. The empty permissions of a request do not count. -/
structure ExchangeGate (rt : MachineRuntime) (db : Database) (draw : ExchangeDraw)
    (request : ExchangeRequest) (claims : AccessTokenClaims) (credential : PrincipalCredential)
    (principal : SecurityPrincipal) : Prop where
  identifies : Identifies db request.clientId draw.now credential principal
  verifier : rt.lower (strip credential.secretHash) = rt.sha256Hex request.clientSecret
  accepted : ∃ payload, rt.tokens.verify draw.verifyNow request.subjectToken = .ok payload
  named : claims.principalId ≠ "" ∧ claims.tenantId ≠ "" ∧ claims.accessSessionId ≠ ""
  tenant : ∃ tenant ∈ db.tenants.rows, tenant.tenantId = claims.tenantId ∧ tenant.status = .active
  scope : db.InScope principal.principalId claims.tenantId draw.now
  requested : ∃ p ∈ request.requestedPermissions, p ≠ ""
  granted : ∀ p ∈ request.requestedPermissions, p ≠ "" →
    db.Granted principal.principalId claims.tenantId p ∧ p ∈ claims.permissions

section Gates

variable {rt : MachineRuntime} {db : Database} {draw : ExchangeDraw} {request : ExchangeRequest}
  {claims : AccessTokenClaims} {credential : PrincipalCredential} {principal : SecurityPrincipal}

theorem ExchangeGate.with_session (sessions : Rows AccessSession) (users : Rows User)
    (h : ExchangeGate rt db draw request claims credential principal) :
    ExchangeGate rt { db with accessSessions := sessions, users := users } draw request claims
      credential principal :=
  ⟨⟨h.identifies.credentialRow, h.identifies.clientId, h.identifies.credentialActive,
    h.identifies.validFrom, h.identifies.validTo, h.identifies.principalRow, h.identifies.principalId,
    h.identifies.principalActive, h.identifies.machine⟩, h.verifier, h.accepted, h.named, h.tenant,
    h.scope, h.requested, h.granted⟩

/-- The gates are the same whatever the sessions and the users are. -/
theorem exchangeGate_ignores_session (sessions : Rows AccessSession) (users : Rows User) :
    ExchangeGate rt { db with accessSessions := sessions, users := users } draw request claims
      credential principal ↔ ExchangeGate rt db draw request claims credential principal :=
  ⟨fun h => h.with_session db.accessSessions db.users, fun h => h.with_session sessions users⟩

theorem grantRequested_eq_ok_iff {machine user requested permissions : List String} :
    grantRequested machine user requested = .ok permissions ↔
      (∀ p ∈ user, isCanonicalPermission p = true) ∧
        requestedPermissions requested = .ok permissions ∧
          ∀ p ∈ permissions, p ∈ machine ∧ p ∈ user := by
  unfold grantRequested
  rw [except_bind_ok_iff]
  simp only [validatePermissions_eq_ok_iff, except_bind_ok_iff]
  constructor
  · rintro ⟨_, ⟨hcanonical, rfl⟩, wanted, hwanted, h⟩
    split at h
    · rename_i hall
      cases h
      simp only [List.all_eq_true, decide_eq_true_eq, mem_sortedSet] at hall
      exact ⟨hcanonical, hwanted, hall⟩
    · cases h
  · rintro ⟨hcanonical, hwanted, hall⟩
    refine ⟨_, ⟨hcanonical, rfl⟩, permissions, hwanted, ?_⟩
    rw [if_pos]
    simpa only [List.all_eq_true, decide_eq_true_eq, mem_sortedSet] using hall

/-- What an exchange reads of a token is never empty. -/
theorem userTokenClaims_named {payload : Payload} {read : UserTokenClaims}
    (h : userTokenClaims payload = .ok read) :
    read.subject ≠ "" ∧ read.tenantId ≠ "" ∧ read.accessSessionId ≠ "" := by
  unfold userTokenClaims at h
  split at h
  · cases h
  split at h
  · cases h
  rename_i found hfound
  cases h
  simp only [userTokenClaims?, Json.nonEmptyText?, Option.bind_eq_bind, Option.bind_eq_some_iff,
    Option.filter_eq_some_iff, Option.pure_def, Option.some.injEq, decide_eq_true_eq] at hfound
  obtain ⟨_, ⟨_, hsubject⟩, _, ⟨_, htenant⟩, _, ⟨_, hsession⟩, _, _, _, _, _, _, _, _, _, _, rfl⟩ :=
    hfound
  exact ⟨hsubject, htenant, hsession⟩

theorem exchange_exec_ok_iff {s : Session Database} {response : ExchangeResponse} :
    (∃ t, (exchangeUserToken rt draw request).exec s = (.ok response, t)) ↔
      ∃ found payload read machine,
        authenticateCredential rt request.clientId request.clientSecret draw.now s.view = .ok found ∧
        rt.tokens.verify draw.verifyNow request.subjectToken = .ok payload ∧
        userTokenClaims payload = .ok read ∧
        (∃ tenant ∈ s.view.tenants.rows, tenant.tenantId = read.tenantId ∧ tenant.status = .active) ∧
        s.view.machinePermissions found.principalId read.tenantId draw.now = .ok machine ∧
        grantRequested machine read.permissions request.requestedPermissions =
          .ok response.permissions ∧
        rt.tokens.issue draw.token (read.exchanged response.permissions found.clientId) =
          .ok response.accessToken ∧
        response.expiresAt = fromTimestamp read.exp := by
  constructor
  · rintro ⟨t, h⟩
    obtain ⟨found, _, hrun₁, hrest₁⟩ := exec_bind_ok (exec_rollbackAndRaise_ok_iff.mp h)
    obtain ⟨hfound, rfl⟩ := exec_query_ok hrun₁
    obtain ⟨payload, _, hrun₂, hrest₂⟩ := exec_bind_ok hrest₁
    obtain ⟨hpayload, rfl⟩ := exec_done_ok hrun₂
    obtain ⟨read, _, hrun₃, hrest₃⟩ := exec_bind_ok hrest₂
    obtain ⟨hread, rfl⟩ := exec_done_ok hrun₃
    obtain ⟨_, _, hrun₄, hrest₄⟩ := exec_bind_ok hrest₃
    obtain ⟨htenant, rfl⟩ := requireActiveTenant_exec_ok_iff.mp hrun₄
    obtain ⟨machine, _, hrun₅, hrest₅⟩ := exec_bind_ok hrest₄
    obtain ⟨hmachine, rfl⟩ := exec_query_ok hrun₅
    obtain ⟨permissions, _, hrun₆, hrest₆⟩ := exec_bind_ok hrest₅
    obtain ⟨hpermissions, rfl⟩ := exec_done_ok hrun₆
    obtain ⟨token, _, hrun₇, hrest₇⟩ := exec_bind_ok hrest₆
    obtain ⟨htoken, rfl⟩ := exec_done_ok hrun₇
    obtain ⟨_, _, hrun₈, hrest₈⟩ := exec_bind_ok hrest₇
    obtain rfl := exec_markMachineCredentialUsed.mp hrun₈
    cases hrest₈
    exact ⟨found, payload, read, machine, hfound, hpayload, hread, htenant, hmachine, hpermissions,
      htoken, rfl⟩
  · rintro ⟨found, payload, read, machine, hfound, hpayload, hread, htenant, hmachine, hpermissions,
      htoken, hexpiry⟩
    obtain ⟨token, expiresAt, permissions⟩ := response
    simp only at hpermissions htoken hexpiry
    subst hexpiry
    let marked := (Write.markMachineCredentialUsed found.credentialId draw.now).apply s.view
    refine ⟨⟨marked, marked⟩, exec_rollbackAndRaise_ok_iff.mpr ?_⟩
    refine exec_bind_ok_iff.mpr ⟨found, s, ?_, ?_⟩
    · exact (exec_query _ _ _).trans (congrArg (·, _) hfound)
    refine exec_bind_ok_iff.mpr ⟨payload, s, congrArg (·, _) hpayload, ?_⟩
    refine exec_bind_ok_iff.mpr ⟨read, s, congrArg (·, _) hread, ?_⟩
    refine exec_bind_ok_iff.mpr ⟨(), s, requireActiveTenant_exec_ok_iff.mpr ⟨htenant, rfl⟩, ?_⟩
    refine exec_bind_ok_iff.mpr ⟨machine, s, ?_, ?_⟩
    · exact (exec_query _ _ _).trans (congrArg (·, _) hmachine)
    refine exec_bind_ok_iff.mpr ⟨permissions, s, congrArg (·, _) hpermissions, ?_⟩
    refine exec_bind_ok_iff.mpr ⟨token, s, congrArg (·, _) htoken, ?_⟩
    exact exec_bind_ok_iff.mpr ⟨(), _, exec_markMachineCredentialUsed.mpr rfl, rfl⟩

/-- What an exchange reads of a token that the service has issued to a user. -/
theorem read_of_issued (hcodec : rt.tokens.codec.RoundTrips) {token : String} {now : Instant}
    {payload : Payload} {read : UserTokenClaims} (hissued : IssuedToUser rt.tokens token claims)
    (hverify : rt.tokens.verify now token = .ok payload) (hread : userTokenClaims payload = .ok read) :
    read = ⟨claims.principalId, claims.tenantId, claims.accessSessionId, claims.roles,
      claims.deviceId.getD "", claims.locationId.getD "", sortedSet claims.permissions,
      ((claims.expiresAt / 1000000 : Int) : Rat)⟩ := by
  obtain ⟨tokenDraw, hissue⟩ := hissued.issued
  obtain ⟨_, _, hshape, _, hsigned⟩ := TokenService.issue_eq_ok_iff.mp hissue
  obtain ⟨hdevice, hlocation, hroles, hsubject⟩ := user_shape hissued.user hshape
  obtain rfl := TokenService.verify_signed hcodec hsigned hverify
  have hcarries := rt.tokens.payload_carries tokenDraw claims (sortedSet claims.permissions)
  rw [hsubject] at hcarries
  exact claims_of_carries hcarries hdevice hlocation hroles hread

theorem alone_ok_iff {α : Type} {p : Tx α} {a : α} :
    (p.alone db).1 = .ok a ↔ ∃ t, p.exec ⟨db, db⟩ = (.ok a, t) := by
  constructor
  · exact fun h => ⟨_, Prod.ext h rfl⟩
  · rintro ⟨t, ht⟩
    exact congrArg Prod.fst ht

/-- What is delegated is again a token of the same session and the same user. -/
theorem exchange_issues (hcodec : rt.tokens.codec.RoundTrips)
    (hissued : IssuedToUser rt.tokens request.subjectToken claims) {response : ExchangeResponse}
    (h : ((exchangeUserToken rt draw request).alone db).1 = .ok response) :
    ∃ exchanged, IssuedToUser rt.tokens response.accessToken exchanged ∧
      exchanged.accessSessionId = claims.accessSessionId ∧
      exchanged.principalId = claims.principalId := by
  obtain ⟨found, payload, read, machine, _, hpayload, hread, _, _, _, htoken, _⟩ :=
    exchange_exec_ok_iff.mp (alone_ok_iff.mp h)
  obtain rfl := read_of_issued hcodec hissued hpayload hread
  exact ⟨_, ⟨rfl, draw.token, htoken⟩, rfl, rfl⟩

/-- The exchange of an issued token succeeds exactly when its gates are open. -/
theorem exchange_ok_iff (hkeys : rt.tokens.Keyed) (hcodec : rt.tokens.codec.RoundTrips)
    (hdigest : ∀ s, isHexDigest (rt.sha256Hex s) = true)
    (hissued : IssuedToUser rt.tokens request.subjectToken claims) :
    (∃ response, ((exchangeUserToken rt draw request).alone db).1 = .ok response) ↔
      ∃ credential principal, ExchangeGate rt db draw request claims credential principal := by
  obtain ⟨tokenDraw, hissue⟩ := hissued.issued
  obtain ⟨hprivate, hid, hshape, hcanonical, hsigned⟩ := TokenService.issue_eq_ok_iff.mp hissue
  obtain ⟨device, location, hdevice, hdeviceText, hlocation, hlocationText, hroles⟩ :=
    user_claims_present hissued.user hshape
  have hsubject : claims.tokenSubject = claims.principalId := (user_shape hissued.user hshape).2.2.2
  have hcarries := rt.tokens.payload_carries tokenDraw claims (sortedSet claims.permissions)
  simp only [alone_ok_iff, exchange_exec_ok_iff]
  constructor
  · rintro ⟨response, found, payload, read, machine, hfound, hpayload, hread, htenant, hmachine,
      hpermissions, _, _⟩
    obtain ⟨credential, principal, hidentifies, hverifier, rfl⟩ :=
      (authenticateCredential_eq_ok_iff hdigest).mp hfound
    obtain ⟨hreadSubject, hreadTenant, hreadSession⟩ := userTokenClaims_named hread
    obtain rfl := read_of_issued hcodec hissued hpayload hread
    obtain ⟨hscope, hgranted⟩ := machinePermissions_ok hmachine
    obtain ⟨_, hwanted, hall⟩ := grantRequested_eq_ok_iff.mp hpermissions
    obtain ⟨hrequested, _, hsome⟩ := requestedPermissions_eq_ok_iff.mp hwanted
    refine ⟨credential, principal, hidentifies, hverifier, ⟨_, hpayload⟩,
      ⟨hreadSubject, hreadTenant, hreadSession⟩, htenant, hscope, hrequested, ?_⟩
    intro p hp hne
    obtain ⟨hmachine, huser⟩ := hall p (by rw [hsome]; exact mem_wantedPermissions.mpr ⟨hp, hne⟩)
    exact ⟨(hgranted p).mp hmachine, mem_sortedSet.mp huser⟩
  · rintro ⟨credential, principal, h⟩
    obtain ⟨payload, hpayload⟩ := h.accepted
    obtain rfl := TokenService.verify_signed hcodec hsigned hpayload
    obtain ⟨hname, htenantName, hsession⟩ := h.named
    have hread := userTokenClaims_of_carries hcarries hissued.user hdevice hdeviceText hlocation
      hlocationText hroles (by rwa [hsubject]) htenantName hsession
    obtain ⟨machine, hmachine⟩ := machinePermissions_eq_ok h.scope
    obtain ⟨_, hgranted⟩ := machinePermissions_ok hmachine
    have hwanted : ∀ p ∈ wantedPermissions request.requestedPermissions,
        p ∈ machine ∧ p ∈ sortedSet claims.permissions := by
      intro p hp
      obtain ⟨hrequested, hne⟩ := mem_wantedPermissions.mp hp
      obtain ⟨hgrant, huser⟩ := h.granted p hrequested hne
      exact ⟨(hgranted p).mpr hgrant, mem_sortedSet.mpr huser⟩
    have hshape' : validateActorClaimShape (UserTokenClaims.exchanged ⟨claims.tokenSubject,
        claims.tenantId, claims.accessSessionId, claims.roles, device, location,
        sortedSet claims.permissions, ((claims.expiresAt / 1000000 : Int) : Rat)⟩
          (wantedPermissions request.requestedPermissions) credential.clientId) = .ok () :=
      UserTokenClaims.exchanged_shape hdeviceText hlocationText hroles
    obtain ⟨token, htoken⟩ := TokenService.issue_of_shape hkeys draw.token hprivate hid hshape'
      fun p hp => hcanonical p (mem_sortedSet.mp (hwanted p hp).2)
    refine ⟨⟨token, _, wantedPermissions request.requestedPermissions⟩, credential.of principal, _, _,
      machine, (authenticateCredential_eq_ok_iff hdigest).mpr
        ⟨credential, principal, h.identifies, h.verifier, rfl⟩, hpayload, hread, h.tenant, hmachine, ?_,
      htoken, rfl⟩
    refine grantRequested_eq_ok_iff.mpr ⟨fun p hp => hcanonical p (mem_sortedSet.mp hp), ?_, hwanted⟩
    refine requestedPermissions_eq_ok_iff.mpr ⟨h.requested, ?_, rfl⟩
    exact fun p hp hne => hcanonical p (h.granted p hp hne).2

end Gates

/-! ## Ended sessions -/

/-- The exchange answers with a token that names the session again. -/
def Delegates (rt : MachineRuntime) (db : Database) (draw : ExchangeDraw) (request : ExchangeRequest)
    (claims : AccessTokenClaims) : Prop :=
  ∃ response exchanged, ((exchangeUserToken rt draw request).alone db).1 = .ok response ∧
    IssuedToUser rt.tokens response.accessToken exchanged ∧
      exchanged.accessSessionId = claims.accessSessionId

theorem delegates_iff {rt : MachineRuntime} {db : Database} {draw : ExchangeDraw}
    {request : ExchangeRequest} {claims : AccessTokenClaims} (hkeys : rt.tokens.Keyed)
    (hcodec : rt.tokens.codec.RoundTrips) (hdigest : ∀ s, isHexDigest (rt.sha256Hex s) = true)
    (hissued : IssuedToUser rt.tokens request.subjectToken claims) :
    Delegates rt db draw request claims ↔
      ∃ credential principal, ExchangeGate rt db draw request claims credential principal := by
  rw [← exchange_ok_iff hkeys hcodec hdigest hissued]
  constructor
  · rintro ⟨response, _, h, _⟩
    exact ⟨response, h⟩
  · rintro ⟨response, h⟩
    obtain ⟨exchanged, hexchanged, hsession, _⟩ := exchange_issues hcodec hissued h
    exact ⟨response, exchanged, h, hexchanged, hsession⟩

def EndedExchange (w : SessionWorld) (db : Database) (calls : List SessionCall)
    (earlier : List SessionCall) (draw : ExchangeDraw) (request : ExchangeRequest)
    (claims : AccessTokenClaims) : Prop :=
  (∃ later, calls = earlier ++ .exchangeUserToken draw request :: later) ∧
    IssuedToUser w.tokens request.subjectToken claims ∧ EndedBy w db earlier claims

def DelegatesNoneEnded (w : SessionWorld) (db : Database) (calls : List SessionCall) : Prop :=
  ∀ earlier draw request claims, EndedExchange w db calls earlier draw request claims →
    ¬ Delegates w.machines (rowsAfter w db earlier) draw request claims

/-- A run delegates no session that has ended exactly when every such exchange meets a closed gate of
the client, the tenant or the token. -/
theorem ended_sessions_not_delegated_iff (w : SessionWorld) (hkeys : w.tokens.Keyed)
    (hcodec : w.tokens.codec.RoundTrips) (hdigest : ∀ s, isHexDigest (w.sha256Hex s) = true)
    (db : Database) (calls : List SessionCall) :
    DelegatesNoneEnded w db calls ↔
      ∀ earlier draw request claims, EndedExchange w db calls earlier draw request claims →
        ∀ credential principal,
          ¬ ExchangeGate w.machines (rowsAfter w db earlier) draw request claims credential principal := by
  have hone : ∀ earlier draw request claims, EndedExchange w db calls earlier draw request claims →
      (Delegates w.machines (rowsAfter w db earlier) draw request claims ↔ ∃ credential principal,
        ExchangeGate w.machines (rowsAfter w db earlier) draw request claims credential principal) :=
    fun _ _ _ _ h => delegates_iff hkeys hcodec hdigest h.2.1
  constructor
  · intro h earlier draw request claims hended credential principal hgate
    exact h earlier draw request claims hended
      ((hone _ _ _ _ hended).mpr ⟨credential, principal, hgate⟩)
  · intro h earlier draw request claims hended hdelegates
    obtain ⟨credential, principal, hgate⟩ := (hone _ _ _ _ hended).mp hdelegates
    exact h earlier draw request claims hended credential principal hgate

theorem clerkSession_lifetime : (5 : Instant) < seconds 3600 := by decide

def clerkSession : AccessSession where
  accessSessionId := "session"
  tenantId := "tenant"
  principalId := "user"
  actorType := .user
  membershipId := none
  deviceId := some "phone"
  locationId := some "office"
  credentialId := none
  authenticationSource := .clerk
  authorizationVersion := some 1
  sourceIp := "192.0.2.1"
  vpnStatus := some .notDetected
  startedAt := 5
  expiresAt := seconds 3600
  lastActivityAt := 5
  lastGeoValidatedAt := some 5
  status := .active
  lifetime := clerkSession_lifetime

def clerkSessionDatabase : Database :=
  { clientsDatabase with accessSessions := Table.empty.insert clerkSession }

def clerkWorld (codec : JwtCodec) : SessionWorld where
  runtime := ⟨workplaceRuntime.haversineMeters, workplaceRuntime.zoneInfo, ⟨clerkSettings, codec⟩⟩
  repo := .groupAware
  lower := id
  upper := id
  sha256Hex := fun _ => secretDigest

def revokedThenExchanged (permissions : List String) : List SessionCall :=
  [.revoke "session" "tenant" "user",
    .exchangeUserToken ⟨0, 0, 0, "second"⟩ ⟨"gateway", "secret", "token", permissions⟩]

theorem plainCodec_roundTrips : plainCodec.RoundTrips := by
  intro payload _ _ token _ _ _ now decoded hencode hdecode
  have htoken : token = String.ofList (Json.writeFields payload) := (Option.some.inj hencode).symm
  have hread : Json.readFields token.length token.toList = some (payload, []) := by
    have hfields := Json.readFields_writeFields payload (Json.writeFields payload).length [] le_rfl
    simpa [htoken] using hfields
  simp only [plainCodec, hread] at hdecode
  split at hdecode
  · cases hdecode
  · exact (Except.ok.inj hdecode).symm

theorem nothing_requested_not_delegated :
    DelegatesNoneEnded (clerkWorld plainCodec) clerkSessionDatabase (revokedThenExchanged []) := by
  have hdigest : isHexDigest secretDigest = true := by decide
  refine (ended_sessions_not_delegated_iff (clerkWorld plainCodec)
    (plainCodec_keyed clerkSettings (by decide)) plainCodec_roundTrips (fun _ => hdigest)
    clerkSessionDatabase (revokedThenExchanged [])).mpr ?_
  intro earlier draw request claims hended credential principal hgate
  obtain ⟨later, hcalls⟩ := hended.1
  have hmem : SessionCall.exchangeUserToken draw request ∈ revokedThenExchanged [] := by
    rw [hcalls]
    simp
  simp only [revokedThenExchanged, List.mem_cons, List.not_mem_nil, or_false, reduceCtorEq, false_or,
    SessionCall.exchangeUserToken.injEq] at hmem
  obtain ⟨rfl, rfl⟩ := hmem
  obtain ⟨_, hrequested, _⟩ := hgate.requested
  cases hrequested

/-- The gateway gets a new token for the session that has just been revoked. -/
theorem revoked_session_is_delegated :
    ∃ (w : SessionWorld) (db : Database) (calls earlier : List SessionCall) (draw : ExchangeDraw)
      (request : ExchangeRequest) (claims : AccessTokenClaims),
      w.tokens.codec.RoundTrips ∧ EndedExchange w db calls earlier draw request claims ∧
        Delegates w.machines (rowsAfter w db earlier) draw request claims := by
  have hcodec : clientsRuntime.tokens.codec.RoundTrips := tableCodec_roundTrips (by decide)
  have hissue : clientsRuntime.tokens.issue ⟨0, "first"⟩ clerkClaims = .ok "token" := by
    decide +kernel
  have hrevoked : ∃ row ∈ (rowsAfter (clerkWorld clientsRuntime.tokens.codec) clerkSessionDatabase
      [.revoke "session" "tenant" "user"]).accessSessions.rows,
        row.accessSessionId = "session" ∧ row.status = .revoked := by
    decide +kernel
  have hanswer : ((exchangeUserToken clientsRuntime ⟨0, 0, 0, "second"⟩
      ⟨"gateway", "secret", "token", ["sales.order.write", "sales.order.read"]⟩).alone
        (rowsAfter (clerkWorld clientsRuntime.tokens.codec) clerkSessionDatabase
          [.revoke "session" "tenant" "user"])).1 =
      .ok ⟨"gateway's token", seconds 3600, ["sales.order.read", "sales.order.write"]⟩ := by
    decide +kernel
  obtain ⟨exchanged, hexchanged, hsession, _⟩ := exchange_issues hcodec ⟨rfl, _, hissue⟩ hanswer
  exact ⟨clerkWorld clientsRuntime.tokens.codec, clerkSessionDatabase,
    revokedThenExchanged ["sales.order.write", "sales.order.read"],
    [.revoke "session" "tenant" "user"], _, _, clerkClaims, hcodec,
    ⟨⟨[], rfl⟩, ⟨rfl, _, hissue⟩, _, List.prefix_refl _, Or.inl hrevoked⟩,
    _, exchanged, hanswer, hexchanged, hsession⟩

end VerigenceSecurity
