import VerigenceSecurity.MachineAccess
import VerigenceSecurity.TokenPayloads

/-! # Chains of exchanged tokens

Every exchange re-issues the token of the same user and session, until the same second,
with permissions that both the token and the client have. By induction no chain of
exchanges widens what the first token allowed.
-/

namespace VerigenceSecurity
set_option autoImplicit false

open Transaction Relational Program

/-! ## One exchange -/

structure UserToken (tokens : TokenService) (token : String) (claims : AccessTokenClaims)
    (permissions : List String) : Prop where
  user : claims.actorType = .user
  shape : validateActorClaimShape claims = .ok ()
  signed : ∃ draw, tokens.Signs (tokens.payload draw claims permissions) token

theorem userToken_of_issue {tokens : TokenService} {draw : TokenDraw} {claims : AccessTokenClaims}
    {token : String} (huser : claims.actorType = .user) (h : tokens.issue draw claims = .ok token) :
    UserToken tokens token claims (sortedSet claims.permissions) := by
  obtain ⟨_, _, hshape, _, hsigned⟩ := TokenService.issue_eq_ok_iff.mp h
  exact ⟨huser, hshape, draw, hsigned⟩

/-- The shape of a user's claims leaves nothing out of the payload. -/
theorem user_shape {claims : AccessTokenClaims} (huser : claims.actorType = .user)
    (h : validateActorClaimShape claims = .ok ()) : isBlank claims.deviceId = false ∧
      isBlank claims.locationId = false ∧ claims.roles.isEmpty = false ∧
        claims.tokenSubject = claims.principalId := by
  unfold validateActorClaimShape at h
  rw [if_pos huser] at h
  split at h
  · cases h
  rename_i hpresent
  split at h
  · cases h
  rename_i hsubject
  simp only [Bool.or_eq_true, not_or, Bool.not_eq_true] at hpresent
  refine ⟨hpresent.1.1, hpresent.1.2, hpresent.2, ?_⟩
  unfold AccessTokenClaims.tokenSubject
  cases hs : claims.subject with
  | none => rfl
  | some s =>
    have hsame : s = claims.principalId := by simpa [hs] using hsubject
    simp [hsame]

structure SameUser (a b : AccessTokenClaims) : Prop where
  principalId : b.principalId = a.principalId
  tenantId : b.tenantId = a.tenantId
  accessSessionId : b.accessSessionId = a.accessSessionId
  roles : b.roles = a.roles
  deviceId : b.deviceId.getD "" = a.deviceId.getD ""
  locationId : b.locationId.getD "" = a.locationId.getD ""
  expiresAt : numericDate b.expiresAt = numericDate a.expiresAt

theorem SameUser.refl (a : AccessTokenClaims) : SameUser a a := ⟨rfl, rfl, rfl, rfl, rfl, rfl, rfl⟩

theorem SameUser.trans {a b c : AccessTokenClaims} (h : SameUser a b) (k : SameUser b c) :
    SameUser a c :=
  ⟨k.principalId.trans h.principalId, k.tenantId.trans h.tenantId,
    k.accessSessionId.trans h.accessSessionId, k.roles.trans h.roles, k.deviceId.trans h.deviceId,
    k.locationId.trans h.locationId, k.expiresAt.trans h.expiresAt⟩

theorem fromTimestamp_seconds (k : Int) : fromTimestamp (k : Rat) = k * 1000000 := by
  have hfloor : ((k : Rat) * 1000000).floor = k * 1000000 := by
    have hcast : (k : Rat) * 1000000 = ((k * 1000000 : Int) : Rat) := by push_cast; rfl
    rw [hcast]
    exact Rat.floor_intCast _
  have hzero : (k : Rat) * 1000000 - ((k * 1000000 : Int) : Rat) = 0 := by
    push_cast
    exact sub_self _
  have hhalf : (0 : Rat) < 1 / 2 := by decide +kernel
  unfold fromTimestamp
  simp only [hfloor, hzero]
  rw [if_pos (Or.inl hhalf)]

theorem numericDate_fromTimestamp (k : Int) :
    numericDate (fromTimestamp (k : Rat)) = .number (k : Rat) := by
  rw [fromTimestamp_seconds, numericDate]
  congr 2
  unfold Instant at *
  omega

/-- What an exchange reads of a user's token. -/
theorem claims_of_carries {payload : Payload} {claims : AccessTokenClaims}
    {permissions : List String} {read : UserTokenClaims}
    (hcarries : payload.Carries claims claims.principalId permissions)
    (hdevice : isBlank claims.deviceId = false) (hlocation : isBlank claims.locationId = false)
    (hroles : claims.roles.isEmpty = false) (h : userTokenClaims payload = .ok read) :
    read = ⟨claims.principalId, claims.tenantId, claims.accessSessionId, claims.roles,
      claims.deviceId.getD "", claims.locationId.getD "", permissions,
      ((claims.expiresAt / 1000000 : Int) : Rat)⟩ := by
  unfold userTokenClaims at h
  split at h
  · cases h
  split at h
  · cases h
  rename_i found hfound
  cases h
  simp only [userTokenClaims?, Json.nonEmptyText?, Option.bind_eq_bind, Option.bind_eq_some_iff,
    Option.filter_eq_some_iff, Option.pure_def, Option.some.injEq, hcarries.sub, hcarries.tenantId,
    hcarries.accessSessionId, hcarries.roles, hcarries.deviceId, hcarries.locationId,
    hcarries.permissions, hcarries.exp, hdevice, hlocation, hroles, Json.text?_text,
    Json.texts?_texts, numericDate, Json.number?, Bool.false_eq_true, if_false] at hfound
  obtain ⟨_, ⟨rfl, _⟩, _, ⟨rfl, _⟩, _, ⟨rfl, _⟩, _, rfl, _, ⟨rfl, _⟩, _, ⟨rfl, _⟩, _, rfl, _, rfl,
    rfl⟩ := hfound
  rfl

/-! ## What a successful exchange has checked -/

/-- The client had an ACTIVE, valid scope for the tenant and an ACTIVE grant of the permission. -/
def Database.ClientMay (db : Database) (clientId tenantId : Uuid) (now : Instant) (p : String) : Prop :=
  ∃ credential ∈ db.principalCredentials.rows, credential.clientId = clientId ∧
    (∃ scope ∈ db.principalTenantScopes.rows, scope.principalId = credential.principalId ∧
      scope.tenantId = tenantId ∧ scope.status = .active ∧
        validAt scope.validFrom scope.validTo now = true) ∧
    ∃ grant ∈ db.principalPermissionGrants.rows, grant.principalId = credential.principalId ∧
      grant.tenantId = tenantId ∧ grant.status = .active ∧ grant.permissionKey = p

section Checks

variable {db : Database} {rt : MachineRuntime} {now : Instant}

theorem machineCredential_ok {clientId : String} {found : MachineCredential}
    (h : db.machineCredential clientId now = .ok found) :
    found.clientId = clientId ∧ ∃ credential ∈ db.principalCredentials.rows,
      credential.clientId = clientId ∧ credential.principalId = found.principalId := by
  unfold Database.machineCredential at h
  dsimp only at h
  split at h
  · cases h
  rename_i credential principal hhead
  split at h
  · cases h
  split at h
  · cases h
  split at h
  · cases h
  split at h
  · cases h
  cases h
  have hmem := List.mem_of_mem_head? hhead
  simp only [List.mem_flatMap, List.mem_map, List.mem_filter, decide_eq_true_eq] at hmem
  obtain ⟨c, ⟨hc, hclient⟩, p, ⟨_, hp⟩, heq⟩ := hmem
  cases heq
  exact ⟨hclient, _, hc, hclient, hp.symm⟩

theorem authenticate_ok {clientId secret : String} {found : MachineCredential}
    (h : authenticateCredential rt clientId secret now db = .ok found) :
    db.machineCredential clientId now = .ok found := by
  unfold authenticateCredential at h
  cases hfound : db.machineCredential clientId now with
  | error e =>
    rw [hfound] at h
    cases h
  | ok credential =>
    rw [hfound] at h
    change (if _ then _ else Except.ok credential) = Except.ok found at h
    split at h
    · cases h
    · exact h

/-- The permissions of a client are those that it may use. -/
theorem clientMay_of_machinePermissions {clientId : String} {tenantId : Uuid}
    {found : MachineCredential} {permissions : List String}
    (hcredential : db.machineCredential clientId now = .ok found)
    (h : db.machinePermissions found.principalId tenantId now = .ok permissions) :
    ∀ p ∈ permissions, db.ClientMay clientId tenantId now p := by
  obtain ⟨_, credential, hmem, hclient, hprincipal⟩ := machineCredential_ok hcredential
  unfold Database.machinePermissions at h
  split at h
  · rename_i hscope
    cases h
    obtain ⟨scope, hrow, hP⟩ := List.any_eq_true.mp hscope
    simp only [Bool.and_eq_true, decide_eq_true_eq] at hP
    obtain ⟨⟨hsp, hst, hss⟩, hvalid⟩ := hP
    intro p hp
    rw [mem_sortedSet] at hp
    simp only [List.mem_flatMap, List.mem_map, List.mem_filter, decide_eq_true_eq] at hp
    obtain ⟨grant, ⟨hgrant, hgp, hgt, hgs⟩, permission, ⟨_, hkey, _⟩, rfl⟩ := hp
    exact ⟨credential, hmem, hclient, ⟨scope, hrow, hsp.trans hprincipal.symm, hst, hss, hvalid⟩,
      grant, hgrant, hgp.trans hprincipal.symm, hgt, hgs, hkey.symm⟩
  · cases h

theorem grantRequested_ok {machine user requested permissions : List String}
    (h : grantRequested machine user requested = .ok permissions) :
    permissions ⊆ machine ∧ permissions ⊆ user ∧ sortedSet permissions = permissions := by
  unfold grantRequested at h
  cases hvalid : validatePermissions user with
  | error e =>
    rw [hvalid] at h
    cases h
  | ok validated =>
    rw [hvalid] at h
    obtain ⟨_, rfl⟩ := validatePermissions_eq_ok_iff.mp hvalid
    cases hwanted : requestedPermissions requested with
    | error e =>
      rw [hwanted] at h
      cases h
    | ok wanted =>
      rw [hwanted] at h
      change (if _ then Except.ok wanted else _) = Except.ok permissions at h
      split at h
      · rename_i hall
        cases h
        rw [List.all_eq_true] at hall
        refine ⟨fun p hp => (of_decide_eq_true (hall p hp)).1, fun p hp => ?_, ?_⟩
        · exact mem_sortedSet.mp (of_decide_eq_true (hall p hp)).2
        · unfold requestedPermissions at hwanted
          dsimp only at hwanted
          split at hwanted
          · cases hwanted
          · rw [(validatePermissions_eq_ok_iff.mp hwanted).2]
            exact sortedSet_congr fun v => mem_sortedSet
      · cases h

end Checks

structure Exchange where
  draw : ExchangeDraw
  request : ExchangeRequest
  db : Database
  response : ExchangeResponse

def Exchange.Of (rt : MachineRuntime) (token : String) (e : Exchange) : Prop :=
  e.request.subjectToken = token ∧
    ((exchangeUserToken rt e.draw e.request).alone e.db).1 = .ok e.response

theorem requireActiveTenant_same {tenantId : Uuid} {s t : Session Database} {u : Unit}
    (h : (requireActiveTenant tenantId).exec s = (.ok u, t)) : t = s :=
  (exec_query_ok h).2

/-- What an answered exchange has found and signed. -/
theorem Exchange.Of.steps {rt : MachineRuntime} {token : String} {e : Exchange} (h : e.Of rt token) :
    ∃ credential payload claims machine,
      authenticateCredential rt e.request.clientId e.request.clientSecret e.draw.now e.db =
        .ok credential ∧
      rt.tokens.verify e.draw.verifyNow token = .ok payload ∧
      userTokenClaims payload = .ok claims ∧
      e.db.machinePermissions credential.principalId claims.tenantId e.draw.now = .ok machine ∧
      grantRequested machine claims.permissions e.request.requestedPermissions =
        .ok e.response.permissions ∧
      rt.tokens.issue e.draw.token (claims.exchanged e.response.permissions credential.clientId) =
        .ok e.response.accessToken := by
  obtain ⟨rfl, hrun⟩ := h
  have hexec : ∃ t, (exchangeUserToken rt e.draw e.request).exec ⟨e.db, e.db⟩ = (.ok e.response, t) :=
    ⟨_, Prod.ext hrun rfl⟩
  obtain ⟨t, hexec⟩ := hexec
  have hbody := exec_rollbackAndRaise_ok_iff.mp hexec
  obtain ⟨credential, _, hrun₁, hrest⟩ := exec_bind_ok hbody
  obtain ⟨hcredential, rfl⟩ := exec_query_ok hrun₁
  obtain ⟨payload, _, hrun₂, hrest⟩ := exec_bind_ok hrest
  obtain ⟨hpayload, rfl⟩ := exec_done_ok hrun₂
  obtain ⟨claims, _, hrun₃, hrest⟩ := exec_bind_ok hrest
  obtain ⟨hclaims, rfl⟩ := exec_done_ok hrun₃
  obtain ⟨_, _, hrun₄, hrest⟩ := exec_bind_ok hrest
  obtain rfl := requireActiveTenant_same hrun₄
  obtain ⟨machine, _, hrun₅, hrest⟩ := exec_bind_ok hrest
  obtain ⟨hmachine, rfl⟩ := exec_query_ok hrun₅
  obtain ⟨permissions, _, hrun₆, hrest⟩ := exec_bind_ok hrest
  obtain ⟨hpermissions, rfl⟩ := exec_done_ok hrun₆
  obtain ⟨signed, _, hrun₇, hrest⟩ := exec_bind_ok hrest
  obtain ⟨hsigned, rfl⟩ := exec_done_ok hrun₇
  obtain ⟨_, _, _, hrest⟩ := exec_bind_ok hrest
  obtain ⟨_, _, _, hrest⟩ := exec_bind_ok hrest
  have hresponse : e.response = ⟨signed, _, permissions⟩ :=
    (Except.ok.inj (congrArg Prod.fst hrest)).symm
  rw [hresponse]
  exact ⟨credential, payload, claims, machine, hcredential, hpayload, hclaims, hmachine,
    hpermissions, hsigned⟩

/-- The exchanges, each of the token that the one before has answered. -/
def Chain (rt : MachineRuntime) : String → List Exchange → Prop
  | _, [] => True
  | token, e :: rest => e.Of rt token ∧ Chain rt e.response.accessToken rest

/-- One exchange: the same user, the client as actor, and no permission that the token or the
client lacks. -/
theorem exchange_narrows {rt : MachineRuntime} (hcodec : rt.tokens.codec.RoundTrips) {token : String}
    {claims : AccessTokenClaims} {permissions : List String}
    (htoken : UserToken rt.tokens token claims permissions) {e : Exchange} (h : e.Of rt token) :
    ∃ exchanged, UserToken rt.tokens e.response.accessToken exchanged e.response.permissions ∧
      SameUser claims exchanged ∧ exchanged.delegatedActorId = some e.request.clientId ∧
      e.response.permissions ⊆ permissions ∧
      ∀ p ∈ e.response.permissions,
        e.db.ClientMay e.request.clientId claims.tenantId e.draw.now p := by
  obtain ⟨credential, payload, read, machine, hauth, hverify, hread, hmachine, hgrant, hissue⟩ := h.steps
  obtain ⟨draw, hsigned⟩ := htoken.signed
  obtain rfl := TokenService.verify_signed hcodec hsigned hverify
  obtain ⟨hdevice, hlocation, hroles, hsubject⟩ := user_shape htoken.user htoken.shape
  have hcarries := rt.tokens.payload_carries draw claims permissions
  rw [hsubject] at hcarries
  obtain rfl := claims_of_carries hcarries hdevice hlocation hroles hread
  have hcredential := authenticate_ok hauth
  obtain ⟨hpermitted, hcontained, hsorted⟩ := grantRequested_ok hgrant
  have hexchanged := userToken_of_issue rfl hissue
  dsimp only [UserTokenClaims.exchanged] at hexchanged
  rw [hsorted] at hexchanged
  refine ⟨_, hexchanged, ⟨rfl, rfl, rfl, rfl, rfl, rfl, ?_⟩, ?_, hcontained, ?_⟩
  · exact numericDate_fromTimestamp _
  · rw [← (machineCredential_ok hcredential).1]
  · exact fun p hp => clientMay_of_machinePermissions hcredential hmachine p (hpermitted hp)

theorem chain_narrows {rt : MachineRuntime} (hcodec : rt.tokens.codec.RoundTrips)
    {exchanges : List Exchange} {token : String} {claims : AccessTokenClaims}
    {permissions : List String} (htoken : UserToken rt.tokens token claims permissions)
    (hchain : Chain rt token exchanges) : ∀ (i : Nat) (e : Exchange), exchanges[i]? = some e →
      ∃ exchanged, UserToken rt.tokens e.response.accessToken exchanged e.response.permissions ∧
        SameUser claims exchanged ∧ exchanged.delegatedActorId = some e.request.clientId ∧
        e.response.permissions ⊆ permissions ∧
        ∀ (j : Nat) (f : Exchange), j ≤ i → exchanges[j]? = some f → ∀ p ∈ e.response.permissions,
          f.db.ClientMay f.request.clientId claims.tenantId f.draw.now p := by
  induction exchanges generalizing token claims permissions with
  | nil =>
    intro i e he
    simp at he
  | cons first rest ih =>
    obtain ⟨hfirst, hrest⟩ := hchain
    obtain ⟨next, hnext, hsame, hactor, hcontained, hgranted⟩ := exchange_narrows hcodec htoken hfirst
    intro i e he
    cases i with
    | zero =>
      obtain rfl : first = e := Option.some.inj he
      refine ⟨next, hnext, hsame, hactor, hcontained, ?_⟩
      intro j f hj hf p hp
      obtain rfl : j = 0 := Nat.le_zero.mp hj
      obtain rfl : first = f := Option.some.inj hf
      exact hgranted p hp
    | succ i =>
      obtain ⟨last, hlast, hsame', hactor', hcontained', hgranted'⟩ := ih hnext hrest i e he
      refine ⟨last, hlast, hsame.trans hsame', hactor', List.Subset.trans hcontained' hcontained, ?_⟩
      intro j f hj hf p hp
      cases j with
      | zero =>
        obtain rfl : first = f := Option.some.inj hf
        exact hgranted p (hcontained' hp)
      | succ j =>
        rw [← hsame.tenantId]
        exact hgranted' j f (by omega) hf p hp

def inheritedClaims : List String :=
  ["sub", "tenant_id", "access_session_id", "roles", "device_id", "location_id", "exp"]

theorem SameUser.get_eq {a b : AccessTokenClaims} (h : SameUser a b) {p q : Payload}
    {ps qs : List String} (hp : p.Carries a a.tokenSubject ps) (hq : q.Carries b b.tokenSubject qs)
    (ha : a.actorType = .user) (hb : b.actorType = .user)
    (hshape : validateActorClaimShape a = .ok ()) (hshape' : validateActorClaimShape b = .ok ()) :
    ∀ claim ∈ inheritedClaims, q.get claim = p.get claim := by
  obtain ⟨hdevice, hlocation, _, hsubject⟩ := user_shape ha hshape
  obtain ⟨hdevice', hlocation', _, hsubject'⟩ := user_shape hb hshape'
  intro claim hclaim
  simp only [inheritedClaims, List.mem_cons, List.not_mem_nil, or_false] at hclaim
  rcases hclaim with rfl | rfl | rfl | rfl | rfl | rfl | rfl
  · rw [hq.sub, hp.sub, hsubject, hsubject', h.principalId]
  · rw [hq.tenantId, hp.tenantId, h.tenantId]
  · rw [hq.accessSessionId, hp.accessSessionId, h.accessSessionId]
  · rw [hq.roles, hp.roles, h.roles]
  · rw [hq.deviceId, hp.deviceId, hdevice, hdevice', h.deviceId]
  · rw [hq.locationId, hp.locationId, hlocation, hlocation', h.locationId]
  · rw [hq.exp, hp.exp, h.expiresAt]

/-- Delegation never widens authority. The route refuses an empty client id. -/
theorem delegation_never_widens (rt : MachineRuntime) (hcodec : rt.tokens.codec.RoundTrips)
    (draw : TokenDraw) (claims : AccessTokenClaims) (huser : claims.actorType = .user)
    {token : String} (hissue : rt.tokens.issue draw claims = .ok token) (exchanges : List Exchange)
    (hclients : ∀ e ∈ exchanges, e.request.clientId ≠ "") (hchain : Chain rt token exchanges) :
    ∃ payload, rt.tokens.Signs payload token ∧ ∀ (i : Nat) (e : Exchange), exchanges[i]? = some e →
      ∃ exchanged, rt.tokens.Signs exchanged e.response.accessToken ∧
        (∀ claim ∈ inheritedClaims, exchanged.get claim = payload.get claim) ∧
        exchanged.get "act" = .object [("sub", .text e.request.clientId)] ∧
        exchanged.get "permissions" = .texts e.response.permissions ∧
        (∃ permissions, payload.get "permissions" = .texts permissions ∧
          e.response.permissions ⊆ permissions) ∧
        ∀ (j : Nat) (f : Exchange), j ≤ i → exchanges[j]? = some f → ∀ p ∈ e.response.permissions,
          f.db.ClientMay f.request.clientId claims.tenantId f.draw.now p := by
  obtain ⟨_, _, hshape, _, hsigned⟩ := TokenService.issue_eq_ok_iff.mp hissue
  refine ⟨_, hsigned, ?_⟩
  intro i e he
  obtain ⟨exchanged, htoken, hsame, hactor, hcontained, hgranted⟩ :=
    chain_narrows hcodec (userToken_of_issue huser hissue) hchain i e he
  obtain ⟨draw', hsigned'⟩ := htoken.signed
  have hfirst := rt.tokens.payload_carries draw claims (sortedSet claims.permissions)
  have hlast := rt.tokens.payload_carries draw' exchanged e.response.permissions
  have hclient := hclients e (List.mem_of_getElem? he)
  refine ⟨_, hsigned', hsame.get_eq hfirst hlast huser htoken.user hshape htoken.shape, ?_,
    hlast.permissions, ⟨_, hfirst.permissions, hcontained⟩, hgranted⟩
  rw [hlast.act, hactor]
  simp [isBlank, hclient]

def secretDigest : String := "2bb80d537b1da3e38bd30361aa855686bde0eacd7162fef6a25fe97bf527a25b"

def clientsDatabase : Database :=
  { (default : Database) with
    tenants := Table.empty.insert ⟨"tenant", "TENANT", "Tenant", .active, 0, 0⟩
    securityPrincipals := (Table.empty.insert ⟨"gateway", .system, "gateway", .active⟩).insert
      ⟨"reports", .serviceIntegration, "reports", .active⟩
    permissions := (Table.empty.insert
      ⟨"sales.order.read", "sales", "order", "read", none, none, .active, none⟩).insert
      ⟨"sales.order.write", "sales", "order", "write", none, none, .active, none⟩
    principalTenantScopes := (Table.empty.insert
      ⟨"scope-1", "gateway", "tenant", .active, none, none⟩).insert
      ⟨"scope-2", "reports", "tenant", .active, none, none⟩
    principalPermissionGrants := ((Table.empty.insert
      ⟨"grant-1", "gateway", "tenant", "sales.order.read", .active⟩).insert
      ⟨"grant-2", "gateway", "tenant", "sales.order.write", .active⟩).insert
      ⟨"grant-3", "reports", "tenant", "sales.order.read", .active⟩
    principalCredentials := (Table.empty.insert
      ⟨"credential-1", "gateway", "gateway", secretDigest, .active, 0, none, none⟩).insert
      ⟨"credential-2", "reports", "reports", secretDigest, .active, 0, none, none⟩ }

def clerkClaims : AccessTokenClaims where
  principalId := "user"
  actorType := .user
  tenantId := "tenant"
  accessSessionId := "session"
  permissions := ["sales.order.write", "sales.order.read"]
  expiresAt := seconds 3600 + 5
  roles := ["clerk"]
  deviceId := some "phone"
  locationId := some "office"

def clerkSettings : Settings where
  securityKeyId := "key"
  securityPrivateKeyPem := "private"
  securityPublicKeyPem := "public"

def exchangedClaims (clientId : String) (permissions : List String) : AccessTokenClaims :=
  { clerkClaims with
    permissions := permissions
    expiresAt := seconds 3600
    delegatedActorId := some clientId }

def clientsRuntime : MachineRuntime where
  lower := id
  sha256Hex := fun _ => secretDigest
  tokens := {
    settings := clerkSettings
    codec := tableCodec (
      let payload := TokenService.payload ⟨clerkSettings, tableCodec []⟩
      let both := ["sales.order.read", "sales.order.write"]
      [(payload ⟨0, "first"⟩ clerkClaims both, "token"),
        (payload ⟨0, "second"⟩ (exchangedClaims "gateway" both) both, "gateway's token"),
        (payload ⟨0, "third"⟩ (exchangedClaims "reports" ["sales.order.read"]) ["sales.order.read"],
          "reports' token")]) }

def reportExchanges : List Exchange :=
  [⟨⟨0, 0, 0, "second"⟩, ⟨"gateway", "secret", "token",
      ["sales.order.write", "", "sales.order.read"]⟩, clientsDatabase,
      ⟨"gateway's token", seconds 3600, ["sales.order.read", "sales.order.write"]⟩⟩,
    ⟨⟨1, 1, 0, "third"⟩, ⟨"reports", "secret", "gateway's token", ["sales.order.read"]⟩,
      clientsDatabase, ⟨"reports' token", seconds 3600, ["sales.order.read"]⟩⟩]

theorem reports_token_is_narrower : ∃ payload exchanged : Payload,
    clientsRuntime.tokens.Signs exchanged "reports' token" ∧
      exchanged.get "exp" = payload.get "exp" ∧
      exchanged.get "act" = .object [("sub", .text "reports")] ∧
      exchanged.get "permissions" = .texts ["sales.order.read"] := by
  have hcodec : clientsRuntime.tokens.codec.RoundTrips := tableCodec_roundTrips (by decide)
  have hissue : clientsRuntime.tokens.issue ⟨0, "first"⟩ clerkClaims = .ok "token" := by
    decide +kernel
  have hchain : Chain clientsRuntime "token" reportExchanges :=
    ⟨⟨rfl, by decide +kernel⟩, ⟨rfl, by decide +kernel⟩, trivial⟩
  have hclients : ∀ e ∈ reportExchanges, e.request.clientId ≠ "" := by
    simp [reportExchanges]
  obtain ⟨payload, _, hall⟩ := delegation_never_widens clientsRuntime hcodec ⟨0, "first"⟩ clerkClaims
    rfl hissue reportExchanges hclients hchain
  obtain ⟨exchanged, hsigned, hinherited, hact, hpermissions, _⟩ := hall 1 _ rfl
  exact ⟨payload, exchanged, hsigned, hinherited "exp" (by decide), hact, hpermissions⟩

end VerigenceSecurity
