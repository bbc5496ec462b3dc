import VerigenceSecurity.Permissions

/-! # Security tokens

`TokenService` over a JWT codec that is a parameter of the model: signing yields a
token or fails, and decoding checks signature, issuer, audience, expiry and the
presence of the required claims.
-/

namespace VerigenceSecurity
set_option autoImplicit false

/-! ## Payloads -/

inductive Json
  | null
  | bool (value : Bool)
  | number (value : Rat)
  | text (value : String)
  | list (values : List Json)
  | object (fields : List (String × Json))

namespace Json

/-- Python's truth of a decoded value. -/
def truthy : Json → Bool
  | null => false
  | bool value => value
  | number value => decide (value ≠ 0)
  | text value => decide (value ≠ "")
  | list values => !values.isEmpty
  | object fields => !fields.isEmpty

def text? : Json → Option String
  | text value => some value
  | _ => none

/-- `isinstance(value, (int, float))`, which a boolean passes too. -/
def number? : Json → Option Rat
  | number value => some value
  | bool value => some (if value then 1 else 0)
  | _ => none

def texts? : Json → Option (List String)
  | list values => values.mapM text?
  | _ => none

def texts (values : List String) : Json := list (values.map text)

@[simp] theorem text?_text (value : String) : (text value).text? = some value := rfl

@[simp] theorem texts?_texts (values : List String) : (texts values).texts? = some values := by
  simp only [texts, texts?]
  induction values with
  | nil => rfl
  | cons value values ih => simp [List.mapM_cons, ih]

end Json

abbrev Payload := List (String × Json)

/-- `payload.get(claim)`, `null` standing for an absent claim as `None` does. -/
def Payload.get (payload : Payload) (claim : String) : Json := (payload.lookup claim).getD .null

def requiredClaims : List String :=
  ["exp", "iat", "sub", "jti", "actor_type", "tenant_id", "access_session_id", "permissions"]

/-! ## The codec -/

inductive DecodeError
  | expired | invalid
  deriving DecidableEq, Repr

/-- PyJWT with RS256. The clock is an argument of decoding. -/
structure JwtCodec where
  encode : (payload : Payload) → (privateKeyPem keyId : String) → Option String
  decode : (token publicKeyPem issuer audience : String) → (now : Instant) →
    Except DecodeError Payload

structure Settings where
  securityTokenIssuer : String := "verigence-security"
  securityTokenAudience : String := "verigence-platform"
  securityKeyId : String := ""
  securityPrivateKeyPem : String := ""
  securityPublicKeyPem : String := ""

structure TokenService where
  settings : Settings
  codec : JwtCodec

/-! ## Issuing -/

structure AccessTokenClaims where
  principalId : Uuid
  actorType : ActorType
  tenantId : Uuid
  accessSessionId : Uuid
  permissions : List String
  expiresAt : Instant
  roles : List String := []
  deviceId : Option Uuid := none
  locationId : Option Uuid := none
  delegatedActorId : Option String := none
  subject : Option String := none

def ActorType.text : ActorType → String
  | .user => "USER"
  | .system => "SYSTEM"
  | .serviceIntegration => "SERVICE_INTEGRATION"

def ActorType.ofText? : String → Option ActorType
  | "USER" => some .user
  | "SYSTEM" => some .system
  | "SERVICE_INTEGRATION" => some .serviceIntegration
  | _ => none

theorem ActorType.ofText?_text (actorType : ActorType) :
    ActorType.ofText? actorType.text = some actorType := by
  cases actorType <;> rfl

/-- An absent or empty text, which is what `not value` asks. -/
def isBlank (value : Option String) : Bool := value.all fun v => decide (v = "")

def validateActorClaimShape (claims : AccessTokenClaims) : Except Failure Unit :=
  if claims.actorType = .user then
    if isBlank claims.deviceId || isBlank claims.locationId || claims.roles.isEmpty then
      .error (.valueError "USER Security token requires roles, device_id and location_id")
    else if claims.subject.any fun s => decide (s ≠ claims.principalId) then
      .error (.valueError "USER Security token subject must identify the USER principal")
    else .ok ()
  else if !claims.roles.isEmpty || !isBlank claims.deviceId || !isBlank claims.locationId then
    .error (.valueError
      "Machine Security token cannot carry USER-only roles/device/location claims")
  else if claims.delegatedActorId.isSome then
    .error (.valueError "Machine Security token cannot carry a delegated USER actor claim")
  else if claims.subject = some "" then
    .error (.valueError "Machine Security token subject cannot be empty")
  else .ok ()

/-- A date as a token carries it: whole seconds. -/
def numericDate (t : Instant) : Json := .number (t / 1000000 : Int)

structure TokenDraw where
  now : Instant
  jti : Uuid

def TokenService.payload (tokens : TokenService) (draw : TokenDraw) (claims : AccessTokenClaims)
    (permissions : List String) : Payload :=
  let subject := match claims.subject with
    | some s => if s = "" then claims.principalId else s
    | none => claims.principalId
  [("iss", .text tokens.settings.securityTokenIssuer), ("sub", .text subject),
    ("aud", .text tokens.settings.securityTokenAudience), ("iat", numericDate draw.now),
    ("exp", numericDate claims.expiresAt), ("jti", .text draw.jti),
    ("actor_type", .text claims.actorType.text), ("tenant_id", .text claims.tenantId),
    ("access_session_id", .text claims.accessSessionId), ("permissions", .texts permissions)] ++
    (if claims.roles.isEmpty then [] else [("roles", .texts claims.roles)]) ++
    (if isBlank claims.deviceId then [] else [("device_id", .text (claims.deviceId.getD ""))]) ++
    (if isBlank claims.locationId then [] else [("location_id", .text (claims.locationId.getD ""))]) ++
    (if isBlank claims.delegatedActorId then []
      else [("act", .object [("sub", .text (claims.delegatedActorId.getD ""))])])

def TokenService.issue (tokens : TokenService) (draw : TokenDraw) (claims : AccessTokenClaims) :
    Except Failure String := do
  let settings := tokens.settings
  if settings.securityPrivateKeyPem = "" ∨ settings.securityKeyId = "" then
    .error (securityError .signingKeyUnavailable)
  else
    validateActorClaimShape claims
    let permissions ← validatePermissions claims.permissions
    match tokens.codec.encode (tokens.payload draw claims permissions)
        settings.securityPrivateKeyPem settings.securityKeyId with
    | none => .error (securityError .signingKeyUnavailable)
    | some token => .ok token

/-! ## Verifying -/

/-- `act` is absent, or an object with a non-empty subject. -/
def delegatedActorValid : Json → Bool
  | .null => true
  | .object fields => ((Payload.get fields "sub").text?).any fun s => decide (s ≠ "")
  | _ => false

/-- `[str(value) for value in permissions]`: a value that is no text is never canonical, a text
is a list of characters and an object the list of its keys. -/
def permissionTexts : Json → Except Failure (List String)
  | .list values => .ok (values.map fun v => v.text?.getD "")
  | .text value => .ok (value.toList.map fun c => String.ofList [c])
  | .object fields => .ok (fields.map Prod.fst)
  | .null | .bool _ | .number _ => .error (.typeError "permissions claim is not iterable")

def checkPayload (payload : Payload) : Except Failure Payload :=
  let invalid : Except Failure Payload := .error (securityError .authTokenInvalid)
  match (payload.get "actor_type").text?.bind ActorType.ofText? with
  | none => invalid
  | some actorType =>
    let userClaims := [(payload.get "device_id").truthy, (payload.get "location_id").truthy,
      (payload.get "roles").truthy]
    if actorType = .user ∧ false ∈ userClaims then invalid
    else if actorType ≠ .user ∧ true ∈ userClaims then invalid
    else
      match payload.get "act" with
      | .null => permissionsChecked payload
      | act =>
        if actorType ≠ .user ∨ delegatedActorValid act = false then invalid
        else permissionsChecked payload
where
  permissionsChecked (payload : Payload) : Except Failure Payload :=
    match permissionTexts (payload.get "permissions") with
    | .error e => .error e
    | .ok permissions =>
      if permissions.all isCanonicalPermission then .ok payload
      else .error (securityError .authTokenInvalid)

def TokenService.verify (tokens : TokenService) (now : Instant) (token : String) :
    Except Failure Payload :=
  let settings := tokens.settings
  if settings.securityPublicKeyPem = "" then .error (securityError .signingKeyUnavailable)
  else
    match tokens.codec.decode token settings.securityPublicKeyPem settings.securityTokenIssuer
        settings.securityTokenAudience now with
    | .error .expired => .error (securityError .authTokenExpired)
    | .error .invalid => .error (securityError .authTokenInvalid)
    | .ok payload => checkPayload payload

end VerigenceSecurity
