import VerigenceSecurity.PlatformBootstrap
import VerigenceSecurity.TokenPayloads

/-! # Platform tokens and tenant tokens

Both services may be configured with the same keys, issuer and audience. What keeps their
tokens apart is the list of claims that each requires.
-/

namespace VerigenceSecurity
set_option autoImplicit false

/-! ## `PlatformAdminTokenService.verify` -/

def platformRequiredClaims : List String :=
  ["exp", "iat", "sub", "jti", "roles", "permissions", "must_change_password"]

def checkPlatformPayload (payload : Payload) : Except Failure Payload := do
  let roles ← (permissionTexts (payload.get "roles")).mapError
    fun _ => .typeError "roles claim is not iterable"
  let permissions ← permissionTexts (payload.get "permissions")
  if roles.isEmpty || roles.any fun role => !startsWith role "platform." then
    .error (securityError .authTokenInvalid)
  else if permissions.any fun permission => !isCanonicalPermission permission then
    .error (securityError .authTokenInvalid)
  else if (payload.lookup "tenant_id").isSome || (payload.lookup "access_session_id").isSome then
    .error (securityError .authTokenInvalid)
  else .ok payload

def PlatformAdminTokenService.verify (tokens : PlatformAdminTokenService) (now : Instant)
    (token : String) : Except Failure Payload :=
  let settings := tokens.settings
  if settings.securityPublicKeyPem = "" then .error (securityError .signingKeyUnavailable)
  else
    match tokens.codec.decode token settings.securityPublicKeyPem settings.securityTokenIssuer
        audience now with
    | .error .expired => .error (securityError .authTokenExpired)
    | .error .invalid => .error (securityError .authTokenInvalid)
    | .ok payload => checkPlatformPayload payload

/-! ## One library behind both services -/

/-- PyJWT, the list of required claims being an option of decoding. -/
structure PyJwt where
  encode : (payload : Payload) → (privateKeyPem keyId : String) → Option String
  decode : (token publicKeyPem issuer audience : String) → (require : List String) →
    (now : Instant) → Except DecodeError Payload

def PyJwt.requiring (pyJwt : PyJwt) (require : List String) : JwtCodec where
  encode := pyJwt.encode
  decode token publicKeyPem issuer audience now :=
    pyJwt.decode token publicKeyPem issuer audience require now

/-- What is decoded is what was signed, it has a value for every required claim, was issued
for this issuer and audience, and is not over. -/
structure PyJwt.Conforms (pyJwt : PyJwt) : Prop where
  roundTrips : ∀ payload privateKey keyId token publicKey issuer audience require now decoded,
    pyJwt.encode payload privateKey keyId = some token →
      pyJwt.decode token publicKey issuer audience require now = .ok decoded → decoded = payload
  requires : ∀ token publicKey issuer audience require now decoded,
    pyJwt.decode token publicKey issuer audience require now = .ok decoded →
      ∀ claim ∈ require, (decoded.get claim).same .null = false
  issuer : ∀ token publicKey issuer audience require now decoded,
    pyJwt.decode token publicKey issuer audience require now = .ok decoded →
      decoded.get "iss" = .text issuer
  audience : ∀ token publicKey issuer audience require now decoded,
    pyJwt.decode token publicKey issuer audience require now = .ok decoded →
      decoded.get "aud" = .text audience ∨
        ∃ values, decoded.get "aud" = .list values ∧ Json.text audience ∈ values
  expiry : ∀ token publicKey issuer audience require now decoded exp,
    pyJwt.decode token publicKey issuer audience require now = .ok decoded →
      (decoded.get "exp").number? = some exp → ((now : Int) : Rat) < exp * 1000000

/-- A verification that ends in an error of the token or of the signing key. -/
def Rejected (result : Except Failure Payload) : Prop :=
  ∃ code ∈ [ErrorCode.signingKeyUnavailable, .authTokenInvalid, .authTokenExpired],
    result = .error (securityError code)

/-- A signed payload that lacks a required claim is not decoded. -/
theorem PyJwt.Conforms.not_decoded {pyJwt : PyJwt} (h : pyJwt.Conforms) {payload : Payload}
    {privateKey keyId token : String} (hsigned : pyJwt.encode payload privateKey keyId = some token)
    {require : List String} {claim : String} (hrequired : claim ∈ require)
    (habsent : payload.get claim = .null) (publicKey issuer audience : String) (now : Instant) :
    ∃ error, pyJwt.decode token publicKey issuer audience require now = .error error := by
  cases hdecode : pyJwt.decode token publicKey issuer audience require now with
  | error error => exact ⟨error, rfl⟩
  | ok decoded =>
    have hpresent := h.requires _ _ _ _ _ _ _ hdecode claim hrequired
    rw [h.roundTrips _ _ _ _ _ _ _ _ _ _ hsigned hdecode, habsent] at hpresent
    cases hpresent

theorem PlatformAdminTokenService.issue_signed {tokens : PlatformAdminTokenService}
    {draw : TokenDraw} {claims : PlatformAdminClaims} {token : String} {expiresAt : Instant}
    (h : tokens.issue draw claims = .ok (token, expiresAt)) : ∃ permissions,
      tokens.codec.encode (tokens.payload draw claims permissions expiresAt)
        tokens.settings.securityPrivateKeyPem tokens.settings.securityKeyId = some token := by
  simp only [PlatformAdminTokenService.issue] at h
  split at h
  · cases h
  · split at h
    · cases h
    · cases hpermissions : validatePermissions claims.permissions with
      | error failure => simp [hpermissions, bind, Except.bind] at h
      | ok permissions =>
        simp only [hpermissions, bind, Except.bind] at h
        split at h
        · cases h
        · split at h
          · cases h
          · rename_i signed hsigned
            cases h
            exact ⟨permissions, hsigned⟩

theorem TokenService.verify_rejected {tokens : TokenService} {now : Instant} {token : String}
    (h : ∃ error, tokens.codec.decode token tokens.settings.securityPublicKeyPem
      tokens.settings.securityTokenIssuer tokens.settings.securityTokenAudience now =
        .error error) : Rejected (tokens.verify now token) := by
  obtain ⟨error, hdecode⟩ := h
  simp only [TokenService.verify, hdecode]
  split
  · exact ⟨.signingKeyUnavailable, by simp, rfl⟩
  · cases error with
    | expired => exact ⟨.authTokenExpired, by simp, rfl⟩
    | invalid => exact ⟨.authTokenInvalid, by simp, rfl⟩

theorem PlatformAdminTokenService.verify_rejected {tokens : PlatformAdminTokenService}
    {now : Instant} {token : String}
    (h : ∃ error, tokens.codec.decode token tokens.settings.securityPublicKeyPem
      tokens.settings.securityTokenIssuer audience now = .error error) :
    Rejected (tokens.verify now token) := by
  obtain ⟨error, hdecode⟩ := h
  simp only [PlatformAdminTokenService.verify, hdecode]
  split
  · exact ⟨.signingKeyUnavailable, by simp, rfl⟩
  · cases error with
    | expired => exact ⟨.authTokenExpired, by simp, rfl⟩
    | invalid => exact ⟨.authTokenInvalid, by simp, rfl⟩

/-- Neither service accepts what the other has issued, whatever their settings have in common. -/
theorem tokens_not_interchangeable {pyJwt : PyJwt} (hconforms : pyJwt.Conforms)
    (settings : Settings) (platformSettings : PlatformSettings) :
    (∀ draw claims token expiresAt now,
      PlatformAdminTokenService.issue ⟨platformSettings, pyJwt.requiring platformRequiredClaims⟩
        draw claims = .ok (token, expiresAt) →
      Rejected (TokenService.verify ⟨settings, pyJwt.requiring requiredClaims⟩ now token)) ∧
    ∀ draw claims token now,
      TokenService.issue ⟨settings, pyJwt.requiring requiredClaims⟩ draw claims = .ok token →
      Rejected (PlatformAdminTokenService.verify
        ⟨platformSettings, pyJwt.requiring platformRequiredClaims⟩ now token) := by
  constructor
  · intro draw claims token expiresAt now hissue
    obtain ⟨permissions, hsigned⟩ := PlatformAdminTokenService.issue_signed hissue
    apply TokenService.verify_rejected
    have habsent : (PlatformAdminTokenService.payload
        ⟨platformSettings, pyJwt.requiring platformRequiredClaims⟩ draw claims permissions
        expiresAt).get "actor_type" = .null := rfl
    exact hconforms.not_decoded hsigned (by decide) habsent _ _ _ _
  · intro draw claims token now hissue
    obtain ⟨-, -, -, -, hsigned⟩ := TokenService.issue_eq_ok_iff.mp hissue
    apply PlatformAdminTokenService.verify_rejected
    have habsent : (TokenService.payload ⟨settings, pyJwt.requiring requiredClaims⟩ draw claims
        (sortedSet claims.permissions)).get "must_change_password" = .null := by
      simp only [TokenService.payload, Payload.get, List.lookup_append, Payload.lookup_optional]
      simp [List.lookup_cons]
    exact hconforms.not_decoded hsigned (by decide) habsent _ _ _ _

/-! ## A library of two tokens -/

def tablePyJwt (table : List (Payload × String)) : PyJwt where
  encode := (tableCodec table).encode
  decode token publicKeyPem issuer audience require now :=
    match (tableCodec table).decode token publicKeyPem issuer audience now with
    | .error error => .error error
    | .ok payload =>
      if (require.any fun claim => (payload.get claim).same .null) ||
          !(payload.get "iss").same (.text issuer) || !(payload.get "aud").same (.text audience) then
        .error .invalid
      else .ok payload

theorem tablePyJwt_decode {table : List (Payload × String)}
    {token publicKey issuer audience : String} {require : List String} {now : Instant}
    {decoded : Payload}
    (h : (tablePyJwt table).decode token publicKey issuer audience require now = .ok decoded) :
    (tableCodec table).decode token publicKey issuer audience now = .ok decoded ∧
      (∀ claim ∈ require, (decoded.get claim).same .null = false) ∧
        decoded.get "iss" = .text issuer ∧ decoded.get "aud" = .text audience := by
  simp only [tablePyJwt] at h
  split at h
  · cases h
  · rename_i payload hpayload
    split at h
    · cases h
    · rename_i hchecks
      cases h
      simp only [Bool.or_eq_true, not_or, Bool.not_eq_true, List.any_eq_false,
        Bool.not_eq_false'] at hchecks
      obtain ⟨⟨hrequire, hissuer⟩, haudience⟩ := hchecks
      exact ⟨hpayload, hrequire, Json.eq_of_same _ _ hissuer, Json.eq_of_same _ _ haudience⟩

theorem tablePyJwt_conforms {table : List (Payload × String)} (h : (table.map Prod.snd).Nodup) :
    (tablePyJwt table).Conforms := by
  constructor
  · intro payload privateKey keyId token publicKey issuer audience require now decoded hencode hdecode
    exact tableCodec_roundTrips h payload privateKey keyId token publicKey issuer audience now
      decoded hencode (tablePyJwt_decode hdecode).1
  · intro token publicKey issuer audience require now decoded hdecode
    exact (tablePyJwt_decode hdecode).2.1
  · intro token publicKey issuer audience require now decoded hdecode
    exact (tablePyJwt_decode hdecode).2.2.1
  · intro token publicKey issuer audience require now decoded hdecode
    exact .inl (tablePyJwt_decode hdecode).2.2.2
  · intro token publicKey issuer audience require now decoded exp hdecode hexp
    have hcodec := (tablePyJwt_decode hdecode).1
    simp only [tableCodec] at hcodec
    split at hcodec
    · cases hcodec
    · split at hcodec
      · cases hcodec
      · rename_i hover
        cases hcodec
        simpa [hexp] using hover

/-- The two services share their keys, and the tenant tokens are made for the audience of the
platform's. -/
def sharedSettings : PlatformSettings where
  securityTokenAudience := "verigence-security-admin"
  securityKeyId := "key"
  securityPrivateKeyPem := "private"
  securityPublicKeyPem := "public"
  platformAdminTokenTtlMinutes := some 30

def machineClaims : AccessTokenClaims where
  principalId := "reports"
  actorType := .serviceIntegration
  tenantId := "tenant"
  accessSessionId := "session"
  permissions := ["sales.order.read"]
  expiresAt := seconds 600

def superAdminClaims : PlatformAdminClaims where
  userId := "admin"
  roles := ["platform.super_admin"]
  permissions := ["security.tenant.create"]
  mustChangePassword := false

def sharedPyJwt : PyJwt :=
  tablePyJwt [
    (TokenService.payload ⟨sharedSettings.toSettings, tableCodec []⟩ ⟨0, "first"⟩ machineClaims
      ["sales.order.read"], "machine's token"),
    (PlatformAdminTokenService.payload ⟨sharedSettings, tableCodec []⟩ ⟨0, "second"⟩
      superAdminClaims ["security.tenant.create"] (minutes 30), "admin's token")]

/-- Each token is good where it belongs. -/
example : (TokenService.verify ⟨sharedSettings.toSettings, sharedPyJwt.requiring requiredClaims⟩
      0 "machine's token").isOk = true ∧
    (PlatformAdminTokenService.verify ⟨sharedSettings,
      sharedPyJwt.requiring platformRequiredClaims⟩ 0 "admin's token").isOk = true := by
  decide +kernel

theorem shared_tokens_rejected :
    Rejected (TokenService.verify ⟨sharedSettings.toSettings, sharedPyJwt.requiring requiredClaims⟩
      0 "admin's token") ∧
    Rejected (PlatformAdminTokenService.verify ⟨sharedSettings,
      sharedPyJwt.requiring platformRequiredClaims⟩ 0 "machine's token") := by
  have hconforms : sharedPyJwt.Conforms := tablePyJwt_conforms (by decide)
  obtain ⟨hplatform, htenant⟩ :=
    tokens_not_interchangeable hconforms sharedSettings.toSettings sharedSettings
  constructor
  · exact hplatform ⟨0, "second"⟩ superAdminClaims "admin's token" (minutes 30) 0
      (by decide +kernel)
  · exact htenant ⟨0, "first"⟩ machineClaims "machine's token" 0 (by decide +kernel)

end VerigenceSecurity
