import VerigenceSecurity.TokenService

/-! # What tokens carry

The claims that an issued payload answers with, and what follows from issuing and from
verifying a token.
-/

namespace VerigenceSecurity
set_option autoImplicit false

/-! ## Reading a payload -/

mutual

def Json.same : Json → Json → Bool
  | .null, .null => true
  | .bool a, .bool b => decide (a = b)
  | .number a, .number b => decide (a = b)
  | .text a, .text b => decide (a = b)
  | .list as, .list bs => sameItems as bs
  | .object as, .object bs => sameFields as bs
  | _, _ => false
termination_by structural value => value

def Json.sameItems : List Json → List Json → Bool
  | [], [] => true
  | a :: as, b :: bs => a.same b && sameItems as bs
  | _, _ => false
termination_by structural values => values

def Json.sameFields : List (String × Json) → List (String × Json) → Bool
  | [], [] => true
  | a :: as, b :: bs => sameField a b && sameFields as bs
  | _, _ => false
termination_by structural fields => fields

def Json.sameField : String × Json → String × Json → Bool
  | (name, a), (name', b) => decide (name = name') && a.same b
termination_by structural field => field

end

mutual

theorem Json.eq_of_same : (a b : Json) → a.same b = true → a = b
  | .null, b, h => by cases b <;> simp_all [Json.same]
  | .bool x, b, h => by cases b <;> simp_all [Json.same]
  | .number x, b, h => by cases b <;> simp_all [Json.same]
  | .text x, b, h => by cases b <;> simp_all [Json.same]
  | .list as, b, h => by
    cases b with
    | list bs =>
      simp only [Json.same] at h
      rw [Json.eq_of_sameItems as bs h]
    | _ => simp [Json.same] at h
  | .object as, b, h => by
    cases b with
    | object bs =>
      simp only [Json.same] at h
      rw [Json.eq_of_sameFields as bs h]
    | _ => simp [Json.same] at h

theorem Json.eq_of_sameItems : (as bs : List Json) → Json.sameItems as bs = true → as = bs
  | [], [], _ => rfl
  | [], b :: bs, h => by simp [Json.sameItems] at h
  | a :: as, [], h => by simp [Json.sameItems] at h
  | a :: as, b :: bs, h => by
    simp only [Json.sameItems, Bool.and_eq_true] at h
    rw [Json.eq_of_same a b h.1, Json.eq_of_sameItems as bs h.2]

theorem Json.eq_of_sameFields :
    (as bs : List (String × Json)) → Json.sameFields as bs = true → as = bs
  | [], [], _ => rfl
  | [], b :: bs, h => by simp [Json.sameFields] at h
  | a :: as, [], h => by simp [Json.sameFields] at h
  | (name, a) :: as, (name', b) :: bs, h => by
    simp only [Json.sameFields, Json.sameField, Bool.and_eq_true, decide_eq_true_eq] at h
    rw [h.1.1, Json.eq_of_same a b h.1.2, Json.eq_of_sameFields as bs h.2]

end

structure Payload.Carries (payload : Payload) (claims : AccessTokenClaims) (subject : String)
    (permissions : List String) : Prop where
  sub : payload.get "sub" = .text subject
  tenantId : payload.get "tenant_id" = .text claims.tenantId
  accessSessionId : payload.get "access_session_id" = .text claims.accessSessionId
  actorType : payload.get "actor_type" = .text claims.actorType.text
  permissions : payload.get "permissions" = .texts permissions
  exp : payload.get "exp" = numericDate claims.expiresAt
  roles : payload.get "roles" = if claims.roles.isEmpty then .null else .texts claims.roles
  deviceId : payload.get "device_id" =
    if isBlank claims.deviceId then .null else .text (claims.deviceId.getD "")
  locationId : payload.get "location_id" =
    if isBlank claims.locationId then .null else .text (claims.locationId.getD "")
  act : payload.get "act" = if isBlank claims.delegatedActorId then .null
    else .object [("sub", .text (claims.delegatedActorId.getD ""))]

/-- `claims.subject or claims.principal_id`. -/
def AccessTokenClaims.tokenSubject (claims : AccessTokenClaims) : String :=
  match claims.subject with
  | some s => if s = "" then claims.principalId else s
  | none => claims.principalId

theorem Payload.lookup_optional {claim name : String} {value : Json} {absent : Bool} :
    (if absent then [] else [(name, value)] : Payload).lookup claim =
      if claim = name ∧ absent = false then some value else none := by
  cases absent with
  | true => simp
  | false =>
    by_cases h : claim = name
    · simp [h]
    · have hne : (claim == name) = false := by simpa using h
      simp [h, List.lookup_cons, hne]

theorem TokenService.payload_carries (tokens : TokenService) (draw : TokenDraw)
    (claims : AccessTokenClaims) (permissions : List String) :
    (tokens.payload draw claims permissions).Carries claims claims.tokenSubject permissions := by
  refine ⟨rfl, rfl, rfl, rfl, rfl, rfl, ?_, ?_, ?_, ?_⟩
  all_goals
    simp only [TokenService.payload, Payload.get, List.lookup_append, Payload.lookup_optional]
    simp [List.lookup_cons]
    split <;> simp_all

/-! ## Signing and decoding -/

/-- What is decoded from a signed token is what was signed. -/
def JwtCodec.RoundTrips (codec : JwtCodec) : Prop :=
  ∀ payload privateKey keyId token publicKey issuer audience now decoded,
    codec.encode payload privateKey keyId = some token →
      codec.decode token publicKey issuer audience now = .ok decoded → decoded = payload

def tableCodec (table : List (Payload × String)) : JwtCodec where
  encode payload _ _ :=
    (table.find? fun entry => Json.same (.object entry.1) (.object payload)).map Prod.snd
  decode token _ _ _ now :=
    match table.find? fun entry => decide (entry.2 = token) with
    | none => .error .invalid
    | some (payload, _) =>
      if ((payload.get "exp").number?).any fun exp => decide (exp * 1000000 ≤ ((now : Int) : Rat)) then
        .error .expired
      else .ok payload

theorem tableCodec_roundTrips {table : List (Payload × String)} (h : (table.map Prod.snd).Nodup) :
    (tableCodec table).RoundTrips := by
  intro payload _ _ token _ _ _ now decoded hencode hdecode
  obtain ⟨entry, hentry, rfl⟩ := Option.map_eq_some_iff.mp hencode
  have hmatch := List.find?_some hentry
  have hsame := Json.eq_of_same _ _ hmatch
  simp only [tableCodec] at hdecode
  split at hdecode
  · cases hdecode
  rename_i found tok hfound
  split at hdecode
  · cases hdecode
  have htoken := List.find?_some hfound
  have heq := List.inj_on_of_nodup_map h (List.mem_of_find?_eq_some hfound)
    (List.mem_of_find?_eq_some hentry) (of_decide_eq_true htoken)
  rw [← Except.ok.inj hdecode]
  exact (congrArg Prod.fst heq).trans (Json.object.inj hsame)

def TokenService.Signs (tokens : TokenService) (payload : Payload) (token : String) : Prop :=
  tokens.codec.encode payload tokens.settings.securityPrivateKeyPem tokens.settings.securityKeyId =
    some token

section Tokens

variable {tokens : TokenService} {draw : TokenDraw} {claims : AccessTokenClaims} {token : String}

theorem TokenService.issue_eq_ok_iff : tokens.issue draw claims = .ok token ↔
    tokens.settings.securityPrivateKeyPem ≠ "" ∧ tokens.settings.securityKeyId ≠ "" ∧
      validateActorClaimShape claims = .ok () ∧
        (∀ p ∈ claims.permissions, isCanonicalPermission p = true) ∧
          tokens.Signs (tokens.payload draw claims (sortedSet claims.permissions)) token := by
  unfold TokenService.issue TokenService.Signs
  by_cases hkeys : tokens.settings.securityPrivateKeyPem = "" ∨ tokens.settings.securityKeyId = ""
  · simp only [if_pos hkeys]
    constructor
    · intro h
      cases h
    · rintro ⟨hpem, hid, _⟩
      exact absurd hkeys (not_or.mpr ⟨hpem, hid⟩)
  simp only [if_neg hkeys]
  obtain ⟨hpem, hid⟩ := not_or.mp hkeys
  cases hshape : validateActorClaimShape claims with
  | error e =>
    constructor
    · intro h
      cases h
    · rintro ⟨_, _, h, _⟩
      cases h
  | ok u =>
    cases hvalid : validatePermissions claims.permissions with
    | error e =>
      constructor
      · intro h
        cases h
      · rintro ⟨_, _, _, hcanonical, _⟩
        rw [validatePermissions_eq_ok_iff.mpr ⟨hcanonical, rfl⟩] at hvalid
        cases hvalid
    | ok permissions =>
      obtain ⟨hcanonical, rfl⟩ := validatePermissions_eq_ok_iff.mp hvalid
      simp only [bind, Except.bind]
      cases hencode : tokens.codec.encode (tokens.payload draw claims (sortedSet claims.permissions))
          tokens.settings.securityPrivateKeyPem tokens.settings.securityKeyId with
      | none => simp
      | some signed =>
        constructor
        · intro h
          exact ⟨hpem, hid, trivial, hcanonical, congrArg some (Except.ok.inj h)⟩
        · rintro ⟨_, _, _, _, h⟩
          exact congrArg Except.ok (Option.some.inj h)

theorem checkPayload_ok {payload checked : Payload} (h : checkPayload payload = .ok checked) :
    checked = payload := by
  have hchecked : ∀ result, checkPayload.permissionsChecked payload = .ok result →
      result = payload := by
    intro result hresult
    unfold checkPayload.permissionsChecked at hresult
    split at hresult
    · cases hresult
    · split at hresult
      · cases hresult
        rfl
      · cases hresult
  unfold checkPayload at h
  dsimp only at h
  split at h
  · cases h
  split at h
  · cases h
  split at h
  · cases h
  split at h
  · exact hchecked checked h
  · split at h
    · cases h
    · exact hchecked checked h

/-- Verifying a signed token yields the signed payload. -/
theorem TokenService.verify_signed (hcodec : tokens.codec.RoundTrips) {payload verified : Payload}
    {now : Instant} (hsigned : tokens.Signs payload token)
    (h : tokens.verify now token = .ok verified) : verified = payload := by
  unfold TokenService.verify at h
  dsimp only at h
  split at h
  · cases h
  split at h
  · cases h
  · cases h
  · rename_i decoded hdecoded
    rw [checkPayload_ok h]
    exact hcodec _ _ _ _ _ _ _ _ _ hsigned hdecoded

end Tokens

end VerigenceSecurity
