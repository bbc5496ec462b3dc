import VerigenceSecurity.DelegationChain

/-! # Issued tokens are verified

`TokenService.verify` reads back what `TokenService.issue` wrote, for every kind of actor and
every choice of optional claims, and the claims that an exchange makes of a user's token can
be issued again.
-/

namespace VerigenceSecurity
set_option autoImplicit false

/-! ## What the service relies on PyJWT for -/

structure TokenService.Addressed (tokens : TokenService) (payload : Payload) : Prop where
  issuer : payload.get "iss" = .text tokens.settings.securityTokenIssuer
  audience : payload.get "aud" = .text tokens.settings.securityTokenAudience
  required : ∀ claim ∈ requiredClaims, payload.get claim ≠ .null

/-- From the second it was issued in to before the second it expires in. -/
def Payload.LiveAt (payload : Payload) (now : Instant) : Prop :=
  ∃ issued expiry : Int, payload.get "iat" = .number issued ∧ payload.get "exp" = .number expiry ∧
    issued * 1000000 ≤ now ∧ now < expiry * 1000000

/-- The configured keys are a pair: a payload for the configured issuer and audience can be
signed, and the token is decoded to it as long as the payload is live. -/
structure TokenService.Keyed (tokens : TokenService) : Prop where
  publicKey : tokens.settings.securityPublicKeyPem ≠ ""
  signs : ∀ payload, tokens.Addressed payload → ∃ token, tokens.Signs payload token
  decodes : ∀ payload token now, tokens.Signs payload token → tokens.Addressed payload →
    payload.LiveAt now → tokens.codec.decode token tokens.settings.securityPublicKeyPem
      tokens.settings.securityTokenIssuer tokens.settings.securityTokenAudience now = .ok payload

section Payloads

variable {tokens : TokenService} {draw : TokenDraw} {claims : AccessTokenClaims}
  {permissions : List String}

theorem TokenService.payload_addressed :
    tokens.Addressed (tokens.payload draw claims permissions) := by
  constructor
  · rfl
  · rfl
  · intro claim hclaim
    simp only [requiredClaims, List.mem_cons, List.not_mem_nil, or_false] at hclaim
    rcases hclaim with rfl | rfl | rfl | rfl | rfl | rfl | rfl | rfl <;> exact nofun

theorem TokenService.payload_liveAt {now : Instant} (hissued : draw.now ≤ now)
    (hexpiry : now < claims.expiresAt / 1000000 * 1000000) :
    (tokens.payload draw claims permissions).LiveAt now := by
  refine ⟨draw.now / 1000000, claims.expiresAt / 1000000, rfl, rfl, ?_, hexpiry⟩
  unfold Instant at *
  omega

/-! ## The verifier accepts the payloads of the issuer -/

theorem isBlank_eq_false {value : Option String} (h : isBlank value = false) :
    ∃ text, value = some text ∧ text ≠ "" := by
  cases value with
  | none => cases h
  | some text => exact ⟨text, rfl, by simpa [isBlank] using h⟩

theorem user_claims_present (huser : claims.actorType = .user)
    (h : validateActorClaimShape claims = .ok ()) : ∃ device location,
      claims.deviceId = some device ∧ device ≠ "" ∧ claims.locationId = some location ∧
        location ≠ "" ∧ claims.roles ≠ [] := by
  obtain ⟨hdevice, hlocation, hroles, _⟩ := user_shape huser h
  obtain ⟨device, hdevice', hdeviceText⟩ := isBlank_eq_false hdevice
  obtain ⟨location, hlocation', hlocationText⟩ := isBlank_eq_false hlocation
  exact ⟨device, location, hdevice', hdeviceText, hlocation', hlocationText, by simpa using hroles⟩

theorem isBlank_some {text : String} (h : text ≠ "") : isBlank (some text) = false := by
  simpa [isBlank] using h

/-- A user's payload has a device, a location and roles. -/
theorem Payload.Carries.user_claims {payload : Payload} {subject : String}
    (hcarries : payload.Carries claims subject permissions) {device location : String}
    (hdevice : claims.deviceId = some device) (hdeviceText : device ≠ "")
    (hlocation : claims.locationId = some location) (hlocationText : location ≠ "")
    (hroles : claims.roles ≠ []) : payload.get "device_id" = .text device ∧
      payload.get "location_id" = .text location ∧
        payload.get "roles" = .texts claims.roles := by
  refine ⟨?_, ?_, ?_⟩
  · simp [hcarries.deviceId, hdevice, isBlank_some hdeviceText]
  · simp [hcarries.locationId, hlocation, isBlank_some hlocationText]
  · simp [hcarries.roles, hroles]

theorem permissionTexts_texts (values : List String) :
    permissionTexts (.texts values) = .ok values := by
  simp only [Json.texts, permissionTexts, List.map_map]
  congr 1
  induction values with
  | nil => rfl
  | cons value values ih => simpa using ih

theorem permissionsChecked_of_carries {payload : Payload} {subject : String}
    (hcarries : payload.Carries claims subject permissions)
    (hcanonical : ∀ p ∈ permissions, isCanonicalPermission p = true) :
    checkPayload.permissionsChecked payload = .ok payload := by
  have hall : permissions.all isCanonicalPermission = true := List.all_eq_true.mpr hcanonical
  simp only [checkPayload.permissionsChecked, hcarries.permissions, permissionTexts_texts, hall,
    if_true]

/-- The claims that only a user's token has are absent from a machine's. -/
theorem machine_shape (hmachine : claims.actorType ≠ .user)
    (h : validateActorClaimShape claims = .ok ()) : isBlank claims.deviceId = true ∧
      isBlank claims.locationId = true ∧ claims.roles.isEmpty = true ∧
        claims.delegatedActorId = none := by
  unfold validateActorClaimShape at h
  rw [if_neg hmachine] at h
  split at h
  · cases h
  rename_i habsent
  split at h
  · cases h
  rename_i hdelegated
  simp only [Bool.or_eq_true, Bool.not_eq_true', not_or, Bool.not_eq_false] at habsent
  exact ⟨habsent.1.2, habsent.2, habsent.1.1, by simpa using hdelegated⟩

theorem checkPayload_user {payload : Payload} {subject : String}
    (hcarries : payload.Carries claims subject permissions) (huser : claims.actorType = .user)
    (hshape : validateActorClaimShape claims = .ok ())
    (hcanonical : ∀ p ∈ permissions, isCanonicalPermission p = true) :
    checkPayload payload = .ok payload := by
  obtain ⟨device, location, hdevice, hdeviceText, hlocation, hlocationText, hroles⟩ :=
    user_claims_present huser hshape
  obtain ⟨hdevice, hlocation, hroles'⟩ :=
    hcarries.user_claims hdevice hdeviceText hlocation hlocationText hroles
  have hdeviceTruthy : (payload.get "device_id").truthy = true := by
    simpa [hdevice, Json.truthy] using hdeviceText
  have hlocationTruthy : (payload.get "location_id").truthy = true := by
    simpa [hlocation, Json.truthy] using hlocationText
  have hrolesTruthy : (payload.get "roles").truthy = true := by
    simpa [hroles', Json.texts, Json.truthy] using hroles
  have hpermissions := permissionsChecked_of_carries hcarries hcanonical
  have hact := hcarries.act
  simp only [checkPayload, hcarries.actorType, Json.text?_text, Option.bind_some,
    ActorType.ofText?_text, huser, hdeviceTruthy, hlocationTruthy, hrolesTruthy]
  cases hblank : isBlank claims.delegatedActorId with
  | true =>
    rw [hblank, if_pos rfl] at hact
    simp [hact, hpermissions]
  | false =>
    obtain ⟨actor, hactor, hactorText⟩ := isBlank_eq_false hblank
    rw [hblank, hactor] at hact
    have hvalid : delegatedActorValid (.object [("sub", .text actor)]) = true := by
      simpa [delegatedActorValid, Payload.get] using hactorText
    simp [hact, hpermissions, hvalid]

theorem checkPayload_machine {payload : Payload} {subject : String}
    (hcarries : payload.Carries claims subject permissions) (hmachine : claims.actorType ≠ .user)
    (hshape : validateActorClaimShape claims = .ok ())
    (hcanonical : ∀ p ∈ permissions, isCanonicalPermission p = true) :
    checkPayload payload = .ok payload := by
  obtain ⟨hdevice, hlocation, hroles, hdelegated⟩ := machine_shape hmachine hshape
  have hroles' : payload.get "roles" = .null := by rw [hcarries.roles, if_pos hroles]
  have hdevice' : payload.get "device_id" = .null := by rw [hcarries.deviceId, if_pos hdevice]
  have hlocation' : payload.get "location_id" = .null := by
    rw [hcarries.locationId, if_pos hlocation]
  have hact : payload.get "act" = .null := by simp [hcarries.act, hdelegated, isBlank]
  have hpermissions := permissionsChecked_of_carries hcarries hcanonical
  simp [checkPayload, hcarries.actorType, ActorType.ofText?_text, hmachine, hroles', hdevice',
    hlocation', hact, Json.truthy, hpermissions]

theorem checkPayload_of_carries {payload : Payload} {subject : String}
    (hcarries : payload.Carries claims subject permissions)
    (hshape : validateActorClaimShape claims = .ok ())
    (hcanonical : ∀ p ∈ permissions, isCanonicalPermission p = true) :
    checkPayload payload = .ok payload := by
  by_cases huser : claims.actorType = .user
  · exact checkPayload_user hcarries huser hshape hcanonical
  · exact checkPayload_machine hcarries huser hshape hcanonical

theorem TokenService.verify_issued (hkeys : tokens.Keyed) {token : String}
    (h : tokens.issue draw claims = .ok token) {now : Instant} (hissued : draw.now ≤ now)
    (hexpiry : now < claims.expiresAt / 1000000 * 1000000) : tokens.verify now token =
      .ok (tokens.payload draw claims (sortedSet claims.permissions)) := by
  obtain ⟨_, _, hshape, hcanonical, hsigned⟩ := TokenService.issue_eq_ok_iff.mp h
  have hdecoded := hkeys.decodes _ _ now hsigned TokenService.payload_addressed
    (TokenService.payload_liveAt hissued hexpiry)
  have hchecked := checkPayload_of_carries
    (tokens.payload_carries draw claims (sortedSet claims.permissions)) hshape
      fun p hp => hcanonical p (mem_sortedSet.mp hp)
  simp only [TokenService.verify, if_neg hkeys.publicKey, hdecoded, hchecked]

/-! ## The claims of an exchange -/

theorem Json.nonEmptyText?_text {value : String} (h : value ≠ "") :
    (Json.text value).nonEmptyText? = some value := by
  simp [Json.nonEmptyText?, Option.filter, h]

/-- What an exchange reads of a user's payload. -/
theorem userTokenClaims_of_carries {payload : Payload}
    (hcarries : payload.Carries claims claims.tokenSubject permissions)
    (huser : claims.actorType = .user) {device location : String}
    (hdevice : claims.deviceId = some device) (hdeviceText : device ≠ "")
    (hlocation : claims.locationId = some location) (hlocationText : location ≠ "")
    (hroles : claims.roles ≠ []) (hsubject : claims.tokenSubject ≠ "")
    (htenant : claims.tenantId ≠ "") (hsession : claims.accessSessionId ≠ "") :
    userTokenClaims payload =
      .ok ⟨claims.tokenSubject, claims.tenantId, claims.accessSessionId, claims.roles, device,
        location, permissions, ((claims.expiresAt / 1000000 : Int) : Rat)⟩ := by
  obtain ⟨hdevice, hlocation, hroles'⟩ :=
    hcarries.user_claims hdevice hdeviceText hlocation hlocationText hroles
  have hactorType : (payload.get "actor_type").text? = some "USER" := by
    rw [hcarries.actorType, huser]
    rfl
  have hread : userTokenClaims? payload = some ⟨claims.tokenSubject, claims.tenantId,
      claims.accessSessionId, claims.roles, device, location, permissions,
      ((claims.expiresAt / 1000000 : Int) : Rat)⟩ := by
    simp [userTokenClaims?, hcarries.sub, hcarries.tenantId, hcarries.accessSessionId,
      hcarries.permissions, hcarries.exp, hdevice, hlocation, hroles', numericDate, Json.number?,
      Json.nonEmptyText?_text, hdeviceText, hlocationText, hsubject, htenant, hsession]
  simp [userTokenClaims, hactorType, hread]

theorem UserTokenClaims.exchanged_shape {read : UserTokenClaims} {clientId : String}
    (hdevice : read.deviceId ≠ "") (hlocation : read.locationId ≠ "") (hroles : read.roles ≠ []) :
    validateActorClaimShape (read.exchanged permissions clientId) = .ok () := by
  simp [validateActorClaimShape, UserTokenClaims.exchanged, isBlank, hdevice, hlocation, hroles]

theorem TokenService.issue_of_shape (hkeys : tokens.Keyed) (draw : TokenDraw)
    (hprivate : tokens.settings.securityPrivateKeyPem ≠ "")
    (hid : tokens.settings.securityKeyId ≠ "") (hshape : validateActorClaimShape claims = .ok ())
    (hcanonical : ∀ p ∈ claims.permissions, isCanonicalPermission p = true) :
    ∃ token, tokens.issue draw claims = .ok token := by
  obtain ⟨token, hsigned⟩ := hkeys.signs
    (tokens.payload draw claims (sortedSet claims.permissions)) TokenService.payload_addressed
  exact ⟨token, TokenService.issue_eq_ok_iff.mpr ⟨hprivate, hid, hshape, hcanonical, hsigned⟩⟩

end Payloads

/-- An issued token is verified from its issue to before its whole-second expiry and carries
exactly what it was issued with; what an exchange makes of a user's token is issued again. -/
theorem token_round_trip (tokens : TokenService) (hkeys : tokens.Keyed) (draw : TokenDraw)
    (claims : AccessTokenClaims) {token : String} (h : tokens.issue draw claims = .ok token)
    (now : Instant) (hissued : draw.now ≤ now)
    (hexpiry : now < claims.expiresAt / 1000000 * 1000000) :
    ∃ payload permissions, tokens.verify now token = .ok payload ∧
      payload.Carries claims claims.tokenSubject permissions ∧
      permissions.Pairwise (· < ·) ∧ (∀ p, p ∈ permissions ↔ p ∈ claims.permissions) ∧
      (claims.actorType = .user → claims.tokenSubject ≠ "" → claims.tenantId ≠ "" →
        claims.accessSessionId ≠ "" →
          ∃ read, userTokenClaims payload = .ok read ∧ read.permissions = permissions ∧
            ∀ subset clientId draw', subset ⊆ permissions →
              ∃ token', tokens.issue draw' (read.exchanged subset clientId) = .ok token') := by
  obtain ⟨hprivate, hid, hshape, hcanonical, _⟩ := TokenService.issue_eq_ok_iff.mp h
  have hcarries := tokens.payload_carries draw claims (sortedSet claims.permissions)
  refine ⟨_, _, TokenService.verify_issued hkeys h hissued hexpiry, hcarries,
    pairwise_sortedSet _, fun p => mem_sortedSet, ?_⟩
  intro huser hsubject htenant hsession
  obtain ⟨device, location, hdevice, hdeviceText, hlocation, hlocationText, hroles⟩ :=
    user_claims_present huser hshape
  refine ⟨_, userTokenClaims_of_carries hcarries huser hdevice hdeviceText hlocation hlocationText
    hroles hsubject htenant hsession, rfl, ?_⟩
  intro subset clientId draw' hsubset
  apply TokenService.issue_of_shape hkeys draw' hprivate hid
  · exact UserTokenClaims.exchanged_shape hdeviceText hlocationText hroles
  · intro p hp
    exact hcanonical p (mem_sortedSet.mp (hsubset hp))

/-! ## A library whose tokens are the payloads -/

/-- A number in unary, up to its end mark. -/
def writeNat (n : Nat) : List Char := List.replicate n '1' ++ ['0']

def readNat : List Char → Option (Nat × List Char)
  | '0' :: rest => some (0, rest)
  | '1' :: rest => (readNat rest).map fun (n, rest) => (n + 1, rest)
  | _ => none

@[simp] theorem readNat_writeNat (n : Nat) (rest : List Char) :
    readNat (writeNat n ++ rest) = some (n, rest) := by
  induction n with
  | zero => rfl
  | succ n ih =>
    have hone : writeNat (n + 1) ++ rest = '1' :: (writeNat n ++ rest) := by
      simp [writeNat, List.replicate_succ]
    simp [hone, readNat, ih]

def writeText (text : String) : List Char := writeNat text.length ++ text.toList

def readText (input : List Char) : Option (String × List Char) :=
  (readNat input).map fun (length, rest) => (String.ofList (rest.take length), rest.drop length)

@[simp] theorem readText_writeText (text : String) (rest : List Char) :
    readText (writeText text ++ rest) = some (text, rest) := by
  have hlength : text.toList.length = text.length := String.length_toList
  simp [readText, writeText, List.append_assoc, ← hlength]

def writeRat (q : Rat) : List Char :=
  (if q.num < 0 then '-' else '+') :: (writeNat q.num.natAbs ++ writeNat q.den)

def readRat : List Char → Option (Rat × List Char)
  | sign :: input => do
    let (magnitude, input) ← readNat input
    let (den, rest) ← readNat input
    let num : Int := if sign = '-' then -magnitude else magnitude
    pure (mkRat num den, rest)
  | [] => none

@[simp] theorem readRat_writeRat (q : Rat) (rest : List Char) :
    readRat (writeRat q ++ rest) = some (q, rest) := by
  have hread : ∀ sign : Char, (if sign = '-' then -(q.num.natAbs : Int) else q.num.natAbs) = q.num →
      readRat (sign :: (writeNat q.num.natAbs ++ writeNat q.den) ++ rest) = some (q, rest) := by
    intro sign hsign
    simp only [readRat, List.cons_append, List.append_assoc, readNat_writeNat, Option.bind_eq_bind,
      Option.bind_some, hsign, Rat.mkRat_self, Option.pure_def]
  apply hread
  split
  · simp only [if_true]
    omega
  · simp only [Char.reduceEq, if_false]
    omega

mutual

def Json.write : Json → List Char
  | .null => ['n']
  | .bool value => [if value then 't' else 'f']
  | .number value => 'd' :: writeRat value
  | .text value => 's' :: writeText value
  | .list values => 'l' :: writeItems values
  | .object fields => 'o' :: writeFields fields
termination_by structural value => value

def Json.writeItems : List Json → List Char
  | [] => ['.']
  | value :: values => ',' :: (value.write ++ writeItems values)
termination_by structural values => values

def Json.writeFields : List (String × Json) → List Char
  | [] => ['.']
  | field :: fields => ',' :: (writeField field ++ writeFields fields)
termination_by structural fields => fields

def Json.writeField : String × Json → List Char
  | (name, value) => writeText name ++ value.write
termination_by structural field => field

end

mutual

/-- The fuel bounds the nesting and the number of items. -/
def Json.read : Nat → List Char → Option (Json × List Char)
  | 0, _ => none
  | fuel + 1, tag :: input =>
    match tag with
    | 'n' => some (.null, input)
    | 't' => some (.bool true, input)
    | 'f' => some (.bool false, input)
    | 'd' => (readRat input).map fun (value, rest) => (.number value, rest)
    | 's' => (readText input).map fun (value, rest) => (.text value, rest)
    | 'l' => (readItems fuel input).map fun (values, rest) => (.list values, rest)
    | 'o' => (readFields fuel input).map fun (fields, rest) => (.object fields, rest)
    | _ => none
  | _ + 1, [] => none

def Json.readItems : Nat → List Char → Option (List Json × List Char)
  | 0, _ => none
  | _ + 1, '.' :: rest => some ([], rest)
  | fuel + 1, ',' :: input => do
    let (value, input) ← Json.read fuel input
    let (values, rest) ← readItems fuel input
    pure (value :: values, rest)
  | _ + 1, _ => none

def Json.readFields : Nat → List Char → Option (List (String × Json) × List Char)
  | 0, _ => none
  | _ + 1, '.' :: rest => some ([], rest)
  | fuel + 1, ',' :: input => do
    let (name, input) ← readText input
    let (value, input) ← Json.read fuel input
    let (fields, rest) ← readFields fuel input
    pure ((name, value) :: fields, rest)
  | _ + 1, _ => none

end

mutual

theorem Json.read_write : (value : Json) → (fuel : Nat) → (rest : List Char) →
    value.write.length ≤ fuel → Json.read fuel (value.write ++ rest) = some (value, rest)
  | value, 0, rest, h => by
    cases value <;> simp [Json.write] at h
  | .null, fuel + 1, rest, _ => by simp [Json.write, Json.read]
  | .bool value, fuel + 1, rest, _ => by cases value <;> simp [Json.write, Json.read]
  | .number value, fuel + 1, rest, _ => by simp [Json.write, Json.read]
  | .text value, fuel + 1, rest, _ => by simp [Json.write, Json.read]
  | .list values, fuel + 1, rest, h => by
    have ih := Json.readItems_writeItems values fuel rest (by simpa [Json.write] using h)
    simp [Json.write, Json.read, ih]
  | .object fields, fuel + 1, rest, h => by
    have ih := Json.readFields_writeFields fields fuel rest (by simpa [Json.write] using h)
    simp [Json.write, Json.read, ih]

theorem Json.readItems_writeItems : (values : List Json) → (fuel : Nat) → (rest : List Char) →
    (Json.writeItems values).length ≤ fuel →
      Json.readItems fuel (Json.writeItems values ++ rest) = some (values, rest)
  | values, 0, rest, h => by cases values <;> simp [Json.writeItems] at h
  | [], fuel + 1, rest, _ => by simp [Json.writeItems, Json.readItems]
  | value :: values, fuel + 1, rest, h => by
    simp only [Json.writeItems, List.length_cons, List.length_append] at h
    have hvalue := Json.read_write value fuel (Json.writeItems values ++ rest) (by omega)
    have hvalues := Json.readItems_writeItems values fuel rest (by omega)
    simp [Json.writeItems, Json.readItems, hvalue, hvalues]

theorem Json.readFields_writeFields : (fields : List (String × Json)) → (fuel : Nat) →
    (rest : List Char) → (Json.writeFields fields).length ≤ fuel →
      Json.readFields fuel (Json.writeFields fields ++ rest) = some (fields, rest)
  | fields, 0, rest, h => by cases fields <;> simp [Json.writeFields] at h
  | [], fuel + 1, rest, _ => by simp [Json.writeFields, Json.readFields]
  | (name, value) :: fields, fuel + 1, rest, h => by
    simp only [Json.writeFields, Json.writeField, List.length_cons, List.length_append] at h
    have hvalue := Json.read_write value fuel (Json.writeFields fields ++ rest) (by omega)
    have hfields := Json.readFields_writeFields fields fuel rest (by omega)
    simp [Json.writeFields, Json.writeField, Json.readFields, hvalue, hfields]

end

def plainCodec : JwtCodec where
  encode payload _ _ := some (String.ofList (Json.writeFields payload))
  decode token _ _ _ now :=
    match Json.readFields token.length token.toList with
    | some (payload, []) =>
      if ((Payload.get payload "exp").number?).any fun exp =>
          decide (exp * 1000000 ≤ ((now : Int) : Rat)) then
        .error .expired
      else .ok payload
    | _ => .error .invalid

theorem plainCodec_keyed (settings : Settings) (h : settings.securityPublicKeyPem ≠ "") :
    TokenService.Keyed ⟨settings, plainCodec⟩ where
  publicKey := h
  signs payload _ := ⟨String.ofList (Json.writeFields payload), rfl⟩
  decodes := by
    intro payload token now hsigned _ hlive
    obtain ⟨issued, expiry, _, hexp, _, hnow⟩ := hlive
    have htoken : token = String.ofList (Json.writeFields payload) := (Option.some.inj hsigned).symm
    have hread : Json.readFields token.length token.toList = some (payload, []) := by
      have hfields := Json.readFields_writeFields payload (Json.writeFields payload).length []
        le_rfl
      simpa [htoken] using hfields
    have hbefore : ¬ (expiry : Rat) * 1000000 ≤ ((now : Int) : Rat) := by
      rw [not_le]
      exact_mod_cast hnow
    simp [plainCodec, hread, hexp, Json.number?, hbefore]

/-- The token is good in its last microsecond, and a client can exchange it then. -/
theorem clerks_token_is_verified : ∃ token payload read token',
    TokenService.issue ⟨clerkSettings, plainCodec⟩ ⟨5, "first"⟩ clerkClaims = .ok token ∧
      TokenService.verify ⟨clerkSettings, plainCodec⟩ (seconds 3600 - 1) token = .ok payload ∧
      payload.get "act" = .null ∧ userTokenClaims payload = .ok read ∧
      TokenService.issue ⟨clerkSettings, plainCodec⟩ ⟨seconds 3600 - 1, "second"⟩
        (read.exchanged ["sales.order.read"] "reports") = .ok token' := by
  have hkeys : TokenService.Keyed ⟨clerkSettings, plainCodec⟩ :=
    plainCodec_keyed clerkSettings (by decide)
  have hshape : validateActorClaimShape clerkClaims = .ok () := by decide
  obtain ⟨token, htoken⟩ := TokenService.issue_of_shape hkeys ⟨5, "first"⟩ (by decide) (by decide)
    hshape (by decide)
  obtain ⟨payload, permissions, hverify, hcarries, _, hpermissions, hexchange⟩ :=
    token_round_trip ⟨clerkSettings, plainCodec⟩ hkeys ⟨5, "first"⟩ clerkClaims htoken
      (seconds 3600 - 1) (by decide) (by decide)
  obtain ⟨read, hread, _, hissue⟩ := hexchange rfl (by decide) (by decide) (by decide)
  have hsubset : ["sales.order.read"] ⊆ permissions := by
    simp [hpermissions, clerkClaims]
  obtain ⟨token', htoken'⟩ := hissue ["sales.order.read"] "reports"
    ⟨seconds 3600 - 1, "second"⟩ hsubset
  exact ⟨token, payload, read, token', htoken, hverify, hcarries.act, hread, htoken'⟩

end VerigenceSecurity
