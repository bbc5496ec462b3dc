import Mathlib.Data.List.Dedup
import Mathlib.Data.List.Sort
import Mathlib.Data.Rat.Defs
import Mathlib.Data.String.Basic

/-! # Shared types and the error catalogue

Identifiers are the canonical text of their UUIDs. An instant counts
microseconds of UTC, the resolution of both Python and PostgreSQL.
-/

namespace VerigenceSecurity
set_option autoImplicit false

abbrev Uuid := String

abbrev Instant := Int

def seconds (n : Int) : Int := n * 1000000

def minutes (n : Int) : Int := seconds (60 * n)

theorem minutes_pos {n : Int} (h : 0 < n) : 0 < minutes n := by
  unfold minutes seconds
  omega

theorem seconds_pos {n : Int} (h : 0 < n) : 0 < seconds n := by
  unfold seconds
  omega

/-- A `float` or a `numeric`. JSON carries NaN and numbers beyond the largest float. -/
inductive PyFloat
  | nan
  | infinity
  | number (value : Rat)
  deriving DecidableEq, Repr

namespace PyFloat

instance (n : Nat) : OfNat PyFloat n := ⟨.number n⟩

/-- `x > bound`, which does not hold of NaN. -/
def exceeds : PyFloat → PyFloat → Bool
  | number value, number bound => decide (bound < value)
  | infinity, number _ => true
  | _, _ => false

/-- `numeric(precision, scale)`, rounding half away from zero. A NaN has a place in it. -/
def fitsNumeric (precision scale : Nat) : PyFloat → Bool
  | nan => true
  | infinity => false
  | number value => decide (1 / 2 - 10 ^ precision < value * 10 ^ scale ∧
      value * 10 ^ scale < 10 ^ precision - 1 / 2)

end PyFloat

/-- No column takes a text with a NUL. -/
def holdsNul (text : String) : Bool := text.toList.contains (Char.ofNat 0)

/-- What a `varchar(width)` column keeps of a text, whose excess spaces at the end are cut. -/
def storedVarchar (width : Nat) (text : String) : Option String :=
  if holdsNul text || !(text.toList.drop width).all (· == ' ') then none
  else some (String.ofList (text.toList.take width))

def fitsVarchar (width : Nat) (text : String) : Bool := (storedVarchar width text).isSome

/-- A text shorter than the column is neither cut nor the rest of a longer one. -/
theorem storedVarchar_eq_iff {width : Nat} {text stored short : String} (hshort : short.length < width)
    (h : storedVarchar width text = some stored) : text = short ↔ stored = short := by
  unfold storedVarchar at h
  split at h
  · cases h
  · obtain rfl := Option.some.inj h
    constructor
    · rintro rfl
      rw [List.take_of_length_le (String.length_toList.trans_le hshort.le), String.ofList_toList]
    · intro hcut
      have hlength : (text.toList.take width).length < width := by
        rw [← String.length_ofList, hcut]
        exact hshort
      have hwhole : text.toList.length ≤ width := by
        rw [List.length_take] at hlength
        omega
      rwa [List.take_of_length_le hwhole, String.ofList_toList] at hcut

example : storedVarchar 4 "HQ   " = some "HQ  " ∧ storedVarchar 4 "HQ  1" = none := by
  decide

/-- `valid_from <= now AND valid_to > now`, an absent bound being open. -/
def validAt (validFrom validTo : Option Instant) (now : Instant) : Bool :=
  validFrom.all (fun t => decide (t ≤ now)) && validTo.all (fun t => decide (now < t))

/-- `sorted(set(values))`. -/
def sortedSet (values : List String) : List String :=
  values.dedup.insertionSort (· ≤ ·)

@[simp] theorem mem_sortedSet {values : List String} {v : String} :
    v ∈ sortedSet values ↔ v ∈ values := by
  simp [sortedSet, List.mem_insertionSort]

theorem nodup_sortedSet (values : List String) : (sortedSet values).Nodup :=
  (List.perm_insertionSort (· ≤ ·) values.dedup).nodup_iff.mpr (List.nodup_dedup values)

theorem pairwise_sortedSet (values : List String) : (sortedSet values).Pairwise (· < ·) := by
  have hle : (sortedSet values).Pairwise (· ≤ ·) := List.pairwise_insertionSort _ _
  have hne : (sortedSet values).Pairwise (· ≠ ·) := nodup_sortedSet values
  exact (hle.and hne).imp fun h => lt_of_le_of_ne h.1 h.2

theorem sortedSet_congr {xs ys : List String} (h : ∀ v, v ∈ xs ↔ v ∈ ys) :
    sortedSet xs = sortedSet ys := by
  have members : ∀ v, v ∈ xs.dedup ↔ v ∈ ys.dedup := by simpa using h
  have perm : xs.dedup.Perm ys.dedup :=
    (List.perm_ext_iff_of_nodup (List.nodup_dedup xs) (List.nodup_dedup ys)).mpr members
  exact (((List.perm_insertionSort _ _).trans perm).trans
    (List.perm_insertionSort _ _).symm).eq_of_pairwise'
    (List.pairwise_insertionSort _ _) (List.pairwise_insertionSort _ _)

inductive ActorType
  | user | system | serviceIntegration
  deriving DecidableEq, Repr

inductive IdentityProvider
  | clerk | devMock
  deriving DecidableEq, Repr

def IdentityProvider.text : IdentityProvider → String
  | .clerk => "CLERK"
  | .devMock => "DEV_MOCK"

inductive GeoSource
  | native | browser
  deriving DecidableEq, Repr

inductive GeoIntegrityStatus
  | normal | suspected | unknown
  deriving DecidableEq, Repr

inductive VpnStatus
  | detected | notDetected | unknown
  deriving DecidableEq, Repr

inductive PolicyAction
  | deny | flag
  deriving DecidableEq, Repr

/-! ## Errors -/

inductive ErrorCode
  | authTokenInvalid | authTokenExpired | userNotOnboarded | userNotActive
  | tenantNotActive | tenantSecurityNotReady | tenantMembershipRequired
  | tenantMembershipInactive | deviceNotRegistered | deviceApprovalRequired
  | deviceNotActive | deviceLimitReached | geoRequired | geoPermissionDenied
  | geoUnavailable | geoStale | geoAccuracyInsufficient | locationNotAssigned
  | locationNotAllowed | accessOutsideAllowedTime | accessScheduleMissing
  | vpnAccessDenied | networkRiskUnknownDenied | roleRequired | permissionDenied
  | identityProviderUnavailable | databaseUnavailable | signingKeyUnavailable
  | accessSessionAlreadyActive | accessSessionContextConflict | sessionRevoked
  | principalNotActive | principalTenantScopeRequired | machineCredentialInvalid
  | machineCredentialExpired | activationRequirementsNotMet | actorTypeNotAllowed
  | tenantOffboarding | geoIntegrityFailed | correlationIdInvalid
  | retentionPolicyNotConfigured | tenantAlreadyOffboarded
  deriving DecidableEq, Repr

/-- `ERRORS`: the HTTP status and the title of every code. -/
def errors : ErrorCode → Nat × String
  | .authTokenInvalid => (401, "Authentication token is invalid")
  | .authTokenExpired => (401, "Authentication token has expired")
  | .userNotOnboarded => (403, "User is not onboarded")
  | .userNotActive => (403, "User is not active")
  | .tenantNotActive => (403, "Tenant is not active")
  | .tenantSecurityNotReady => (403, "Tenant security configuration is not ready")
  | .tenantMembershipRequired => (403, "Tenant membership is required")
  | .tenantMembershipInactive => (403, "Tenant membership is inactive")
  | .deviceNotRegistered => (403, "Device is not registered")
  | .deviceApprovalRequired => (403, "Device approval is required")
  | .deviceNotActive => (403, "Device is not active")
  | .deviceLimitReached => (409, "Device limit reached")
  | .geoRequired => (403, "Geo context is required")
  | .geoPermissionDenied => (403, "Geo permission was denied")
  | .geoUnavailable => (403, "Geo context is unavailable")
  | .geoStale => (403, "Geo context is stale")
  | .geoAccuracyInsufficient => (403, "Geo accuracy is insufficient")
  | .locationNotAssigned => (403, "No active assigned location")
  | .locationNotAllowed => (403, "Current location is not allowed")
  | .accessOutsideAllowedTime => (403, "Access is outside allowed time")
  | .accessScheduleMissing => (403, "Access schedule is missing")
  | .vpnAccessDenied => (403, "VPN access is denied")
  | .networkRiskUnknownDenied => (403, "Unknown network risk is denied")
  | .roleRequired => (403, "An active role is required")
  | .permissionDenied => (403, "Permission denied")
  | .identityProviderUnavailable => (503, "Identity provider is unavailable")
  | .databaseUnavailable => (503, "Security database is unavailable")
  | .signingKeyUnavailable => (503, "Security signing key is unavailable")
  | .accessSessionAlreadyActive => (409, "Access session is already active")
  | .accessSessionContextConflict => (409, "Active access session context conflicts")
  | .sessionRevoked => (401, "Access session is revoked")
  | .principalNotActive => (403, "Security principal is not active")
  | .principalTenantScopeRequired => (403, "Principal Tenant scope is required")
  | .machineCredentialInvalid => (401, "Machine credential is invalid")
  | .machineCredentialExpired => (401, "Machine credential has expired")
  | .activationRequirementsNotMet => (409, "Tenant activation requirements are not met")
  | .actorTypeNotAllowed => (403, "Actor type is not allowed for this operation")
  | .tenantOffboarding => (403, "Tenant is offboarding or offboarded")
  | .geoIntegrityFailed => (403, "Geo integrity check failed")
  | .correlationIdInvalid => (400, "Invalid correlation ID")
  | .retentionPolicyNotConfigured => (409, "Security retention policy is not configured")
  | .tenantAlreadyOffboarded => (409, "Tenant is already offboarded")

structure SecurityError where
  code : ErrorCode
  statusCode : Nat
  title : String
  detail : Option String := none
  deriving DecidableEq, Repr

structure RoleReference where
  tenantId : Uuid
  roleId : Uuid
  roleKey : String
  roleName : String
  deriving DecidableEq, Repr

inductive Constraint
  | unique | foreignKey | check
  deriving DecidableEq, Repr

/-- What a call can raise: the errors of the code, and those of the libraries it runs on. -/
inductive Failure
  | security (error : SecurityError)
  | valueError (message : String)
  | lookupError (message : String)
  | runtimeError (message : String)
  | typeError (message : String)
  | moduleCatalog (message : String)
  | retirementConflict (permissionKey : String) (affectedRoles : List RoleReference)
  | integrityError (constraint : Constraint)
  | dataError
  | zoneInfoNotFound (key : String)
  | clerk (message : String) (statusCode : Option Nat := none)
  deriving DecidableEq, Repr

def securityError (code : ErrorCode) (detail : Option String := none) : Failure :=
  .security ⟨code, (errors code).1, (errors code).2, detail⟩

/-- Every code of the catalogue is a client or a server error with a title. -/
theorem errors_wellFormed (code : ErrorCode) :
    400 ≤ (errors code).1 ∧ (errors code).1 < 600 ∧ (errors code).2 ≠ "" := by
  cases code <;> decide

end VerigenceSecurity
