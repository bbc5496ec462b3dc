import VerigenceSecurity.Core
import Mathlib.Algebra.Order.Ring.Unbundled.Rat
import Mathlib.Data.List.MinMax

/-! # Where and when a user may work

Geo samples against assigned locations, and local schedules against the clock. The stored
coordinates are rationals, those of a sample may be NaN. The great-circle distance is a parameter of
the model, and so is the time zone database.
-/

namespace VerigenceSecurity
set_option autoImplicit false

/-! ## Geo -/

/-- The capture time is an instant, a naive one having been read as UTC. -/
structure GeoSample where
  latitude : PyFloat
  longitude : PyFloat
  accuracyMeters : PyFloat
  capturedAt : Instant
  source : GeoSource
  integrityStatus : GeoIntegrityStatus
  integrityReason : Option String := none
  deriving DecidableEq, Repr

structure LocationCandidate where
  locationId : Uuid
  latitude : Rat
  longitude : Rat
  allowedRadiusMeters : Rat
  timezoneIana : String
  scheduleId : Uuid
  deriving DecidableEq, Repr

/-- `haversine_meters` in floating point. For opposite points rounding may take the argument of
`asin` over 1, which raises `ValueError`. -/
abbrev Haversine := PyFloat → PyFloat → Rat → Rat → Except Failure PyFloat

/-- Neither comparison with a NaN holds, so a NaN accuracy is let through. -/
def validateGeo (sample : GeoSample) (maxAccuracyMeters : PyFloat) (maxAgeSeconds : Int)
    (now : Instant) : Except Failure Unit :=
  let age : Int := now - sample.capturedAt
  if sample.integrityStatus = .suspected then
    .error (securityError .geoIntegrityFailed sample.integrityReason)
  else if sample.accuracyMeters.exceeds maxAccuracyMeters then
    .error (securityError .geoAccuracyInsufficient)
  else if age < 0 ∨ seconds maxAgeSeconds < age then .error (securityError .geoStale)
  else .ok ()

namespace LocationCandidate

def distance (haversine : Haversine) (sample : GeoSample) (candidate : LocationCandidate) :
    Except Failure PyFloat :=
  haversine sample.latitude sample.longitude candidate.latitude candidate.longitude

def metersWithin (haversine : Haversine) (sample : GeoSample) (candidate : LocationCandidate) :
    Option Rat :=
  match candidate.distance haversine sample with
  | .ok (.number meters) => if meters ≤ candidate.allowedRadiusMeters then some meters else none
  | _ => none

end LocationCandidate

/-- The loop over the candidates; only a number is compared with the radius successfully. -/
def locationMatches (haversine : Haversine) (sample : GeoSample) :
    List LocationCandidate → Except Failure (List (LocationCandidate × Rat))
  | [] => .ok []
  | candidate :: candidates => do
    let distance ← candidate.distance haversine sample
    let found ← locationMatches haversine sample candidates
    match distance with
    | .number meters =>
      .ok (if meters ≤ candidate.allowedRadiusMeters then (candidate, meters) :: found else found)
    | _ => .ok found

/-- The first of the nearest candidates whose radius contains the position. -/
def matchLocation (haversine : Haversine) (sample : GeoSample) (candidates : List LocationCandidate) :
    Except Failure (LocationCandidate × Rat) :=
  if candidates = [] then .error (securityError .locationNotAssigned)
  else do
    let found ← locationMatches haversine sample candidates
    match found.argmin Prod.snd with
    | none => .error (securityError .locationNotAllowed)
    | some nearest => .ok nearest

section Matching

variable {haversine : Haversine} {sample : GeoSample} {candidates : List LocationCandidate}
  {location : LocationCandidate} {distance : Rat}

def candidatesAround (haversine : Haversine) (sample : GeoSample)
    (candidates : List LocationCandidate) : List (LocationCandidate × Rat) :=
  candidates.filterMap fun candidate =>
    (candidate.metersWithin haversine sample).map (candidate, ·)

theorem locationMatches_cons {candidate : LocationCandidate} {value : PyFloat}
    (h : candidate.distance haversine sample = .ok value) :
    locationMatches haversine sample (candidate :: candidates) =
      (locationMatches haversine sample candidates).map fun found =>
        ((candidate.metersWithin haversine sample).map (candidate, ·)).toList ++ found := by
  simp only [locationMatches, h, LocationCandidate.metersWithin, bind, Except.bind]
  cases locationMatches haversine sample candidates with
  | error e => rfl
  | ok found =>
    cases value with
    | nan | infinity => rfl
    | number meters =>
      simp only [Except.map]
      split <;> rfl

/-- The loop ends unless the distance to a candidate cannot be computed. -/
theorem locationMatches_eq_ok_iff {found : List (LocationCandidate × Rat)} :
    locationMatches haversine sample candidates = .ok found ↔
      (∀ candidate ∈ candidates, ∃ value, candidate.distance haversine sample = .ok value) ∧
        found = candidatesAround haversine sample candidates := by
  induction candidates generalizing found with
  | nil => simp [locationMatches, candidatesAround, eq_comm]
  | cons candidate candidates ih =>
    cases hdistance : candidate.distance haversine sample with
    | error e => simp [locationMatches, hdistance, bind, Except.bind]
    | ok value =>
      have haround : candidatesAround haversine sample (candidate :: candidates) =
          ((candidate.metersWithin haversine sample).map (candidate, ·)).toList ++
            candidatesAround haversine sample candidates := by
        unfold candidatesAround
        cases hwithin : candidate.metersWithin haversine sample <;> simp [hwithin]
      rw [locationMatches_cons hdistance, haround]
      constructor
      · intro h
        cases hrest : locationMatches haversine sample candidates with
        | error e =>
          rw [hrest] at h
          cases h
        | ok rest =>
          rw [hrest] at h
          obtain ⟨hothers, rfl⟩ := ih.mp hrest
          cases h
          exact ⟨List.forall_mem_cons.mpr ⟨⟨value, hdistance⟩, hothers⟩, rfl⟩
      · rintro ⟨hall, rfl⟩
        rw [ih.mpr ⟨(List.forall_mem_cons.mp hall).2, rfl⟩]
        rfl

theorem matchLocation_eq_ok_iff :
    matchLocation haversine sample candidates = .ok (location, distance) ↔
      (∀ candidate ∈ candidates, ∃ value, candidate.distance haversine sample = .ok value) ∧
        (candidatesAround haversine sample candidates).argmin Prod.snd = some (location, distance) := by
  unfold matchLocation
  constructor
  · intro h
    split at h
    · cases h
    · cases hloop : locationMatches haversine sample candidates with
      | error e =>
        rw [hloop] at h
        cases h
      | ok found =>
        obtain ⟨hall, rfl⟩ := locationMatches_eq_ok_iff.mp hloop
        simp only [hloop, bind, Except.bind] at h
        split at h
        · cases h
        · rename_i hnearest
          cases h
          exact ⟨hall, hnearest⟩
  · rintro ⟨hall, hnearest⟩
    have hassigned : candidates ≠ [] := by
      rintro rfl
      cases hnearest
    rw [if_neg hassigned, locationMatches_eq_ok_iff.mpr ⟨hall, rfl⟩]
    simp only [bind, Except.bind, hnearest]

end Matching

/-! ## Schedules -/

/-- A time zone as `astimezone` uses it: the offset that applies at an instant, and the
one a wall-clock time is read with, the first when the time occurs twice. -/
structure Zone where
  offsetAt : Instant → Int
  offsetOfWall : Int → Int

/-- `ZoneInfo(key)`, without a value when the key is unknown. -/
abbrev ZoneInfo := String → Option Zone

def Zone.toWall (zone : Zone) (t : Instant) : Int := t + zone.offsetAt t

def Zone.ofWall (zone : Zone) (wall : Int) : Instant := wall - zone.offsetOfWall wall

structure ScheduleWindow where
  isoDayOfWeek : Int
  startLocalTime : Int
  endLocalTime : Int
  crossesMidnight : Bool
  deriving DecidableEq, Repr

/-- The local time is a wall-clock time, in microseconds from the epoch's midnight. -/
structure ScheduleDecision where
  localTime : Int
  authorizedUntil : Instant
  deriving DecidableEq, Repr

def dayLength : Int := seconds 86400

/-- `date()` of a wall-clock time, as the number of days since 1970-01-01. -/
def dateOf (wall : Int) : Int := wall / dayLength

/-- 1970-01-01 was a Thursday. -/
def isoWeekday (day : Int) : Int := (day + 3) % 7 + 1

def windowBounds (day : Int) (window : ScheduleWindow) : Int × Int :=
  let endDay := if window.crossesMidnight then day + 1 else day
  (day * dayLength + window.startLocalTime, endDay * dayLength + window.endLocalTime)

def ScheduleWindow.openAt (window : ScheduleWindow) (day wall : Int) : Bool :=
  decide (window.isoDayOfWeek = isoWeekday day ∧ (windowBounds day window).1 ≤ wall ∧
    wall < (windowBounds day window).2)

def openWindow? (windows : List ScheduleWindow) (wall day : Int) : Option Int :=
  (windows.find? fun window => window.openAt day wall).map fun window => (windowBounds day window).2

def evaluateSchedule (zoneInfo : ZoneInfo) (now : Instant) (timezoneIana : String)
    (windows : List ScheduleWindow) (overrideUntil : Option Instant) :
    Except Failure ScheduleDecision :=
  match overrideUntil.filter (now < ·), zoneInfo timezoneIana with
  | some authorizedUntil, some zone => .ok ⟨zone.toWall now, authorizedUntil⟩
  | some _, none => .error (.zoneInfoNotFound timezoneIana)
  | none, zone? =>
    if windows = [] then .error (securityError .accessScheduleMissing)
    else
      match zone? with
      | none => .error (.zoneInfoNotFound timezoneIana)
      | some zone =>
        let wall := zone.toWall now
        let today := dateOf wall
        match openWindow? windows wall today <|> openWindow? windows wall (today - 1) with
        | none => .error (securityError .accessOutsideAllowedTime)
        | some last => .ok ⟨wall, zone.ofWall last⟩

end VerigenceSecurity
