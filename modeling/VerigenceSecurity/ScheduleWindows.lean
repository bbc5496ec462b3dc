import VerigenceSecurity.ZoneTables

/-! # The search for an open window

`evaluate_schedule` looks at the windows of two days only. No other day has a window that
reaches the local time, so the search is complete wherever the calendar has the dates that
it computes.
-/

namespace VerigenceSecurity
set_option autoImplicit false

def ScheduleWindow.TimesOfDay (window : ScheduleWindow) : Prop :=
  0 ≤ window.startLocalTime ∧ window.startLocalTime < dayLength ∧
    0 ≤ window.endLocalTime ∧ window.endLocalTime < dayLength

instance (window : ScheduleWindow) : Decidable window.TimesOfDay :=
  inferInstanceAs (Decidable (_ ∧ _))

/-- Some day has a window that contains the wall-clock time. -/
def ScheduleOpen (windows : List ScheduleWindow) (wall : Int) : Prop :=
  ∃ day : Int, ∃ window ∈ windows, window.isoDayOfWeek = isoWeekday day ∧
    (windowBounds day window).1 ≤ wall ∧ wall < (windowBounds day window).2

def openWindowEnd? (windows : List ScheduleWindow) (wall : Int) : Option Int :=
  (openWindow? windows wall (dateOf wall)).or (openWindow? windows wall (dateOf wall - 1))

theorem dateOf_bounds (wall : Int) :
    dateOf wall * dayLength ≤ wall ∧ wall < (dateOf wall + 1) * dayLength := by
  simp only [dateOf, dayLength, seconds]
  omega

theorem ScheduleWindow.openAt_iff {window : ScheduleWindow} {day wall : Int} :
    window.openAt day wall = true ↔ window.isoDayOfWeek = isoWeekday day ∧
      (windowBounds day window).1 ≤ wall ∧ wall < (windowBounds day window).2 := by
  simp [ScheduleWindow.openAt]

/-- A window begins on its day and ends before the day after the next. -/
theorem ScheduleWindow.TimesOfDay.bounds {window : ScheduleWindow} (h : window.TimesOfDay)
    (day : Int) : day * dayLength ≤ (windowBounds day window).1 ∧
      (windowBounds day window).1 < (day + 1) * dayLength ∧
      (windowBounds day window).2 < (day + 2) * dayLength := by
  obtain ⟨hstart, hstart', hend, hend'⟩ := h
  simp only [windowBounds]
  simp only [dayLength, seconds] at *
  split <;> omega

theorem ScheduleWindow.TimesOfDay.day_eq {window : ScheduleWindow} (h : window.TimesOfDay)
    {day wall : Int} (hstart : (windowBounds day window).1 ≤ wall)
    (hend : wall < (windowBounds day window).2) : day = dateOf wall ∨ day = dateOf wall - 1 := by
  have hwall := dateOf_bounds wall
  have hwindow := h.bounds day
  simp only [dayLength, seconds] at *
  omega

theorem openWindow?_eq_some {windows : List ScheduleWindow} {wall day last : Int}
    (h : openWindow? windows wall day = some last) : ∃ window ∈ windows,
      window.openAt day wall = true ∧ (windowBounds day window).2 = last := by
  obtain ⟨window, hfind, hlast⟩ := Option.map_eq_some_iff.mp h
  have hopen := List.find?_some hfind
  exact ⟨window, List.mem_of_find?_eq_some hfind, hopen, hlast⟩

theorem openWindow?_isSome_iff {windows : List ScheduleWindow} {wall day : Int} :
    (openWindow? windows wall day).isSome ↔ ∃ window ∈ windows, window.openAt day wall = true := by
  simp [openWindow?]

theorem openWindowEnd?_eq_some {windows : List ScheduleWindow} {wall last : Int}
    (h : openWindowEnd? windows wall = some last) : ∃ day, ∃ window ∈ windows,
      window.openAt day wall = true ∧ (windowBounds day window).2 = last := by
  rcases Option.or_eq_some_iff.mp h with htoday | ⟨-, hyesterday⟩
  · exact ⟨_, openWindow?_eq_some htoday⟩
  · exact ⟨_, openWindow?_eq_some hyesterday⟩

theorem lt_of_openWindowEnd? {windows : List ScheduleWindow} {wall last : Int}
    (h : openWindowEnd? windows wall = some last) : wall < last := by
  obtain ⟨day, window, -, hopen, rfl⟩ := openWindowEnd?_eq_some h
  exact (ScheduleWindow.openAt_iff.mp hopen).2.2

/-- Two days are enough. -/
theorem openWindowEnd?_isSome_iff {windows : List ScheduleWindow}
    (htimes : ∀ window ∈ windows, window.TimesOfDay) {wall : Int} :
    (openWindowEnd? windows wall).isSome ↔ ScheduleOpen windows wall := by
  constructor
  · intro h
    obtain ⟨last, hlast⟩ := Option.isSome_iff_exists.mp h
    obtain ⟨day, window, hmem, hopen, -⟩ := openWindowEnd?_eq_some hlast
    exact ⟨day, window, hmem, ScheduleWindow.openAt_iff.mp hopen⟩
  · rintro ⟨day, window, hmem, hweekday, hstart, hend⟩
    have hopen : ∃ window ∈ windows, window.openAt day wall = true :=
      ⟨window, hmem, ScheduleWindow.openAt_iff.mpr ⟨hweekday, hstart, hend⟩⟩
    have hsome := openWindow?_isSome_iff.mpr hopen
    simp only [openWindowEnd?, Option.isSome_or, Bool.or_eq_true]
    rcases (htimes window hmem).day_eq hstart hend with rfl | rfl
    · exact .inl hsome
    · exact .inr hsome

/-- Without an override the evaluation answers with the first open window. -/
theorem evaluateSchedule_eq_ok_iff {zoneInfo : ZoneInfo} {zone : Zone} {timezoneIana : String}
    (hzone : zoneInfo timezoneIana = some zone) {now : Instant} {windows : List ScheduleWindow}
    {decision : ScheduleDecision} :
    evaluateSchedule zoneInfo now timezoneIana windows none = .ok decision ↔
      ∃ last, openWindowEnd? windows (zone.toWall now) = some last ∧
        decision = ⟨zone.toWall now, zone.ofWall last⟩ := by
  simp only [evaluateSchedule, hzone, Option.filter_none]
  split
  · rename_i hnil
    simp [hnil, openWindowEnd?, openWindow?]
  · have hsearch : (openWindow? windows (zone.toWall now) (dateOf (zone.toWall now)) <|>
        openWindow? windows (zone.toWall now) (dateOf (zone.toWall now) - 1)) =
        openWindowEnd? windows (zone.toWall now) := Option.orElse_eq_or
    rw [hsearch]
    cases openWindowEnd? windows (zone.toWall now) with
    | none => simp
    | some last => simp [eq_comm]

theorem exists_evaluateSchedule_iff {zoneInfo : ZoneInfo} {zone : Zone} {timezoneIana : String}
    (hzone : zoneInfo timezoneIana = some zone) {now : Instant} {windows : List ScheduleWindow}
    (htimes : ∀ window ∈ windows, window.TimesOfDay) :
    (∃ decision, evaluateSchedule zoneInfo now timezoneIana windows none = .ok decision) ↔
      ScheduleOpen windows (zone.toWall now) := by
  simp only [evaluateSchedule_eq_ok_iff hzone, ← openWindowEnd?_isSome_iff htimes,
    Option.isSome_iff_exists]
  constructor
  · rintro ⟨decision, last, hlast, -⟩
    exact ⟨last, hlast⟩
  · rintro ⟨last, hlast⟩
    exact ⟨_, last, hlast, rfl⟩

/-! ## The range of the calendar -/

inductive ScheduleFailure
  | overflow
  | failed (failure : Failure)
  deriving DecidableEq, Repr

/-- `date.min`, 0001-01-01. -/
def firstDate : Int := -719162

/-- `date.max`, 9999-12-31. -/
def lastDate : Int := 2932896

def checkDate (day : Int) : Except ScheduleFailure Int :=
  if firstDate ≤ day ∧ day ≤ lastDate then .ok day else .error .overflow

def checkDatetime (wall : Int) : Except ScheduleFailure Int :=
  if firstDate ≤ dateOf wall ∧ dateOf wall ≤ lastDate then .ok wall else .error .overflow

/-- `_window_bounds`, with the addition of a day that may leave the calendar. -/
def windowBoundsInCalendar (day : Int) (window : ScheduleWindow) :
    Except ScheduleFailure (Int × Int) := do
  let endDay ← if window.crossesMidnight then checkDate (day + 1) else .ok day
  .ok (day * dayLength + window.startLocalTime, endDay * dayLength + window.endLocalTime)

def openWindowInCalendar (wall day : Int) :
    List ScheduleWindow → Except ScheduleFailure (Option Int)
  | [] => .ok none
  | window :: windows =>
    if window.isoDayOfWeek ≠ isoWeekday day then openWindowInCalendar wall day windows
    else do
      let bounds ← windowBoundsInCalendar day window
      if bounds.1 ≤ wall ∧ wall < bounds.2 then .ok (some bounds.2)
      else openWindowInCalendar wall day windows

/-- `evaluate_schedule` with the dates that Python has. The day before is computed with the
list of both days, and the answer's limit only for the window found. -/
def evaluateScheduleInCalendar (zoneInfo : ZoneInfo) (now : Instant) (timezoneIana : String)
    (windows : List ScheduleWindow) (overrideUntil : Option Instant) :
    Except ScheduleFailure ScheduleDecision :=
  match overrideUntil.filter (now < ·), zoneInfo timezoneIana with
  | some authorizedUntil, some zone => do
    let wall ← checkDatetime (zone.toWall now)
    .ok ⟨wall, authorizedUntil⟩
  | some _, none => .error (.failed (.zoneInfoNotFound timezoneIana))
  | none, zone? =>
    if windows = [] then .error (.failed (securityError .accessScheduleMissing))
    else
      match zone? with
      | none => .error (.failed (.zoneInfoNotFound timezoneIana))
      | some zone => do
        let wall ← checkDatetime (zone.toWall now)
        let today := dateOf wall
        let yesterday ← checkDate (today - 1)
        let found ← openWindowInCalendar wall today windows
        let found ← match found with
          | some last => .ok (some last)
          | none => openWindowInCalendar wall yesterday windows
        match found with
        | none => .error (.failed (securityError .accessOutsideAllowedTime))
        | some last => do
          let authorizedUntil ← checkDatetime (zone.ofWall last)
          .ok ⟨wall, authorizedUntil⟩

/-- `utcoffset` lies strictly between a day west and a day east. -/
structure Zone.Bounded (zone : Zone) : Prop where
  offsetAt : ∀ t, -dayLength < zone.offsetAt t ∧ zone.offsetAt t < dayLength
  offsetOfWall : ∀ wall, -dayLength < zone.offsetOfWall wall ∧ zone.offsetOfWall wall < dayLength

theorem ZoneTable.bounded_zone (table : ZoneTable) : table.zone.Bounded :=
  ⟨fun _ => table.offset_bounds _, fun _ => table.offset_bounds _⟩

/-- The calendar is left only by a window of its last date. -/
theorem openWindowInCalendar_cases (wall day : Int) (windows : List ScheduleWindow)
    (hday : firstDate ≤ day) :
    openWindowInCalendar wall day windows = .ok (openWindow? windows wall day) ∨
      openWindowInCalendar wall day windows = .error .overflow ∧ lastDate ≤ day := by
  induction windows with
  | nil => exact .inl rfl
  | cons window windows ih =>
    simp only [openWindowInCalendar, openWindow?, List.find?_cons]
    by_cases hweekday : window.isoDayOfWeek = isoWeekday day
    · by_cases hend : window.crossesMidnight = true ∧ lastDate < day + 1
      · right
        refine ⟨?_, by omega⟩
        have hcheck : checkDate (day + 1) = .error .overflow := by
          rw [checkDate, if_neg (by omega)]
        simp [hweekday, windowBoundsInCalendar, hend.1, hcheck, bind, Except.bind]
      · have hbounds : windowBoundsInCalendar day window = .ok (windowBounds day window) := by
          simp only [windowBoundsInCalendar, windowBounds]
          split
          · rename_i hcrosses
            have hcheck : checkDate (day + 1) = .ok (day + 1) := by
              rw [checkDate, if_pos ⟨by omega, by_contra fun h => hend ⟨hcrosses, by omega⟩⟩]
            simp [hcheck, bind, Except.bind]
          · simp [bind, Except.bind]
        by_cases hopen : (windowBounds day window).1 ≤ wall ∧ wall < (windowBounds day window).2
        · left
          have hat := ScheduleWindow.openAt_iff.mpr ⟨hweekday, hopen⟩
          simp [hweekday, hbounds, hopen, hat, bind, Except.bind]
        · have hat : window.openAt day wall = false := by
            simpa [ScheduleWindow.openAt, hweekday] using hopen
          simpa [hweekday, hbounds, hopen, hat, bind, Except.bind, openWindow?] using ih
    · have hat : window.openAt day wall = false := by
        simp [ScheduleWindow.openAt, hweekday]
      simpa [hweekday, hat, openWindow?] using ih

theorem checkDatetime_ofWall {zone : Zone} (hbounded : zone.Bounded)
    {windows : List ScheduleWindow} (htimes : ∀ window ∈ windows, window.TimesOfDay)
    {wall last : Int} (hlast : openWindowEnd? windows wall = some last)
    (hfirst : firstDate < dateOf wall) :
    checkDatetime (zone.ofWall last) = .ok (zone.ofWall last) ∨
      checkDatetime (zone.ofWall last) = .error .overflow ∧ lastDate - 2 < dateOf wall := by
  obtain ⟨day, window, hmem, hopen, rfl⟩ := openWindowEnd?_eq_some hlast
  obtain ⟨-, hstart, hend⟩ := ScheduleWindow.openAt_iff.mp hopen
  have hday := (htimes window hmem).day_eq hstart hend
  have hwindow := (htimes window hmem).bounds day
  have hoffset := hbounded.offsetOfWall (windowBounds day window).2
  have hwall := dateOf_bounds wall
  have hlimit := dateOf_bounds (zone.ofWall (windowBounds day window).2)
  by_cases hcheck : firstDate ≤ dateOf (zone.ofWall (windowBounds day window).2) ∧
      dateOf (zone.ofWall (windowBounds day window).2) ≤ lastDate
  · left
    rw [checkDatetime, if_pos hcheck]
  · right
    refine ⟨by rw [checkDatetime, if_neg hcheck], ?_⟩
    simp only [Zone.ofWall] at hlimit hcheck
    simp only [dayLength, seconds] at *
    omega

/-- Within the calendar the evaluation is the one without bounds, except that it may run
over the end on the last two dates. -/
theorem evaluateScheduleInCalendar_cases {zoneInfo : ZoneInfo} {zone : Zone}
    {timezoneIana : String} (hzone : zoneInfo timezoneIana = some zone)
    (hbounded : zone.Bounded) {windows : List ScheduleWindow}
    (htimes : ∀ window ∈ windows, window.TimesOfDay) {now : Instant}
    (hfirst : firstDate < dateOf (zone.toWall now))
    (hlast : dateOf (zone.toWall now) ≤ lastDate) :
    evaluateScheduleInCalendar zoneInfo now timezoneIana windows none =
        (evaluateSchedule zoneInfo now timezoneIana windows none).mapError .failed ∨
      evaluateScheduleInCalendar zoneInfo now timezoneIana windows none = .error .overflow ∧
        lastDate - 2 < dateOf (zone.toWall now) := by
  have hnow : checkDatetime (zone.toWall now) = .ok (zone.toWall now) := by
    rw [checkDatetime, if_pos ⟨hfirst.le, hlast⟩]
  have hyesterday : checkDate (dateOf (zone.toWall now) - 1) =
      .ok (dateOf (zone.toWall now) - 1) := by
    rw [checkDate, if_pos (by omega)]
  have hlimit := fun last (hend : openWindowEnd? windows (zone.toWall now) = some last) =>
    checkDatetime_ofWall hbounded htimes hend hfirst
  simp only [evaluateScheduleInCalendar, evaluateSchedule, hzone, Option.filter_none]
  split
  · exact .inl rfl
  · simp only [hnow, hyesterday, bind, Except.bind]
    rcases openWindowInCalendar_cases (zone.toWall now) (dateOf (zone.toWall now)) windows
      hfirst.le with htoday | ⟨htoday, hover⟩
    · cases hfound : openWindow? windows (zone.toWall now) (dateOf (zone.toWall now)) with
      | some last =>
        have hend : openWindowEnd? windows (zone.toWall now) = some last := by
          simp [openWindowEnd?, hfound]
        rcases hlimit last hend with hcheck | ⟨hcheck, hdate⟩
        · left
          simp [htoday, hfound, hcheck, Except.mapError]
        · right
          simp [htoday, hfound, hcheck, hdate]
      | none =>
        rcases openWindowInCalendar_cases (zone.toWall now) (dateOf (zone.toWall now) - 1) windows
          (by omega) with hbefore | ⟨-, hover⟩
        · cases hfound' : openWindow? windows (zone.toWall now) (dateOf (zone.toWall now) - 1) with
          | some last =>
            have hend : openWindowEnd? windows (zone.toWall now) = some last := by
              simp [openWindowEnd?, hfound, hfound']
            rcases hlimit last hend with hcheck | ⟨hcheck, hdate⟩
            · left
              simp [htoday, hfound, hbefore, hfound', hcheck, Except.mapError]
            · right
              simp [htoday, hfound, hbefore, hfound', hcheck, hdate]
          | none =>
            left
            simp [htoday, hfound, hbefore, hfound', Except.mapError]
        · omega
    · right
      refine ⟨?_, by omega⟩
      simp [htoday]

/-- Looking at today and yesterday finds a window exactly if some day has one, unless the
calendar ends before the window does. -/
theorem evaluateSchedule_searches_all_days {zoneInfo : ZoneInfo} {zone : Zone}
    {timezoneIana : String} (hzone : zoneInfo timezoneIana = some zone)
    (hbounded : zone.Bounded) {windows : List ScheduleWindow}
    (htimes : ∀ window ∈ windows, window.TimesOfDay) {now : Instant}
    (hfirst : firstDate < dateOf (zone.toWall now))
    (hlast : dateOf (zone.toWall now) ≤ lastDate) :
    (evaluateScheduleInCalendar zoneInfo now timezoneIana windows none ≠ .error .overflow →
      ((∃ decision, evaluateScheduleInCalendar zoneInfo now timezoneIana windows none =
          .ok decision) ↔ ScheduleOpen windows (zone.toWall now))) ∧
    (evaluateScheduleInCalendar zoneInfo now timezoneIana windows none = .error .overflow →
      lastDate - 2 < dateOf (zone.toWall now)) := by
  have hopen : (∃ decision, evaluateSchedule zoneInfo now timezoneIana windows none =
      .ok decision) ↔ ScheduleOpen windows (zone.toWall now) :=
    exists_evaluateSchedule_iff hzone htimes
  rcases evaluateScheduleInCalendar_cases hzone hbounded htimes hfirst hlast with
    heq | ⟨heq, hdate⟩
  · rw [heq]
    cases hrun : evaluateSchedule zoneInfo now timezoneIana windows none with
    | error failure =>
      simp only [hrun, reduceCtorEq, exists_false, false_iff] at hopen
      simp [Except.mapError, hopen]
    | ok decision =>
      have hsome : ScheduleOpen windows (zone.toWall now) := hopen.mp ⟨decision, hrun⟩
      simp [Except.mapError, hsome]
  · rw [heq]
    exact ⟨fun hne => absurd rfl hne, fun _ => hdate⟩

/-! The last date, 9999-12-31, is a Friday. -/

def utc : ZoneTable := ⟨0, [], by simp, by decide⟩

def fridayNight : ScheduleWindow := ⟨5, seconds 28800, seconds 7200, true⟩

def fridayDay : ScheduleWindow := ⟨5, seconds 28800, seconds 72000, false⟩

def lastNoon : Instant := lastDate * dayLength + seconds 43200

theorem evaluateSchedule_overflows_on_last_date :
    ¬ ∀ (table : ZoneTable) (windows : List ScheduleWindow) (now : Instant),
      (∀ window ∈ windows, window.TimesOfDay) → firstDate < dateOf (table.zone.toWall now) →
      dateOf (table.zone.toWall now) ≤ lastDate →
        ((∃ decision, evaluateScheduleInCalendar (fun _ => some table.zone) now "UTC" windows
          none = .ok decision) ↔ ScheduleOpen windows (table.zone.toWall now)) := by
  intro h
  have hopen : ScheduleOpen [fridayNight, fridayDay] (utc.zone.toWall lastNoon) :=
    ⟨lastDate, fridayDay, by decide, by decide, by decide, by decide⟩
  obtain ⟨decision, hrun⟩ :=
    (h utc [fridayNight, fridayDay] lastNoon (by decide) (by decide) (by decide)).mpr hopen
  have hoverflow : evaluateScheduleInCalendar (fun _ => some utc.zone) lastNoon "UTC"
      [fridayNight, fridayDay] none = .error .overflow := rfl
  rw [hoverflow] at hrun
  cases hrun

theorem evaluateSchedule_searches_all_days_at_noon :
    (evaluateScheduleInCalendar (fun _ => some utc.zone) (seconds 129600) "UTC"
        [fridayNight, fridayDay] none ≠ .error .overflow →
      ((∃ decision, evaluateScheduleInCalendar (fun _ => some utc.zone) (seconds 129600) "UTC"
          [fridayNight, fridayDay] none = .ok decision) ↔
        ScheduleOpen [fridayNight, fridayDay] (utc.zone.toWall (seconds 129600)))) ∧
    (evaluateScheduleInCalendar (fun _ => some utc.zone) (seconds 129600) "UTC"
        [fridayNight, fridayDay] none = .error .overflow →
      lastDate - 2 < dateOf (utc.zone.toWall (seconds 129600))) :=
  evaluateSchedule_searches_all_days rfl utc.bounded_zone (by decide) (by decide) (by decide)

end VerigenceSecurity
