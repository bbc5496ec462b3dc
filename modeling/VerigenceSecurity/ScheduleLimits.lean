import VerigenceSecurity.ScheduleWindows

/-! # The limit of a schedule

A window is tested on the local clock, and its end is returned as an instant. The two
disagree where the offset of the zone changes: the end may have been shown before, by a
clock that has been set back since, and the clock may be changed while the window is open.
-/

namespace VerigenceSecurity
set_option autoImplicit false

namespace ZoneTable

/-- No change of the offset up to now has happened at a local time later than this one, by
the clock that was in force. -/
def NotPassed (table : ZoneTable) (wall : Int) (now : Instant) : Prop :=
  ∀ k < table.transitions.length, table.ending k ≤ now → table.ending k + table.offset k ≤ wall

instance (table : ZoneTable) (wall : Int) (now : Instant) : Decidable (table.NotPassed wall now) :=
  Nat.decidableBallLT _ _

/-- Every period is at least as long as the clock is set back at its beginning and at its
end. -/
def Spaced (table : ZoneTable) : Prop :=
  ∀ k, k + 1 < table.transitions.length →
    table.ending k + table.offset k ≤ table.ending (k + 1) + table.offset (k + 1) ∧
    table.ending k + table.offset (k + 1) ≤ table.ending (k + 1) + table.offset (k + 2)

instance (table : ZoneTable) : Decidable table.Spaced :=
  decidable_of_iff (∀ k < table.transitions.length - 1,
      table.ending k + table.offset k ≤ table.ending (k + 1) + table.offset (k + 1) ∧
      table.ending k + table.offset (k + 1) ≤ table.ending (k + 1) + table.offset (k + 2)) (by
    unfold Spaced
    constructor
    · intro h k hk
      exact h k (by omega)
    · intro h k hk
      exact h k (by omega))

theorem Spaced.monotone {table : ZoneTable} (h : table.Spaced) {j k : Nat} (hjk : j ≤ k)
    (hk : k < table.transitions.length) :
    table.ending j + table.offset j ≤ table.ending k + table.offset k ∧
      table.ending j + table.offset (j + 1) ≤ table.ending k + table.offset (k + 1) := by
  induction k, hjk using Nat.le_induction with
  | base => exact ⟨le_refl _, le_refl _⟩
  | succ k _ ih =>
    obtain ⟨hbefore, hafter⟩ := ih (by omega)
    obtain ⟨hbefore', hafter'⟩ := h k hk
    exact ⟨hbefore.trans hbefore', hafter.trans hafter'⟩

theorem lt_ofWall (table : ZoneTable) {now : Instant} {last : Int}
    (hopen : table.zone.toWall now < last) (h : table.NotPassed last now) :
    now < table.zone.ofWall last := by
  rw [table.toWall_zone] at hopen
  rw [table.ofWall_zone]
  have hnow := table.periodAt_le now
  rcases Nat.lt_trichotomy (table.periodOfWall last) (table.periodAt now) with hlt | heq | hgt
  · -- The end is read in an earlier period: the clock had not shown it by the end of that one.
    have hlen : table.periodOfWall last < table.transitions.length := by omega
    have hlast := table.lt_of_periodOfWall rfl hlen
    have hending := (table.lt_periodAt_iff hlen).mp hlt
    have hpassed := h _ hlen hending
    rcases Nat.lt_or_ge (table.periodOfWall last + 1) (table.periodAt now) with hnext | hnext
    · have hlen' : table.periodOfWall last + 1 < table.transitions.length := by omega
      have hpassed' := h _ hlen' ((table.lt_periodAt_iff hlen').mp hnext)
      have horder := table.ending_lt_ending (Nat.lt_add_one _) hlen'
      unfold Instant at *
      omega
    · have hperiod : table.periodAt now = table.periodOfWall last + 1 := by omega
      rw [hperiod] at hopen
      unfold Instant at *
      omega
  · rw [heq]
    unfold Instant at *
    omega
  · obtain ⟨k, hk⟩ : ∃ k, table.periodOfWall last = k + 1 :=
      ⟨table.periodOfWall last - 1, by omega⟩
    have hlen : k < table.transitions.length := by
      have := table.periodOfWall_le last
      unfold Instant at *
      omega
    have hlast := table.le_of_periodOfWall hk
    have hending := (table.lt_periodAt_iff hlen (t := now)).not.mp (by omega)
    rw [hk]
    unfold Instant at *
    omega

theorem Spaced.notPassed {table : ZoneTable} (hspaced : table.Spaced) {now : Instant} {last : Int}
    (hopen : table.zone.toWall now < last) (h : now < table.zone.ofWall last) :
    table.NotPassed last now := by
  intro k hk hending
  rw [table.toWall_zone] at hopen
  rw [table.ofWall_zone] at h
  by_contra hpassed
  have hperiod := (table.lt_periodAt_iff hk).mpr hending
  -- A local time that the clock of period `k` has passed is read in that period at the latest.
  have hle : table.periodOfWall last ≤ k := by
    by_contra hgt
    obtain ⟨j, hj⟩ : ∃ j, table.periodOfWall last = j + 1 :=
      ⟨table.periodOfWall last - 1, by omega⟩
    have hjlen : j < table.transitions.length := by
      have := table.periodOfWall_le last
      unfold Instant at *
      omega
    have hlast := table.le_of_periodOfWall hj
    have hmono := hspaced.monotone (by omega : k ≤ j) hjlen
    unfold Instant at *
    omega
  have hlen : table.periodOfWall last < table.transitions.length := by omega
  have hlast := table.lt_of_periodOfWall rfl hlen
  have hpast := (table.lt_periodAt_iff hlen).mp (by omega : _ < table.periodAt now)
  obtain ⟨m, hm⟩ : ∃ m, table.periodAt now = m + 1 := ⟨table.periodAt now - 1, by omega⟩
  have hmlen : m < table.transitions.length := by
    have := table.periodAt_le now
    unfold Instant at *
    omega
  have hbegin := (table.lt_periodAt_iff hmlen).mp (by omega : m < table.periodAt now)
  have hmono := (hspaced.monotone (by omega : table.periodOfWall last ≤ m) hmlen).2
  rw [hm] at hopen
  unfold Instant at *
  omega

end ZoneTable
theorem evaluateSchedule_of_override_over {zoneInfo : ZoneInfo} {now : Instant}
    {timezoneIana : String} {windows : List ScheduleWindow} {overrideUntil : Option Instant}
    (h : ∀ authorizedUntil ∈ overrideUntil, ¬ now < authorizedUntil) :
    evaluateSchedule zoneInfo now timezoneIana windows overrideUntil =
      evaluateSchedule zoneInfo now timezoneIana windows none := by
  have hfilter : overrideUntil.filter (now < ·) = none := by
    cases overrideUntil with
    | none => rfl
    | some authorizedUntil => simpa [Option.filter] using h authorizedUntil rfl
  simp only [evaluateSchedule, hfilter, Option.filter_none]

/-! ## Limits that are not over -/

/-- An override is in force, or the end of the open window has not been passed by a clock
that has been changed since. -/
def LimitAhead (table : ZoneTable) (now : Instant) (windows : List ScheduleWindow)
    (overrideUntil : Option Instant) : Prop :=
  (∃ authorizedUntil ∈ overrideUntil, now < authorizedUntil) ∨
    ∀ last ∈ openWindowEnd? windows (table.zone.toWall now), table.NotPassed last now

/-- The limit lies ahead where the end has not been shown before; on a table whose
transitions are spaced, only there. -/
theorem authorizedUntil_is_later_iff {zoneInfo : ZoneInfo} {table : ZoneTable}
    {timezoneIana : String} (hzone : zoneInfo timezoneIana = some table.zone) (now : Instant)
    (windows : List ScheduleWindow) (overrideUntil : Option Instant) :
    (LimitAhead table now windows overrideUntil →
      ∀ decision, evaluateSchedule zoneInfo now timezoneIana windows overrideUntil = .ok decision →
        now < decision.authorizedUntil) ∧
    (table.Spaced →
      ((∀ decision, evaluateSchedule zoneInfo now timezoneIana windows overrideUntil =
        .ok decision → now < decision.authorizedUntil) ↔
          LimitAhead table now windows overrideUntil)) := by
  have hover : ∀ authorizedUntil ∈ overrideUntil, now < authorizedUntil → ∀ decision,
      evaluateSchedule zoneInfo now timezoneIana windows overrideUntil = .ok decision →
        now < decision.authorizedUntil := by
    rintro authorizedUntil hmem hlt decision hrun
    obtain rfl : overrideUntil = some authorizedUntil := hmem
    simp only [evaluateSchedule, hzone, Option.filter_some, hlt, decide_true, if_true] at hrun
    cases hrun
    exact hlt
  have hahead : LimitAhead table now windows overrideUntil → ∀ decision,
      evaluateSchedule zoneInfo now timezoneIana windows overrideUntil = .ok decision →
        now < decision.authorizedUntil := by
    intro h decision hrun
    by_cases hactive : ∃ authorizedUntil ∈ overrideUntil, now < authorizedUntil
    · obtain ⟨authorizedUntil, hmem, hlt⟩ := hactive
      exact hover authorizedUntil hmem hlt decision hrun
    · have hpassed := h.resolve_left hactive
      rw [evaluateSchedule_of_override_over fun authorizedUntil hmem hlt =>
        hactive ⟨authorizedUntil, hmem, hlt⟩] at hrun
      obtain ⟨last, hlast, rfl⟩ := (evaluateSchedule_eq_ok_iff hzone).mp hrun
      exact table.lt_ofWall (lt_of_openWindowEnd? hlast) (hpassed last hlast)
  constructor
  · exact hahead
  · intro hspaced
    constructor
    · intro hlater
      by_cases hactive : ∃ authorizedUntil ∈ overrideUntil, now < authorizedUntil
      · exact .inl hactive
      · right
        intro last hlast
        rw [evaluateSchedule_of_override_over fun authorizedUntil hmem hlt =>
          hactive ⟨authorizedUntil, hmem, hlt⟩] at hlater
        have hrun := (evaluateSchedule_eq_ok_iff hzone).mpr ⟨last, hlast, rfl⟩
        exact hspaced.notPassed (lt_of_openWindowEnd? hlast) (hlater _ hrun)
    · exact hahead

/-- Central Europe in the last week of October 2026: from +2 to +1 at 01:00 UTC. -/
def endOfSummerTime : ZoneTable :=
  ⟨seconds 7200, [⟨seconds 1792890000, seconds 3600⟩], by simp, by decide⟩

/-- Saturday 20:00 to Sunday 02:30. -/
def saturdayNight : ScheduleWindow := ⟨6, seconds 72000, seconds 9000, true⟩

/-- 02:15 for the second time; the limit is 02:30 for the first time. -/
theorem authorizedUntil_is_over_in_repeated_hour :
    ¬ ∀ (zoneInfo : ZoneInfo) (table : ZoneTable) (timezoneIana : String) (now : Instant)
      (windows : List ScheduleWindow) (overrideUntil : Option Instant)
      (decision : ScheduleDecision), zoneInfo timezoneIana = some table.zone →
      evaluateSchedule zoneInfo now timezoneIana windows overrideUntil = .ok decision →
        now < decision.authorizedUntil := by
  intro h
  have hlater := h (fun _ => some endOfSummerTime.zone) endOfSummerTime "Europe/Berlin"
    (seconds 1792890900) [saturdayNight] none ⟨seconds 1792894500, seconds 1792888200⟩ rfl rfl
  revert hlater
  decide

/-- At 21:00 the limit is 02:30 for the first time. -/
theorem authorizedUntil_is_later_on_saturday :
    evaluateSchedule (fun _ => some endOfSummerTime.zone) (seconds 1792868400) "Europe/Berlin"
        [saturdayNight] none = .ok ⟨seconds 1792875600, seconds 1792888200⟩ ∧
      seconds 1792868400 < seconds 1792888200 := by
  have hrun : evaluateSchedule (fun _ => some endOfSummerTime.zone) (seconds 1792868400)
      "Europe/Berlin" [saturdayNight] none =
        .ok ⟨seconds 1792875600, seconds 1792888200⟩ := rfl
  have hahead : LimitAhead endOfSummerTime (seconds 1792868400) [saturdayNight] none := by
    right
    intro last hlast
    obtain rfl : seconds 1792895400 = last := Option.some.inj hlast
    decide
  exact ⟨hrun, ((authorizedUntil_is_later_iff rfl _ _ _).2 (by decide)).mpr hahead _ hrun⟩

/-! ## Limits up to which access is allowed -/

def ShowsEnd (windows : List ScheduleWindow) (wall : Int) : Prop :=
  ∃ day : Int, ∃ window ∈ windows, window.isoDayOfWeek = isoWeekday day ∧
    wall = (windowBounds day window).2

namespace ZoneTable

/-- Every period is also as long as the clock is put forward at its beginning. -/
def Separated (table : ZoneTable) : Prop :=
  table.Spaced ∧ ∀ k, k + 1 < table.transitions.length →
    table.ending k + table.offset (k + 1) ≤ table.ending (k + 1) + table.offset k

instance (table : ZoneTable) : Decidable table.Separated :=
  decidable_of_iff (table.Spaced ∧ ∀ k < table.transitions.length - 1,
      table.ending k + table.offset (k + 1) ≤ table.ending (k + 1) + table.offset k) (by
    unfold Separated
    refine and_congr_right fun _ => ?_
    constructor
    · intro h k hk
      exact h k (by omega)
    · intro h k hk
      exact h k (by omega))

/-- A wall-clock time is read after a change that has happened before by both clocks. -/
theorem Spaced.lt_periodOfWall_iff {table : ZoneTable} (hspaced : table.Spaced) {k : Nat}
    (hk : k < table.transitions.length) (wall : Int) : k < table.periodOfWall wall ↔
      table.ending k + table.offset k ≤ wall ∧ table.ending k + table.offset (k + 1) ≤ wall := by
  constructor
  · intro hlt
    obtain ⟨j, hj⟩ : ∃ j, table.periodOfWall wall = j + 1 := ⟨table.periodOfWall wall - 1, by omega⟩
    have hjlen : j < table.transitions.length := by
      have := table.periodOfWall_le wall
      omega
    have hread := table.le_of_periodOfWall hj
    have hmono := hspaced.monotone (by omega : k ≤ j) hjlen
    unfold Instant at *
    omega
  · rintro ⟨hbefore, hafter⟩
    by_contra hle
    have hlen : table.periodOfWall wall < table.transitions.length := by omega
    have hread := table.lt_of_periodOfWall rfl hlen
    have hmono := hspaced.monotone (by omega : table.periodOfWall wall ≤ k) hk
    unfold Instant at *
    omega

/-- As long as the clock is not changed, it shows less than the end up to the limit. -/
theorem Spaced.toWall_lt {table : ZoneTable} (hspaced : table.Spaced) {now t : Instant} {last : Int}
    (hopen : table.zone.toWall now < last) (hnow : now ≤ t)
    (hperiod : table.periodAt t = table.periodAt now) (h : t < table.zone.ofWall last) :
    table.zone.toWall t < last := by
  rw [table.toWall_zone] at hopen ⊢
  rw [table.ofWall_zone] at h
  rw [hperiod]
  rcases Nat.lt_trichotomy (table.periodOfWall last) (table.periodAt now) with hlt | heq | hgt
  · -- The end is read in an earlier period, which was over before now.
    have hlen : table.periodOfWall last < table.transitions.length := by
      have := table.periodAt_le now
      omega
    have hread := table.lt_of_periodOfWall rfl hlen
    have hending := (table.lt_periodAt_iff hlen).mp hlt
    obtain ⟨m, hm⟩ : ∃ m, table.periodAt now = m + 1 := ⟨table.periodAt now - 1, by omega⟩
    have hmlen : m < table.transitions.length := by
      have := table.periodAt_le now
      omega
    have hbegin := (table.lt_periodAt_iff hmlen).mp (by omega : m < table.periodAt now)
    have hmono := (hspaced.monotone (by omega : table.periodOfWall last ≤ m) hmlen).2
    rw [hm] at hopen
    unfold Instant at *
    omega
  · rw [← heq]
    unfold Instant at *
    omega
  · -- The end is read in a later period: the clock has not shown it by the end of this one.
    have hlen : table.periodAt now < table.transitions.length := by
      have := table.periodOfWall_le last
      omega
    have hread := ((hspaced.lt_periodOfWall_iff hlen last).mp hgt).1
    have hending := (table.lt_periodAt_iff hlen (t := t)).not.mp (by omega)
    unfold Instant at *
    omega

/-- The end on the clock after a change; one that the change skips lies as far ahead of it as it
lay on the clock before. -/
def endAfter (table : ZoneTable) (k : Nat) (last : Int) : Int :=
  if table.ending k + table.offset (k + 1) ≤ last then last
  else last + (table.offset (k + 1) - table.offset k)

/-- After a change the limit lies ahead if the clock before the change had not passed the end, and
the clock after it shows less. -/
theorem Separated.lt_ofWall_iff {table : ZoneTable} (hseparated : table.Separated) {k : Nat}
    (hk : k < table.transitions.length) {t : Instant} (ht : table.periodAt t = k + 1) {last : Int} :
    t < table.zone.ofWall last ↔ table.ending k + table.offset k ≤ last ∧
      table.zone.toWall t < table.endAfter k last := by
  obtain ⟨hspaced, hforward⟩ := hseparated
  have hbegin := (table.periodAt_ending hk ht).1
  have hread := hspaced.lt_periodOfWall_iff hk last
  rw [table.toWall_zone, table.ofWall_zone, ht]
  rcases Nat.lt_trichotomy (table.periodOfWall last) k with hlt | heq | hgt
  · -- The clock had passed the end before the change, so it was over then.
    have hlen : table.periodOfWall last < table.transitions.length := by omega
    constructor
    · intro h
      have hnot := (hspaced.lt_periodOfWall_iff hlen last).not.mp (by omega)
      have horder := table.ending_lt_ending hlt hk
      have hskipped := hforward (table.periodOfWall last) (by omega)
      have hnext := table.ending_mono (by omega : table.periodOfWall last + 1 ≤ k) hk
      unfold Instant at *
      omega
    · rintro ⟨hbefore, -⟩
      obtain ⟨m, rfl⟩ : ∃ m, k = m + 1 := ⟨k - 1, by omega⟩
      have hnot := (hspaced.lt_periodOfWall_iff (k := m) (by omega) last).not.mp (by omega)
      have hmono := hspaced.monotone (by omega : m ≤ m + 1) hk
      have horder := table.ending_lt_ending (Nat.lt_add_one m) hk
      unfold Instant at *
      omega
  · have hnot := hread.not.mp (by omega)
    rw [heq]
    unfold endAfter
    unfold Instant at *
    split <;> omega
  · have hpassed := hread.mp hgt
    rw [endAfter, if_pos hpassed.2, and_iff_right hpassed.1]
    rcases Nat.eq_or_lt_of_le (by omega : k + 1 ≤ table.periodOfWall last) with heq | hlt
    · rw [← heq]
      unfold Instant at *
      omega
    · -- Both clocks have passed the next change before the end.
      obtain ⟨m, hm⟩ : ∃ m, table.periodOfWall last = m + 1 := ⟨table.periodOfWall last - 1, by omega⟩
      have hmlen : m < table.transitions.length := by
        have := table.periodOfWall_le last
        omega
      have hlen : k + 1 < table.transitions.length := by omega
      have hlast := (hspaced.lt_periodOfWall_iff hmlen last).mp (by omega)
      have hmono := hspaced.monotone (by omega : k + 1 ≤ m) hmlen
      have hnext := (table.lt_periodAt_iff hlen (t := t)).not.mp (by omega)
      have horder := table.ending_mono (by omega : k + 1 ≤ m) hmlen
      rw [hm]
      unfold Instant at *
      constructor <;> intro _ <;> omega

/-- The clock after a change shows the time, before the next change. -/
def ShownAfter (table : ZoneTable) (k : Nat) (wall : Int) : Prop :=
  table.ending k + table.offset (k + 1) ≤ wall ∧ (k + 1 < table.transitions.length →
    wall < table.ending (k + 1) + table.offset (k + 1))

theorem shownAfter_iff (table : ZoneTable) {k : Nat} (hk : k < table.transitions.length) {wall : Int} :
    table.ShownAfter k wall ↔ ∃ t, table.periodAt t = k + 1 ∧ table.zone.toWall t = wall := by
  constructor
  · rintro ⟨hbegin, hend⟩
    obtain ⟨t, ht⟩ : ∃ t : Instant, t = wall - table.offset (k + 1) := ⟨_, rfl⟩
    have hafter : k < table.periodAt t := by
      rw [table.lt_periodAt_iff hk]
      unfold Instant at *
      omega
    have hbefore : table.periodAt t ≤ k + 1 := by
      by_contra hlater
      have hlen : k + 1 < table.transitions.length := by
        have := table.periodAt_le t
        omega
      have hending := (table.lt_periodAt_iff hlen).mp (by omega : k + 1 < table.periodAt t)
      have hwall := hend hlen
      unfold Instant at *
      omega
    have hperiod : table.periodAt t = k + 1 := by omega
    refine ⟨t, hperiod, ?_⟩
    rw [table.toWall_zone, hperiod, ht]
    unfold Instant at *
    omega
  · rintro ⟨t, hperiod, rfl⟩
    rw [table.toWall_zone, hperiod]
    constructor
    · exact Int.add_le_add_right (table.periodAt_ending hk hperiod).1 _
    · intro hlen
      have hnext := (table.lt_periodAt_iff hlen (t := t)).not.mp (by omega)
      unfold Instant at *
      omega

/-- A wall-clock time that both clocks have passed at the beginning of the period, and not both at its
end. Where changes lie close together there may be several such periods. -/
def FallsIn (table : ZoneTable) (wall : Int) (period : Nat) : Prop :=
  (∀ k, period = k + 1 → table.ending k + max (table.offset k) (table.offset (k + 1)) ≤ wall) ∧
    (period < table.transitions.length →
      wall < table.ending period + max (table.offset period) (table.offset (period + 1)))

theorem fallsIn_periodOfWall (table : ZoneTable) (wall : Int) :
    table.FallsIn wall (table.periodOfWall wall) :=
  ⟨fun _ hk => table.le_of_periodOfWall hk, fun hlen => table.lt_of_periodOfWall rfl hlen⟩

end ZoneTable

/-- Within one period access ends only where a window ends. -/
theorem ZoneTable.scheduleOpen_of_periodAt_eq (table : ZoneTable) {windows : List ScheduleWindow}
    {s t : Instant} (hst : s ≤ t) (hperiod : table.periodAt s = table.periodAt t)
    (hopen : ScheduleOpen windows (table.zone.toWall s))
    (hends : ∀ r, s ≤ r → r ≤ t → ShowsEnd windows (table.zone.toWall r) →
      ScheduleOpen windows (table.zone.toWall r)) :
    ScheduleOpen windows (table.zone.toWall t) := by
  -- Each window that is open carries the induction to its own end.
  induction hdistance : (t - s).toNat using Nat.strong_induction_on generalizing s with
  | h distance ih =>
    obtain ⟨day, window, hmem, hweekday, hstart, hend⟩ := hopen
    have hs := table.toWall_zone s
    have ht := table.toWall_zone t
    rw [← hperiod] at ht
    unfold Instant at *
    by_cases hlast : table.zone.toWall t < (windowBounds day window).2
    · exact ⟨day, window, hmem, hweekday, by omega, hlast⟩
    · obtain ⟨r, hr⟩ : ∃ r : Int, r = s + ((windowBounds day window).2 - table.zone.toWall s) :=
        ⟨_, rfl⟩
      have hsr : s ≤ r := by omega
      have hrt : r ≤ t := by omega
      have hperiod' : table.periodAt r = table.periodAt s := by
        have hsr' := table.periodAt_mono hsr
        have hrt' := table.periodAt_mono hrt
        omega
      have hwall := table.toWall_zone r
      rw [hperiod'] at hwall
      have hshow : table.zone.toWall r = (windowBounds day window).2 := by
        unfold Instant at *
        omega
      have hopen' := hends r hsr hrt ⟨day, window, hmem, hweekday, hshow⟩
      exact ih (t - r).toNat (by omega) hrt (hperiod'.trans hperiod) hopen'
        (fun r' hr' => hends r' (le_trans hsr hr')) rfl

/-- The window that is open stays open until the clock, unchanged, shows its end. -/
theorem ZoneTable.scheduleOpen_of_lt (table : ZoneTable) {windows : List ScheduleWindow}
    {now t : Instant} {last : Int} (hnow : now ≤ t) (hperiod : table.periodAt now = table.periodAt t)
    (hlast : openWindowEnd? windows (table.zone.toWall now) = some last)
    (hbefore : table.zone.toWall t < last) : ScheduleOpen windows (table.zone.toWall t) := by
  obtain ⟨day, window, hmem, hopen, rfl⟩ := openWindowEnd?_eq_some hlast
  obtain ⟨hweekday, hstart, -⟩ := ScheduleWindow.openAt_iff.mp hopen
  refine ⟨day, window, hmem, hweekday, hstart.trans ?_, hbefore⟩
  rw [table.toWall_zone, table.toWall_zone, hperiod]
  exact Int.add_le_add_right hnow _

/-- As long as the clock of a period in which the end falls shows less, some window is open where the
offset changes, and at the ends of windows other than the open one. -/
def CoveredWhileAhead (table : ZoneTable) (now : Instant) (windows : List ScheduleWindow) : Prop :=
  ∀ last ∈ openWindowEnd? windows (table.zone.toWall now), ∀ period, table.FallsIn last period →
    ∀ t, now ≤ t → t + table.offset period < last →
      (table.periodAt t = table.periodAt now → last ≤ table.zone.toWall t) →
      (∃ k < table.transitions.length, t = table.ending k) ∨ ShowsEnd windows (table.zone.toWall t) →
        ScheduleOpen windows (table.zone.toWall t)

theorem CoveredWhileAhead.scheduleOpen {table : ZoneTable} {now : Instant}
    {windows : List ScheduleWindow} (h : CoveredWhileAhead table now windows) {last : Int}
    (hlast : openWindowEnd? windows (table.zone.toWall now) = some last) {t : Instant} (hnow : now ≤ t)
    (ht : t < table.zone.ofWall last) : ScheduleOpen windows (table.zone.toWall t) := by
  have hcovered := h last hlast _ (table.fallsIn_periodOfWall last)
  have hahead : ∀ r, r ≤ t → r + table.offset (table.periodOfWall last) < last := by
    intro r hr
    rw [table.ofWall_zone] at ht
    unfold Instant at *
    omega
  rcases Nat.eq_or_lt_of_le (table.periodAt_mono hnow) with heq | hlt
  · by_cases hpassed : table.zone.toWall t < last
    · exact table.scheduleOpen_of_lt hnow heq hlast hpassed
    · -- The clock shows the end before `t`, and some other window is open then.
      obtain ⟨day, window, hmem, hopen, hend⟩ := openWindowEnd?_eq_some hlast
      obtain ⟨hweekday, -, hbefore⟩ := ScheduleWindow.openAt_iff.mp hopen
      have hwallNow := table.toWall_zone now
      have hwall := table.toWall_zone t
      rw [← heq] at hwall
      obtain ⟨s, hs⟩ : ∃ s : Instant, s = now + (last - table.zone.toWall now) := ⟨_, rfl⟩
      have hnows : now ≤ s := by
        unfold Instant at *
        omega
      have hst : s ≤ t := by
        unfold Instant at *
        omega
      have hperiod : table.periodAt s = table.periodAt now := by
        have hmono := table.periodAt_mono hnows
        have hmono' := table.periodAt_mono hst
        omega
      have hshow : table.zone.toWall s = last := by
        rw [table.toWall_zone, hperiod]
        unfold Instant at *
        omega
      have hends : ∀ r, s ≤ r → r ≤ t → ShowsEnd windows (table.zone.toWall r) →
          ScheduleOpen windows (table.zone.toWall r) := by
        intro r hr hrt hshows
        refine hcovered r (hnows.trans hr) (hahead r hrt) (fun hsame => ?_) (Or.inr hshows)
        rw [table.toWall_zone, hperiod] at hshow
        rw [table.toWall_zone, hsame]
        unfold Instant at *
        omega
      refine table.scheduleOpen_of_periodAt_eq hst (hperiod.trans heq) (hends s le_rfl hst ?_) hends
      exact ⟨day, window, hmem, hweekday, hshow.trans hend.symm⟩
  · obtain ⟨k, hlen, hk, hperiod, hafter, hle⟩ := table.exists_change_of_periodAt_lt hlt
    -- Every instant from the change up to `t` lies in another period than now.
    have hopen : ∀ r, table.ending k ≤ r → r ≤ t →
        (∃ j < table.transitions.length, r = table.ending j) ∨
          ShowsEnd windows (table.zone.toWall r) → ScheduleOpen windows (table.zone.toWall r) := by
      intro r hr hrt
      refine hcovered r (hafter.le.trans hr) (hahead r hrt) fun hsame => ?_
      have hmono := table.periodAt_mono hr
      omega
    exact table.scheduleOpen_of_periodAt_eq hle (hperiod.trans hk.symm)
      (hopen _ le_rfl hle (Or.inl ⟨k, hlen, rfl⟩)) fun r hr hrt hshows => hopen r hr hrt (Or.inr hshows)

/-- Where the offset changes before the open window ends, some window is open right after the change
and at every end of a window that the new clock shows before that end. -/
def CoveredAcrossChanges (table : ZoneTable) (now : Instant) (windows : List ScheduleWindow) : Prop :=
  ∀ last ∈ openWindowEnd? windows (table.zone.toWall now), ∀ k < table.transitions.length,
    now < table.ending k → table.ending k + table.offset k ≤ last →
      ∀ wall, table.ShownAfter k wall → wall < table.endAfter k last →
        wall = table.ending k + table.offset (k + 1) ∨ ShowsEnd windows wall →
          ScheduleOpen windows wall

/-- The open window stays open up to the limit as long as the clock is not changed; after a change the
windows that cover it carry on. -/
theorem CoveredAcrossChanges.scheduleOpen {table : ZoneTable} (hseparated : table.Separated)
    {now : Instant} {windows : List ScheduleWindow} (h : CoveredAcrossChanges table now windows)
    {last : Int} (hlast : openWindowEnd? windows (table.zone.toWall now) = some last) {t : Instant}
    (hnow : now ≤ t) (ht : t < table.zone.ofWall last) :
    ScheduleOpen windows (table.zone.toWall t) := by
  rcases Nat.eq_or_lt_of_le (table.periodAt_mono hnow) with heq | hlt
  · have hbefore := hseparated.1.toWall_lt (lt_of_openWindowEnd? hlast) hnow heq.symm ht
    exact table.scheduleOpen_of_lt hnow heq hlast hbefore
  · obtain ⟨k, hlen, hk, hperiod, hafter, hle⟩ := table.exists_change_of_periodAt_lt hlt
    obtain ⟨hpassed, hend⟩ := (hseparated.lt_ofWall_iff hlen hk).mp ht
    have hcovered := h last hlast k hlen hafter hpassed
    -- Every instant from the change up to `t` is shown by the new clock before the end.
    have hshown : ∀ r, table.ending k ≤ r → r ≤ t → table.ShownAfter k (table.zone.toWall r) ∧
        table.zone.toWall r < table.endAfter k last := by
      intro r hr hrt
      have hmono := table.periodAt_mono hr
      have hmono' := table.periodAt_mono hrt
      have hperiod' : table.periodAt r = k + 1 := by omega
      have hlimit := (hseparated.lt_ofWall_iff hlen hperiod').mp (lt_of_le_of_lt hrt ht)
      exact ⟨(table.shownAfter_iff hlen).mpr ⟨r, hperiod', rfl⟩, hlimit.2⟩
    have hchange : ScheduleOpen windows (table.zone.toWall (table.ending k)) := by
      obtain ⟨hshow, hbefore⟩ := hshown _ le_rfl hle
      refine hcovered _ hshow hbefore (Or.inl ?_)
      rw [table.toWall_zone, hperiod]
    refine table.scheduleOpen_of_periodAt_eq hle (hperiod.trans hk.symm) hchange ?_
    intro r hr hrt hends
    obtain ⟨hshow, hbefore⟩ := hshown r hr hrt
    exact hcovered _ hshow hbefore (Or.inr hends)

/-- A token is usable only where a new request would be allowed. -/
def AllowedUntilLimit (zoneInfo : ZoneInfo) (now : Instant) (timezoneIana : String)
    (windows : List ScheduleWindow) : Prop :=
  ∀ decision, evaluateSchedule zoneInfo now timezoneIana windows none = .ok decision →
    ∀ t, now ≤ t → t < decision.authorizedUntil →
      ∃ later, evaluateSchedule zoneInfo t timezoneIana windows none = .ok later

/-- In every zone it is enough that the windows cover the changes up to the end of the open one; where
the changes lie apart, access is allowed up to the limit exactly if they do. -/
theorem allowed_until_limit_iff {zoneInfo : ZoneInfo} {table : ZoneTable} {timezoneIana : String}
    (hzone : zoneInfo timezoneIana = some table.zone) {windows : List ScheduleWindow}
    (htimes : ∀ window ∈ windows, window.TimesOfDay) (now : Instant) :
    (CoveredWhileAhead table now windows → AllowedUntilLimit zoneInfo now timezoneIana windows) ∧
    (table.Separated → (AllowedUntilLimit zoneInfo now timezoneIana windows ↔
      CoveredAcrossChanges table now windows)) := by
  simp only [AllowedUntilLimit, exists_evaluateSchedule_iff hzone htimes]
  refine ⟨?_, fun hseparated => ⟨?_, ?_⟩⟩
  · intro h decision hrun t hnow ht
    obtain ⟨last, hlast, rfl⟩ := (evaluateSchedule_eq_ok_iff hzone).mp hrun
    exact h.scheduleOpen hlast hnow ht
  · intro h last hlast k hk hnow hpassed wall hshown hend _
    obtain ⟨t, hperiod, rfl⟩ := (table.shownAfter_iff hk).mp hshown
    have hle := (table.periodAt_ending hk hperiod).1
    refine h _ ((evaluateSchedule_eq_ok_iff hzone).mpr ⟨last, hlast, rfl⟩) t (hnow.le.trans hle) ?_
    exact (hseparated.lt_ofWall_iff hk hperiod).mpr ⟨hpassed, hend⟩
  · intro h decision hrun t hnow ht
    obtain ⟨last, hlast, rfl⟩ := (evaluateSchedule_eq_ok_iff hzone).mp hrun
    exact h.scheduleOpen hseparated hlast hnow ht

/-- Central Europe in the last week of March 2026: from +1 to +2 at 01:00 UTC. -/
def startOfSummerTime : ZoneTable :=
  ⟨seconds 3600, [⟨seconds 1774746000, seconds 7200⟩], by simp, by decide⟩

/-- At 01:30 the limit is 02:30, which is skipped: half an hour after 03:00. -/
theorem allowed_until_limit_fails_in_skipped_hour :
    ¬ ∀ (zoneInfo : ZoneInfo) (table : ZoneTable) (timezoneIana : String) (now : Instant)
      (windows : List ScheduleWindow) (decision : ScheduleDecision) (t : Instant),
      zoneInfo timezoneIana = some table.zone → (∀ window ∈ windows, window.TimesOfDay) →
      evaluateSchedule zoneInfo now timezoneIana windows none = .ok decision → now ≤ t →
      t < decision.authorizedUntil →
        ∃ later, evaluateSchedule zoneInfo t timezoneIana windows none = .ok later := by
  intro h
  obtain ⟨later, hlater⟩ := h (fun _ => some startOfSummerTime.zone) startOfSummerTime
    "Europe/Berlin" (seconds 1774744200) [saturdayNight]
    ⟨seconds 1774747800, seconds 1774747800⟩ (seconds 1774746000) rfl (by decide) rfl (by decide)
    (by decide)
  have hrefused : evaluateSchedule (fun _ => some startOfSummerTime.zone) (seconds 1774746000)
      "Europe/Berlin" [saturdayNight] none =
        .error (securityError .accessOutsideAllowedTime) := rfl
  rw [hrefused] at hlater
  cases hlater

/-- Saturday 20:00 to Sunday 06:00. -/
def longSaturdayNight : ScheduleWindow := ⟨6, seconds 72000, seconds 21600, true⟩

/-- The offset changes while the window is open, and the window covers the change. -/
theorem longSaturdayNight_covered :
    CoveredAcrossChanges endOfSummerTime (seconds 1792868400) [longSaturdayNight] := by
  intro last hlast k hk _ _ wall hshown hend _
  obtain rfl : seconds 1792908000 = last := Option.some.inj hlast
  obtain rfl : k = 0 := by
    have hlength : endOfSummerTime.transitions.length = 1 := rfl
    omega
  have hbegin : seconds 1792893600 ≤ wall := hshown.1
  refine ⟨20750, longSaturdayNight, List.mem_cons_self, by decide, ?_, hend⟩
  exact le_trans (by decide) hbegin

/-- From 21:00 to 06:00, over the repeated hour. -/
theorem allowed_until_limit_on_saturday :
    evaluateSchedule (fun _ => some endOfSummerTime.zone) (seconds 1792868400) "Europe/Berlin"
        [longSaturdayNight] none = .ok ⟨seconds 1792875600, seconds 1792904400⟩ ∧
      ∀ t, seconds 1792868400 ≤ t → t < seconds 1792904400 →
        ∃ later, evaluateSchedule (fun _ => some endOfSummerTime.zone) t "Europe/Berlin"
          [longSaturdayNight] none = .ok later := by
  have hrun : evaluateSchedule (fun _ => some endOfSummerTime.zone) (seconds 1792868400)
      "Europe/Berlin" [longSaturdayNight] none =
        .ok ⟨seconds 1792875600, seconds 1792904400⟩ := rfl
  have htimes : ∀ window ∈ [longSaturdayNight], window.TimesOfDay := by decide
  obtain ⟨-, hexact⟩ := @allowed_until_limit_iff (fun _ => some endOfSummerTime.zone)
    endOfSummerTime "Europe/Berlin" rfl _ htimes (seconds 1792868400)
  exact ⟨hrun, (hexact (by decide)).mpr longSaturdayNight_covered _ hrun⟩

end VerigenceSecurity
