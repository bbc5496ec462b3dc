import VerigenceSecurity.TenantAccessConfiguration

/-! # What a configured schedule shows

A configuration replaces the windows that it names and leaves the others of the schedule as
they are; a window id that another tenant or schedule owns stays with its owner. The runtime
sees the windows of the schedule that are `ACTIVE` then.
-/

namespace VerigenceSecurity
set_option autoImplicit false

open Transaction Relational Program

def AccessScheduleWindow.OfSchedule (tenantId scheduleId : Uuid) (r : AccessScheduleWindow) : Prop :=
  r.tenantId = tenantId ∧ r.scheduleId = scheduleId

instance (tenantId scheduleId : Uuid) (r : AccessScheduleWindow) :
    Decidable (r.OfSchedule tenantId scheduleId) :=
  inferInstanceAs (Decidable (_ ∧ _))

/-- The id belongs to a window of another tenant or of another schedule. -/
def Database.WindowElsewhere (db : Database) (tenantId scheduleId scheduleWindowId : Uuid) : Prop :=
  ∃ r ∈ db.accessScheduleWindows.rows, r.scheduleWindowId = scheduleWindowId ∧
    ¬ r.OfSchedule tenantId scheduleId

instance (db : Database) (tenantId scheduleId scheduleWindowId : Uuid) :
    Decidable (db.WindowElsewhere tenantId scheduleId scheduleWindowId) :=
  inferInstanceAs (Decidable (∃ r ∈ _, _))

/-! ## One window -/

section Window

variable {db : Database} {tenantId scheduleId : Uuid} {w : AccessScheduleWindowConfiguration}
  {row r : AccessScheduleWindow}

theorem activeStatus_ok {text : String} {status : ActiveStatus}
    (h : activeStatus text = .ok status) : text = "ACTIVE" ↔ status = .active := by
  unfold activeStatus ActiveStatus.ofText? at h
  split at h
  · cases h
  · rename_i hstatus
    cases h
    split at hstatus <;> cases hstatus <;> simp

theorem AccessScheduleWindowConfiguration.row_ok (h : w.row tenantId scheduleId = .ok row) :
    ∃ status, row = ⟨w.scheduleWindowId, tenantId, scheduleId, w.isoDayOfWeek, w.startLocalTime,
      w.endLocalTime, w.crossesMidnight, status⟩ ∧ (w.status = "ACTIVE" ↔ status = .active) := by
  unfold AccessScheduleWindowConfiguration.row at h
  split at h
  · cases h
  rename_i stored hstored
  split at h
  · cases h
  split at h
  · cases h
  cases hstatus : activeStatus stored with
  | error e =>
    rw [hstatus] at h
    cases h
  | ok status =>
    rw [hstatus] at h
    cases h
    exact ⟨status, rfl, (storedVarchar_eq_iff (by decide) hstored).trans (activeStatus_ok hstatus)⟩

theorem mem_entries_window {id : Uuid} :
    ((Index.primary, [id]) : IndexEntry) ∈ Row.entries r ↔ r.scheduleWindowId = id := by
  simp [Row.entries, eq_comm]

theorem AccessScheduleWindow.configured_of (hid : r.scheduleWindowId = row.scheduleWindowId)
    (hof : r.OfSchedule row.tenantId row.scheduleId) : row.configured r = row := by
  obtain ⟨ht, hs⟩ := hof
  rw [AccessScheduleWindow.configured, if_pos ⟨ht, hs⟩, hid, ht, hs]

theorem AccessScheduleWindow.configured_of_not
    (hof : ¬ r.OfSchedule row.tenantId row.scheduleId) : row.configured r = r :=
  if_neg hof

/-- An upserted window takes the place of the stored one, unless the id is owned elsewhere. -/
theorem mem_upsertWindow : r ∈ (Write.apply db (.upsertWindow row)).accessScheduleWindows.rows ↔
    (r ∈ db.accessScheduleWindows.rows ∧ ¬ (r.scheduleWindowId = row.scheduleWindowId ∧
        r.OfSchedule row.tenantId row.scheduleId)) ∨
      (r = row ∧ ¬ db.WindowElsewhere row.tenantId row.scheduleId row.scheduleWindowId) := by
  have hfree : (∀ o ∈ db.accessScheduleWindows.rows,
      ((Index.primary, [row.scheduleWindowId]) : IndexEntry) ∉ Row.entries o) →
        (db.accessScheduleWindows.insert? row).isSome = true := by
    intro h
    rw [Table.isSome_insert?]
    intro o ho k hk hk'
    have hprimary : k = (Index.primary, [row.scheduleWindowId]) := by simpa [Row.entries] using hk'
    rw [hprimary] at hk
    exact h o ho hk
  simp only [Write.apply]
  rw [Table.mem_upsert_iff hfree]
  simp only [mem_entries_window]
  constructor
  · rintro (⟨o, ho, hid, rfl⟩ | ⟨hr, hid⟩ | ⟨hnone, rfl⟩)
    · by_cases hof : o.OfSchedule row.tenantId row.scheduleId
      · rw [AccessScheduleWindow.configured_of hid hof]
        refine Or.inr ⟨rfl, ?_⟩
        rintro ⟨o', ho', hid', hnot⟩
        rw [db.accessScheduleWindows.shared_entry ho' ho (mem_entries_window.mpr hid')
          (mem_entries_window.mpr hid)] at hnot
        exact hnot hof
      · rw [AccessScheduleWindow.configured_of_not hof]
        exact Or.inl ⟨ho, fun h => hof h.2⟩
    · exact Or.inl ⟨hr, fun h => hid h.1⟩
    · exact Or.inr ⟨rfl, fun ⟨o, ho, hid, _⟩ => hnone o ho hid⟩
  · rintro (⟨hr, hnot⟩ | ⟨rfl, hnot⟩)
    · by_cases hid : r.scheduleWindowId = row.scheduleWindowId
      · have hof : ¬ r.OfSchedule row.tenantId row.scheduleId := fun h => hnot ⟨hid, h⟩
        exact Or.inl ⟨r, hr, hid, (AccessScheduleWindow.configured_of_not hof).symm⟩
      · exact Or.inr (Or.inl ⟨hr, hid⟩)
    · by_cases howned : ∃ o ∈ db.accessScheduleWindows.rows,
          o.scheduleWindowId = r.scheduleWindowId
      · obtain ⟨o, ho, hid⟩ := howned
        have hof : o.OfSchedule r.tenantId r.scheduleId := by
          by_contra hno
          exact hnot ⟨o, ho, hid, hno⟩
        exact Or.inl ⟨o, ho, hid, (AccessScheduleWindow.configured_of hid hof).symm⟩
      · exact Or.inr (Or.inr ⟨fun o ho hid => howned ⟨o, ho, hid⟩, rfl⟩)

theorem upsertWindow_ok {s t : Session Database} {u : Unit}
    (h : (upsertWindow tenantId scheduleId w).exec s = (.ok u, t)) :
    ∃ row, w.row tenantId scheduleId = .ok row ∧
      t = { s with view := Write.apply s.view (.upsertWindow row) } := by
  obtain ⟨o, ho, _, rfl⟩ := exec_execute_ok h
  cases hrow : w.row tenantId scheduleId with
  | error e =>
    rw [hrow] at ho
    cases ho
  | ok row =>
    rw [hrow] at ho
    refine ⟨row, rfl, ?_⟩
    have hedits : o.edits = [.upsertWindow row] := by
      change upsertRow _ _ _ _ _ = _ at ho
      unfold upsertRow at ho
      split at ho
      · cases ho
        rfl
      · exact (insertRow_ok ho).2.2
    simp [hedits]

end Window

/-! ## All windows of a configuration -/

structure WindowsConfigured (db : Database) (tenantId scheduleId : Uuid)
    (seen : List AccessScheduleWindowConfiguration) (view : Database) : Prop where
  schedules : view.accessSchedules = db.accessSchedules
  valid : ∀ w ∈ seen, ∃ row, w.row tenantId scheduleId = .ok row
  mem : ∀ r, r ∈ view.accessScheduleWindows.rows ↔
    (r ∈ db.accessScheduleWindows.rows ∧
      ¬ (r.OfSchedule tenantId scheduleId ∧ ∃ w ∈ seen, w.scheduleWindowId = r.scheduleWindowId)) ∨
    ∃ w ∈ seen, w.row tenantId scheduleId = .ok r ∧
      ¬ db.WindowElsewhere tenantId scheduleId w.scheduleWindowId

section Windows

variable {db view : Database} {tenantId scheduleId : Uuid}
  {seen : List AccessScheduleWindowConfiguration} {w : AccessScheduleWindowConfiguration}

theorem windowsConfigured_nil : WindowsConfigured db tenantId scheduleId [] db :=
  ⟨rfl, List.forall_mem_nil _, fun r => by simp⟩

/-- The windows elsewhere are those that were there before. -/
theorem WindowsConfigured.elsewhere_iff (h : WindowsConfigured db tenantId scheduleId seen view)
    {id : Uuid} : view.WindowElsewhere tenantId scheduleId id ↔
      db.WindowElsewhere tenantId scheduleId id := by
  constructor
  · rintro ⟨r, hr, hid, hof⟩
    rcases (h.mem r).mp hr with ⟨hstored, _⟩ | ⟨w, _, hrow, _⟩
    · exact ⟨r, hstored, hid, hof⟩
    · obtain ⟨status, rfl, _⟩ := AccessScheduleWindowConfiguration.row_ok hrow
      exact absurd ⟨rfl, rfl⟩ hof
  · rintro ⟨r, hr, hid, hof⟩
    exact ⟨r, (h.mem r).mpr (Or.inl ⟨hr, fun hno => hof hno.1⟩), hid, hof⟩

theorem WindowsConfigured.next (h : WindowsConfigured db tenantId scheduleId seen view)
    (hfresh : ∀ v ∈ seen, v.scheduleWindowId ≠ w.scheduleWindowId) {row : AccessScheduleWindow}
    (hrow : w.row tenantId scheduleId = .ok row) :
    WindowsConfigured db tenantId scheduleId (seen ++ [w])
      (Write.apply view (.upsertWindow row)) := by
  refine ⟨h.schedules, ?_, ?_⟩
  · intro v hv
    rcases List.mem_append.mp hv with hv | hv
    · exact h.valid v hv
    · rw [List.mem_singleton.mp hv]
      exact ⟨row, hrow⟩
  intro r
  obtain ⟨status, hcolumns, _⟩ := AccessScheduleWindowConfiguration.row_ok hrow
  have hid : row.scheduleWindowId = w.scheduleWindowId := by rw [hcolumns]
  have ht : row.tenantId = tenantId := by rw [hcolumns]
  have hs : row.scheduleId = scheduleId := by rw [hcolumns]
  rw [mem_upsertWindow, h.mem r, hid, ht, hs, h.elsewhere_iff]
  constructor
  · rintro (⟨⟨hr, hnot⟩ | ⟨v, hv, hvrow, helse⟩, hother⟩ | ⟨rfl, helse⟩)
    · refine Or.inl ⟨hr, ?_⟩
      rintro ⟨hof, v, hv, hvid⟩
      rcases List.mem_append.mp hv with hv | hv
      · exact hnot ⟨hof, v, hv, hvid⟩
      · rw [List.mem_singleton.mp hv] at hvid
        exact hother ⟨hvid.symm, hof⟩
    · exact Or.inr ⟨v, List.mem_append_left _ hv, hvrow, helse⟩
    · exact Or.inr ⟨w, List.mem_append_right _ List.mem_cons_self, hrow, helse⟩
  · rintro (⟨hr, hnot⟩ | ⟨v, hv, hvrow, helse⟩)
    · refine Or.inl ⟨Or.inl ⟨hr, ?_⟩, ?_⟩
      · rintro ⟨hof, v, hv, hvid⟩
        exact hnot ⟨hof, v, List.mem_append_left _ hv, hvid⟩
      · rintro ⟨hvid, hof⟩
        exact hnot ⟨hof, w, List.mem_append_right _ List.mem_cons_self, hvid.symm⟩
    · rcases List.mem_append.mp hv with hv | hv
      · refine Or.inl ⟨Or.inr ⟨v, hv, hvrow, helse⟩, ?_⟩
        rintro ⟨hvid, _⟩
        obtain ⟨_, rfl, _⟩ := AccessScheduleWindowConfiguration.row_ok hvrow
        exact hfresh v hv hvid
      · rw [List.mem_singleton.mp hv] at hvrow helse
        rw [hvrow] at hrow
        exact Or.inr ⟨Except.ok.inj hrow, helse⟩

theorem upsertWindows_ok {windows : List AccessScheduleWindowConfiguration}
    (hdistinct : (windows.map (·.scheduleWindowId)).Nodup) {s t : Session Database} {u : Unit}
    (h : (each (upsertWindow tenantId scheduleId) windows).exec s = (.ok u, t)) :
    t.committed = s.committed ∧
      WindowsConfigured s.view tenantId scheduleId windows t.view := by
  refine exec_each_ok (fun seen m => m.committed = s.committed ∧
    WindowsConfigured s.view tenantId scheduleId seen m.view) ?_ h ⟨rfl, windowsConfigured_nil⟩
  rintro seen w rest hsplit m n ⟨hcommitted, hconfigured⟩ hbody
  obtain ⟨row, hrow, rfl⟩ := upsertWindow_ok hbody
  refine ⟨hcommitted, hconfigured.next ?_ hrow⟩
  intro v hv heq
  rw [← hsplit, List.map_append, List.map_cons, List.nodup_append] at hdistinct
  exact hdistinct.2.2 _ (List.mem_map_of_mem hv) _ List.mem_cons_self heq

end Windows

/-! ## The schedule -/

def Database.ScheduleElsewhere (db : Database) (tenantId scheduleId : Uuid) : Prop :=
  ∃ r ∈ db.accessSchedules.rows, r.scheduleId = scheduleId ∧ r.tenantId ≠ tenantId

instance (db : Database) (tenantId scheduleId : Uuid) :
    Decidable (db.ScheduleElsewhere tenantId scheduleId) :=
  inferInstanceAs (Decidable (∃ r ∈ _, _))

section Schedule

variable {db : Database} {tenantId : Uuid} {c : AccessScheduleConfiguration} {row : AccessSchedule}

/-- The stored schedule is the configured one, cut to the widths of its columns. -/
def AccessScheduleConfiguration.Stored (c : AccessScheduleConfiguration) (tenantId : Uuid)
    (db : Database) : Prop :=
  ∃ row, c.row tenantId = .ok row ∧ db.scheduleRow? tenantId c.scheduleId = some row

theorem AccessScheduleConfiguration.row_ok (h : c.row tenantId = .ok row) :
    row.scheduleId = c.scheduleId ∧ row.tenantId = tenantId ∧
      storedVarchar 120 c.scheduleKey = some row.scheduleKey ∧
        storedVarchar 240 c.scheduleName = some row.scheduleName ∧
          (c.status = "ACTIVE" ↔ row.status = .active) := by
  unfold AccessScheduleConfiguration.row at h
  split at h
  · rename_i scheduleKey scheduleName stored hkey hname hstored
    cases hstatus : activeStatus stored with
    | error e =>
      rw [hstatus] at h
      cases h
    | ok status =>
      rw [hstatus] at h
      cases h
      exact ⟨rfl, rfl, hkey, hname,
        (storedVarchar_eq_iff (by decide) hstored).trans (activeStatus_ok hstatus)⟩
  · cases h

theorem mem_entries_schedule {r : AccessSchedule} {id : Uuid} :
    ((Index.primary, [id]) : IndexEntry) ∈ Row.entries r ↔ r.scheduleId = id := by
  simp [Row.entries, eq_comm]

theorem Database.scheduleRow?_eq_some_iff {scheduleId : Uuid} {r : AccessSchedule} :
    db.scheduleRow? tenantId scheduleId = some r ↔
      r ∈ db.accessSchedules.rows ∧ r.tenantId = tenantId ∧ r.scheduleId = scheduleId := by
  unfold Database.scheduleRow?
  constructor
  · intro h
    have hkey := List.find?_some h
    exact ⟨List.mem_of_find?_eq_some h, of_decide_eq_true hkey⟩
  · rintro ⟨hr, ht, hs⟩
    refine Table.find?_of_mem hr (by simp [ht, hs]) (Index.primary, [scheduleId]) fun o ho => ?_
    exact mem_entries_schedule.mpr (of_decide_eq_true ho).2

/-- A schedule of another tenant under the same id stays the only one of that id. -/
theorem Database.scheduleRow?_of_elsewhere {scheduleId : Uuid}
    (h : db.ScheduleElsewhere tenantId scheduleId) : db.scheduleRow? tenantId scheduleId = none := by
  obtain ⟨o, ho, hid, hne⟩ := h
  cases hfind : db.scheduleRow? tenantId scheduleId with
  | none => rfl
  | some r =>
    obtain ⟨hr, ht, hs⟩ := Database.scheduleRow?_eq_some_iff.mp hfind
    have hsame : r = o := db.accessSchedules.shared_entry hr ho (mem_entries_schedule.mpr hs)
      (mem_entries_schedule.mpr hid)
    rw [hsame] at ht
    exact absurd ht hne

/-- The statement stores the row and keeps its index entries apart. -/
theorem upsertSchedule_exec_ok {s t : Session Database} {u : Unit}
    (h : (upsertSchedule tenantId c).exec s = (.ok u, t)) : ∃ row, c.row tenantId = .ok row ∧
      t = { s with view := Write.apply s.view (.upsertSchedule row) } ∧
      t.view.accessSchedules.rows =
        if s.view.accessSchedules.rows.any fun r => decide (r.scheduleId = row.scheduleId) then
          s.view.accessSchedules.rows.map fun r =>
            if decide (r.scheduleId = row.scheduleId) then row.configured r else r
        else s.view.accessSchedules.rows ++ [row] := by
  obtain ⟨o, ho, _, rfl⟩ := exec_execute_ok h
  cases hrow : c.row tenantId with
  | error e =>
    rw [hrow] at ho
    cases ho
  | ok row =>
    rw [hrow] at ho
    refine ⟨row, rfl, ?_⟩
    change ite _ _ _ = _ at ho
    split at ho
    · rename_i hany
      split at ho
      · cases ho
      rename_i hmodified
      cases ho
      obtain ⟨modified, hmodify⟩ := Option.isSome_iff_exists.mp (Bool.of_not_eq_false hmodified)
      refine ⟨rfl, ?_⟩
      simp only [replayAll_cons, replayAll_nil, replay_eq, Write.apply]
      rw [if_pos hany, if_pos hany, Table.modify, hmodify, Option.getD_some,
        Table.rows_of_modify? hmodify]
    · rename_i hany
      obtain ⟨hfree, _, hedits⟩ := insertRow_ok ho
      obtain ⟨inserted, hinsert⟩ := Option.isSome_iff_exists.mp hfree
      rw [hedits]
      refine ⟨rfl, ?_⟩
      simp only [replayAll_cons, replayAll_nil, replay_eq, Write.apply]
      rw [if_neg hany, if_neg hany, Table.rows_insert_of_some hinsert]

/-- An upserted schedule is stored as it is configured, unless another tenant owns the id. -/
theorem upsertSchedule_ok {s t : Session Database} {u : Unit}
    (h : (upsertSchedule tenantId c).exec s = (.ok u, t)) :
    t.committed = s.committed ∧ t.view.accessScheduleWindows = s.view.accessScheduleWindows ∧
      (s.view.ScheduleElsewhere tenantId c.scheduleId →
        t.view.accessSchedules.rows = s.view.accessSchedules.rows) ∧
      (¬ s.view.ScheduleElsewhere tenantId c.scheduleId → c.Stored tenantId t.view) := by
  obtain ⟨row, hrow, ht, hrows⟩ := upsertSchedule_exec_ok h
  obtain ⟨hid, htenant, _⟩ := AccessScheduleConfiguration.row_ok hrow
  refine ⟨by rw [ht], by rw [ht]; rfl, ?_, ?_⟩
  · rintro ⟨o, ho, hoid, hother⟩
    have hany : (s.view.accessSchedules.rows.any fun r => decide (r.scheduleId = row.scheduleId)) =
        true := List.any_eq_true.mpr ⟨o, ho, decide_eq_true (hoid.trans hid.symm)⟩
    rw [hrows, if_pos hany]
    refine (List.map_congr_left fun r hr => ?_).trans (List.map_id _)
    by_cases hrid : r.scheduleId = row.scheduleId
    · have hsame : r = o := s.view.accessSchedules.shared_entry hr ho
        (mem_entries_schedule.mpr hrid) (mem_entries_schedule.mpr (hoid.trans hid.symm))
      rw [if_pos (decide_eq_true hrid), AccessSchedule.configured, hsame, htenant, if_neg hother]
      rfl
    · rw [if_neg (by simpa using hrid)]
      rfl
  · intro helse
    refine ⟨row, hrow, Database.scheduleRow?_eq_some_iff.mpr ⟨?_, htenant, hid⟩⟩
    rw [hrows]
    split
    · rename_i hany
      obtain ⟨o, ho, hoid⟩ := List.any_eq_true.mp hany
      have hoid := of_decide_eq_true hoid
      have hown : o.tenantId = row.tenantId := by
        by_contra hother
        exact helse ⟨o, ho, hoid.trans hid, fun heq => hother (heq.trans htenant.symm)⟩
      refine List.mem_map.mpr ⟨o, ho, ?_⟩
      rw [if_pos (decide_eq_true hoid), AccessSchedule.configured, if_pos hown, hoid, hown]
    · exact List.mem_append_right _ List.mem_cons_self

end Schedule

/-! ## What the runtime sees -/

def AccessScheduleWindow.shown (r : AccessScheduleWindow) : ScheduleWindow :=
  ⟨r.isoDayOfWeek, r.startLocalTime, r.endLocalTime, r.crossesMidnight⟩

def AccessScheduleWindowConfiguration.shown (w : AccessScheduleWindowConfiguration) :
    ScheduleWindow :=
  ⟨w.isoDayOfWeek, w.startLocalTime, w.endLocalTime, w.crossesMidnight⟩

namespace AccessScheduleConfiguration

def windowIds (c : AccessScheduleConfiguration) : List Uuid := c.windows.map (·.scheduleWindowId)

def activeWindows (c : AccessScheduleConfiguration) : List ScheduleWindow :=
  (c.windows.filter fun w => decide (w.status = "ACTIVE")).map (·.shown)

/-- Those of them whose ids are owned elsewhere, and those that find their place. -/
def elsewhereWindows (c : AccessScheduleConfiguration) (tenantId : Uuid) (db : Database) :
    List ScheduleWindow :=
  ((c.windows.filter fun w => decide (w.status = "ACTIVE")).filter fun w =>
    decide (db.WindowElsewhere tenantId c.scheduleId w.scheduleWindowId)).map (·.shown)

def placedWindows (c : AccessScheduleConfiguration) (tenantId : Uuid) (db : Database) :
    List ScheduleWindow :=
  ((c.windows.filter fun w => decide (w.status = "ACTIVE")).filter fun w =>
    !decide (db.WindowElsewhere tenantId c.scheduleId w.scheduleWindowId)).map (·.shown)

def keptWindows (c : AccessScheduleConfiguration) (tenantId : Uuid) (db : Database) :
    List ScheduleWindow :=
  (db.accessScheduleWindows.rows.filter fun r => decide (r.OfSchedule tenantId c.scheduleId ∧
    r.status = .active ∧ r.scheduleWindowId ∉ c.windowIds)).map (·.shown)

/-- The runtime sees the `ACTIVE` windows of the configuration and no others, in some order,
and the schedule is stored as configured. -/
def ShownBy (c : AccessScheduleConfiguration) (tenantId : Uuid) (db : Database) : Prop :=
  (db.scheduleWindows tenantId c.scheduleId).Perm c.activeWindows ∧ c.Stored tenantId db

end AccessScheduleConfiguration

section Shown

variable {db view : Database} {tenantId : Uuid} {c : AccessScheduleConfiguration}

theorem nodup_windows (db : Database) : db.accessScheduleWindows.rows.Nodup := by
  refine db.accessScheduleWindows.unique.imp fun {a b} hdisjoint heq => ?_
  rw [heq] at hdisjoint
  exact hdisjoint (Index.primary, [b.scheduleWindowId]) (mem_entries_window.mpr rfl)
    (mem_entries_window.mpr rfl)

theorem scheduleWindows_eq (scheduleId : Uuid) : db.scheduleWindows tenantId scheduleId =
    (db.accessScheduleWindows.rows.filter fun r => decide (r.OfSchedule tenantId scheduleId ∧
      r.status = .active)).map (·.shown) := by
  simp only [Database.scheduleWindows, AccessScheduleWindow.OfSchedule, and_assoc]
  rfl

def AccessScheduleWindowConfiguration.activeRow (tenantId scheduleId : Uuid)
    (w : AccessScheduleWindowConfiguration) : AccessScheduleWindow :=
  ⟨w.scheduleWindowId, tenantId, scheduleId, w.isoDayOfWeek, w.startLocalTime, w.endLocalTime,
    w.crossesMidnight, .active⟩

theorem AccessScheduleWindowConfiguration.activeRow_eq_iff
    {w : AccessScheduleWindowConfiguration} {scheduleId : Uuid} {row r : AccessScheduleWindow}
    (hrow : w.row tenantId scheduleId = .ok row) :
    (w.row tenantId scheduleId = .ok r ∧ r.status = .active) ↔
      w.status = "ACTIVE" ∧ r = w.activeRow tenantId scheduleId := by
  obtain ⟨status, rfl, hstatus⟩ := AccessScheduleWindowConfiguration.row_ok hrow
  rw [hrow, hstatus]
  constructor
  · rintro ⟨h, hactive⟩
    cases Except.ok.inj h
    cases (hactive : status = .active)
    exact ⟨rfl, rfl⟩
  · rintro ⟨rfl, rfl⟩
    exact ⟨rfl, rfl⟩

/-- The rows that the runtime reads are the kept ones and the placed ones. -/
theorem WindowsConfigured.rows_perm
    (h : WindowsConfigured db tenantId c.scheduleId c.windows view) (hdistinct : c.windowIds.Nodup) :
    (view.accessScheduleWindows.rows.filter fun r => decide (r.OfSchedule tenantId c.scheduleId ∧
        r.status = .active)).Perm
      ((db.accessScheduleWindows.rows.filter fun r => decide (r.OfSchedule tenantId c.scheduleId ∧
          r.status = .active ∧ r.scheduleWindowId ∉ c.windowIds)) ++
        ((c.windows.filter fun w => decide (w.status = "ACTIVE")).filter fun w =>
          !decide (db.WindowElsewhere tenantId c.scheduleId w.scheduleWindowId)).map
            (·.activeRow tenantId c.scheduleId)) := by
  have hplaced : (((c.windows.filter fun w => decide (w.status = "ACTIVE")).filter fun w =>
      !decide (db.WindowElsewhere tenantId c.scheduleId w.scheduleWindowId)).map
        (·.activeRow tenantId c.scheduleId)).Nodup := by
    refine List.Nodup.of_map (·.scheduleWindowId) ?_
    rw [List.map_map]
    exact hdistinct.sublist ((List.filter_sublist.trans List.filter_sublist).map _)
  rw [List.perm_ext_iff_of_nodup ((nodup_windows view).filter _)
    (List.nodup_append.mpr ⟨(nodup_windows db).filter _, hplaced, ?_⟩)]
  · intro r
    simp only [List.mem_append, List.mem_filter, List.mem_map, decide_eq_true_eq,
      Bool.not_eq_true', decide_eq_false_iff_not, h.mem r]
    constructor
    · rintro ⟨⟨hr, hnot⟩ | ⟨w, hw, hrow, helse⟩, hof, hactive⟩
      · refine Or.inl ⟨hr, hof, hactive, fun hid => ?_⟩
        obtain ⟨w, hw, hwid⟩ := List.mem_map.mp hid
        exact hnot ⟨hof, w, hw, hwid⟩
      · obtain ⟨hstatus, rfl⟩ :=
          (AccessScheduleWindowConfiguration.activeRow_eq_iff hrow).mp ⟨hrow, hactive⟩
        exact Or.inr ⟨w, ⟨⟨hw, hstatus⟩, helse⟩, rfl⟩
    · rintro (⟨hr, hof, hactive, hid⟩ | ⟨w, ⟨⟨hw, hstatus⟩, helse⟩, rfl⟩)
      · refine ⟨Or.inl ⟨hr, ?_⟩, hof, hactive⟩
        rintro ⟨_, w, hw, hwid⟩
        exact hid (List.mem_map.mpr ⟨w, hw, hwid⟩)
      · obtain ⟨row, hrow⟩ := h.valid w hw
        have hrow' :=
          ((AccessScheduleWindowConfiguration.activeRow_eq_iff hrow).mpr ⟨hstatus, rfl⟩).1
        exact ⟨Or.inr ⟨w, hw, hrow', helse⟩, ⟨rfl, rfl⟩, rfl⟩
  · intro a ha b hb heq
    obtain ⟨w, hw, rfl⟩ := List.mem_map.mp hb
    have hkept := (of_decide_eq_true (List.mem_filter.mp ha).2).2.2
    have hmem := (List.mem_filter.mp (List.mem_filter.mp hw).1).1
    rw [heq] at hkept
    exact hkept (List.mem_map.mpr ⟨w, hmem, rfl⟩)

theorem WindowsConfigured.shown (h : WindowsConfigured db tenantId c.scheduleId c.windows view)
    (hdistinct : c.windowIds.Nodup) : (view.scheduleWindows tenantId c.scheduleId).Perm
      (c.keptWindows tenantId db ++ c.placedWindows tenantId db) := by
  have hperm := (h.rows_perm hdistinct).map (·.shown)
  rw [List.map_append, List.map_map] at hperm
  rw [scheduleWindows_eq]
  exact hperm

/-- An `ACTIVE` window of the configuration is owned elsewhere or finds its place. -/
theorem AccessScheduleConfiguration.activeWindows_perm (c : AccessScheduleConfiguration)
    (tenantId : Uuid) (db : Database) : (c.elsewhereWindows tenantId db ++
      c.placedWindows tenantId db).Perm c.activeWindows := by
  unfold AccessScheduleConfiguration.elsewhereWindows AccessScheduleConfiguration.placedWindows
  rw [← List.map_append]
  exact (List.filter_append_perm _ _).map _

/-- A call that returns true has upserted the schedule, then its windows, and committed. -/
theorem configureSchedule_ok {db' : Database}
    (h : (configureSchedule tenantId c).alone db = (.ok true, db')) :
    ∃ m t : Session Database, (upsertSchedule tenantId c).exec ⟨db, db⟩ = (.ok (), m) ∧
      (each (upsertWindow tenantId c.scheduleId) c.windows).exec m = (.ok (), t) ∧
        t.view = db' := by
  obtain ⟨hresult, hcommitted⟩ := Prod.mk.inj h
  have hrun : (configureSchedule tenantId c).exec ⟨db, db⟩ =
      (.ok true, ((configureSchedule tenantId c).exec ⟨db, db⟩).2) := Prod.ext hresult rfl
  obtain ⟨tenant, m₀, hquery, hrest⟩ := exec_bind_ok (exec_rollbackAndRaise_ok_iff.mp hrun)
  obtain ⟨_, rfl⟩ := exec_query_ok hquery
  cases tenant with
  | none =>
    obtain ⟨_, m₁, _, hpure⟩ := exec_bind_ok hrest
    cases hpure
  | some row =>
    obtain ⟨_, m, hschedule, hrest⟩ := exec_bind_ok hrest
    obtain ⟨_, t, hwindows, hrest⟩ := exec_bind_ok hrest
    obtain ⟨_, t', hcommit, hpure⟩ := exec_bind_ok hrest
    refine ⟨m, t, hschedule, hwindows, ?_⟩
    rw [← hcommitted, ← (Prod.mk.inj hpure).2, ← (Prod.mk.inj hcommit).2]

/-- A configuration replaces what it names: the runtime sees its `ACTIVE` windows whose ids are
not owned elsewhere and the windows of the schedule that it does not name. -/
theorem configured_schedule_shown (tenantId : Uuid) (c : AccessScheduleConfiguration)
    (hdistinct : c.windowIds.Nodup) (db db' : Database)
    (h : (configureSchedule tenantId c).alone db = (.ok true, db')) :
    (db'.scheduleWindows tenantId c.scheduleId).Perm
        (c.keptWindows tenantId db ++ c.placedWindows tenantId db) ∧
      (db.ScheduleElsewhere tenantId c.scheduleId →
        db'.accessSchedules.rows = db.accessSchedules.rows) ∧
      (¬ db.ScheduleElsewhere tenantId c.scheduleId → c.Stored tenantId db') ∧
      (∀ r, ¬ r.OfSchedule tenantId c.scheduleId →
        (r ∈ db'.accessScheduleWindows.rows ↔ r ∈ db.accessScheduleWindows.rows)) ∧
      (c.ShownBy tenantId db' ↔ ¬ db.ScheduleElsewhere tenantId c.scheduleId ∧
        (c.keptWindows tenantId db).Perm (c.elsewhereWindows tenantId db)) := by
  obtain ⟨m, t, hschedule, hwindows, rfl⟩ := configureSchedule_ok h
  obtain ⟨_, hsame, helsewhere, hstored⟩ := upsertSchedule_ok hschedule
  obtain ⟨_, hconfigured⟩ := upsertWindows_ok hdistinct hwindows
  have hkept : c.keptWindows tenantId m.view = c.keptWindows tenantId db := by
    rw [AccessScheduleConfiguration.keptWindows, hsame, AccessScheduleConfiguration.keptWindows]
  have helse : ∀ id, m.view.WindowElsewhere tenantId c.scheduleId id ↔
      db.WindowElsewhere tenantId c.scheduleId id := by
    intro id
    rw [Database.WindowElsewhere, hsame, Database.WindowElsewhere]
  have hplaced : c.placedWindows tenantId m.view = c.placedWindows tenantId db := by
    simp only [AccessScheduleConfiguration.placedWindows, helse]
  have hshown := hconfigured.shown hdistinct
  rw [hkept, hplaced] at hshown
  have hstored' : ¬ db.ScheduleElsewhere tenantId c.scheduleId → c.Stored tenantId t.view := by
    intro h
    obtain ⟨row, hrow, hfind⟩ := hstored h
    refine ⟨row, hrow, ?_⟩
    rwa [Database.scheduleRow?, hconfigured.schedules]
  have helsewhere' : db.ScheduleElsewhere tenantId c.scheduleId →
      t.view.accessSchedules.rows = db.accessSchedules.rows := by
    rw [hconfigured.schedules]
    exact helsewhere
  refine ⟨hshown, helsewhere', hstored', ?_, ?_⟩
  · intro r hof
    rw [hconfigured.mem r, hsame]
    constructor
    · rintro (⟨hr, _⟩ | ⟨w, _, hrow, _⟩)
      · exact hr
      · obtain ⟨_, rfl, _⟩ := AccessScheduleWindowConfiguration.row_ok hrow
        exact absurd ⟨rfl, rfl⟩ hof
    · exact fun hr => Or.inl ⟨hr, fun hno => hof hno.1⟩
  · have hactive := c.activeWindows_perm tenantId db
    constructor
    · rintro ⟨hperm, row, _, hfind⟩
      refine ⟨fun hother => ?_, ?_⟩
      · obtain ⟨o, ho, hid⟩ := hother
        rw [← helsewhere' ⟨o, ho, hid⟩] at ho
        rw [Database.scheduleRow?_of_elsewhere ⟨o, ho, hid⟩] at hfind
        cases hfind
      · exact (List.perm_append_right_iff _).mp (hshown.symm.trans (hperm.trans hactive.symm))
    · rintro ⟨hother, hperm⟩
      exact ⟨hshown.trans ((hperm.append_right _).trans hactive), hstored' hother⟩

end Shown

/-! ## The office moves to Fridays -/

def officeHours (windows : List AccessScheduleWindowConfiguration) : AccessScheduleConfiguration :=
  ⟨"schedule", "OFFICE", "Fridays only", "ACTIVE", windows⟩

def fridayHours (scheduleWindowId : Uuid) : AccessScheduleWindowConfiguration :=
  ⟨scheduleWindowId, 5, seconds 28800, seconds 61200, false, "ACTIVE"⟩

/-- The Thursday window gives its place to the Friday window that has its id. -/
theorem renamed_window_is_shown : ∃ db' : Database,
    (configureSchedule "tenant" (officeHours [fridayHours "window"])).alone workplace =
        (.ok true, db') ∧
      (officeHours [fridayHours "window"]).ShownBy "tenant" db' := by
  have hresult : ((configureSchedule "tenant" (officeHours [fridayHours "window"])).alone
      workplace).1 = .ok true := by
    decide +kernel
  have hrun := Prod.ext hresult (Eq.refl
    ((configureSchedule "tenant" (officeHours [fridayHours "window"])).alone workplace).2)
  have hshown := configured_schedule_shown "tenant" (officeHours [fridayHours "window"])
    (by decide) workplace _ hrun
  exact ⟨_, hrun, hshown.2.2.2.2.mpr ⟨by decide, by decide⟩⟩

/-- The Thursday window stays when the Friday window has an id of its own. -/
theorem unnamed_window_stays : ¬ ∀ (tenantId : Uuid) (c : AccessScheduleConfiguration)
    (db db' : Database), c.windowIds.Nodup →
      (configureSchedule tenantId c).alone db = (.ok true, db') → c.ShownBy tenantId db' := by
  intro h
  have hresult : ((configureSchedule "tenant" (officeHours [fridayHours "friday"])).alone
      workplace).1 = .ok true := by
    decide +kernel
  have hrun := Prod.ext hresult (Eq.refl
    ((configureSchedule "tenant" (officeHours [fridayHours "friday"])).alone workplace).2)
  have hshown := h "tenant" (officeHours [fridayHours "friday"]) workplace _ (by decide) hrun
  have hlength : (((configureSchedule "tenant" (officeHours [fridayHours "friday"])).alone
      workplace).2.scheduleWindows "tenant" "schedule").length = 2 := by
    decide +kernel
  have hone := hlength.symm.trans hshown.1.length_eq
  cases hone

end VerigenceSecurity
