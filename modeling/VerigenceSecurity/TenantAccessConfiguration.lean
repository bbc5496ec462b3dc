import VerigenceSecurity.AccessService
import VerigenceSecurity.StandardRoles

/-! # Configuring a schedule

`TenantAccessConfigurationService.configure_schedule`: a schedule and its windows are upserted
row by row. An id that another tenant or another schedule already owns is left with its owner,
and a stored window that the configuration does not name stays as it is.
-/

namespace VerigenceSecurity
set_option autoImplicit false

open Transaction Relational Program

def ActiveStatus.ofText? : String → Option ActiveStatus
  | "ACTIVE" => some .active
  | "INACTIVE" => some .inactive
  | _ => none

structure AccessScheduleWindowConfiguration where
  scheduleWindowId : Uuid
  isoDayOfWeek : Int
  startLocalTime : Int
  endLocalTime : Int
  crossesMidnight : Bool
  status : String
  deriving DecidableEq, Repr

structure AccessScheduleConfiguration where
  scheduleId : Uuid
  scheduleKey : String
  scheduleName : String
  status : String
  windows : List AccessScheduleWindowConfiguration
  deriving DecidableEq, Repr

/-! ## The rows of a configuration -/

def activeStatus (status : String) : Except Failure ActiveStatus :=
  match ActiveStatus.ofText? status with
  | none => .error (.integrityError .check)
  | some status => .ok status

/-- `varchar(120)`, `varchar(240)`, `varchar(20)` and the `CHECK` of the table. -/
def AccessScheduleConfiguration.row (c : AccessScheduleConfiguration) (tenantId : Uuid) :
    Except Failure AccessSchedule :=
  match storedVarchar 120 c.scheduleKey, storedVarchar 240 c.scheduleName,
    storedVarchar 20 c.status with
  | some scheduleKey, some scheduleName, some status =>
    (activeStatus status).map fun status => ⟨c.scheduleId, tenantId, scheduleKey, scheduleName, status⟩
  | _, _, _ => .error .dataError

/-- `smallint`, `varchar(20)` and the `CHECK`s of the table. -/
def AccessScheduleWindowConfiguration.row (w : AccessScheduleWindowConfiguration)
    (tenantId scheduleId : Uuid) : Except Failure AccessScheduleWindow :=
  match storedVarchar 20 w.status with
  | none => .error .dataError
  | some status =>
    if w.isoDayOfWeek < -32768 ∨ 32767 < w.isoDayOfWeek then .error .dataError
    else if w.isoDayOfWeek < 1 ∨ 7 < w.isoDayOfWeek then .error (.integrityError .check)
    else (activeStatus status).map fun status =>
      ⟨w.scheduleWindowId, tenantId, scheduleId, w.isoDayOfWeek, w.startLocalTime, w.endLocalTime,
        w.crossesMidnight, status⟩

/-! ## `configure_schedule` -/

namespace Database

def scheduleRow? (db : Database) (tenantId scheduleId : Uuid) : Option AccessSchedule :=
  db.accessSchedules.rows.find? fun r => decide (r.tenantId = tenantId ∧ r.scheduleId = scheduleId)

def tenantScheduleReference (db : Database) (tenantId scheduleId : Uuid) : Reference :=
  ⟨.accessSchedules, [scheduleId], (db.scheduleRow? tenantId scheduleId).isSome⟩

end Database

/-- `upsert_schedule`. Renaming a schedule to the key of another one violates an index. -/
def upsertSchedule (tenantId : Uuid) (c : AccessScheduleConfiguration) : Tx Unit :=
  execute .upsertSchedule fun db => do
    let row ← c.row tenantId
    if db.accessSchedules.rows.any fun r => decide (r.scheduleId = row.scheduleId) then
      if (db.accessSchedules.modify? (fun r => decide (r.scheduleId = row.scheduleId))
          row.configured).isSome = false then
        .error (.integrityError .unique)
      else .ok {
        value := ()
        edits := [.upsertSchedule row]
        locks := (Row.entries row).map fun e => ⟨.accessSchedules, e, .update⟩ }
    else insertRow db.accessSchedules row [db.tenantReference tenantId] (.upsertSchedule row)

def upsertWindow (tenantId scheduleId : Uuid) (w : AccessScheduleWindowConfiguration) : Tx Unit :=
  execute .upsertWindow fun db => do
    let row ← w.row tenantId scheduleId
    upsertRow db.accessScheduleWindows (.primary, [row.scheduleWindowId]) row
      [db.tenantScheduleReference tenantId scheduleId] (.upsertWindow row)

def configureSchedule (tenantId : Uuid) (configuration : AccessScheduleConfiguration) : Tx Bool :=
  attempt rollbackAndRaise (do
    match ← query .tenant fun db => .ok (db.tenantRow? tenantId) with
    | none =>
      rollbackNow
      pure false
    | some _ =>
      upsertSchedule tenantId configuration
      each (upsertWindow tenantId configuration.scheduleId) configuration.windows
      commitNow
      pure true)

end VerigenceSecurity
