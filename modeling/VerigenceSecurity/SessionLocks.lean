import VerigenceSecurity.DeviceSessions
import VerigenceSecurity.Library.LockDiscipline

/-! # The order of the session locks

A session is locked after its device or after its user, and a call that locks sessions of
several devices holds its user and has one session for each device. Two calls that
wait for each other's sessions would have to hold two sessions of one device.
-/

namespace VerigenceSecurity
set_option autoImplicit false

open Transaction Program Relational

/-! ## The owners of sessions -/

/-- The tenant, the user and the device of a session, which never change. -/
def Database.sessionOwner (db : Database) (x : Uuid) : Option (Uuid × Uuid × Option Uuid) :=
  (db.accessSessions.rows.find? fun r => decide (r.accessSessionId = x)).map fun r =>
    (r.tenantId, r.principalId, r.deviceId)

section Owners

variable {db db' : Database} {x : Uuid}

theorem sessionOwner_of_mem {r : AccessSession} (h : r ∈ db.accessSessions.rows) :
    db.sessionOwner r.accessSessionId = some (r.tenantId, r.principalId, r.deviceId) := by
  have hfind : (db.accessSessions.rows.find? fun r' =>
      decide (r'.accessSessionId = r.accessSessionId)) = some r := by
    refine Table.find?_of_mem h (decide_eq_true rfl) (.primary, [r.accessSessionId]) fun x hx => ?_
    have hid : x.accessSessionId = r.accessSessionId := of_decide_eq_true hx
    rw [← hid]
    exact List.mem_cons_self
  rw [Database.sessionOwner, hfind]
  rfl

theorem sessionOwner_eq_none_iff :
    db.sessionOwner x = none ↔ ∀ r ∈ db.accessSessions.rows, r.accessSessionId ≠ x := by
  simp [Database.sessionOwner]

theorem exists_of_sessionOwner {o : Uuid × Uuid × Option Uuid} (h : db.sessionOwner x = some o) :
    ∃ r ∈ db.accessSessions.rows, r.accessSessionId = x ∧ o = (r.tenantId, r.principalId, r.deviceId) := by
  obtain ⟨r, hfind, rfl⟩ := Option.map_eq_some_iff.mp h
  exact ⟨r, List.mem_of_find?_eq_some hfind, by simpa using List.find?_some hfind, rfl⟩

theorem sessionOwner_congr (h : db'.accessSessions.rows.map (fun r =>
      (r.accessSessionId, r.tenantId, r.principalId, r.deviceId)) = db.accessSessions.rows.map
      fun r => (r.accessSessionId, r.tenantId, r.principalId, r.deviceId)) :
    db'.sessionOwner x = db.sessionOwner x := by
  have hfind : ∀ d : Database, d.sessionOwner x = ((d.accessSessions.rows.map fun r =>
      (r.accessSessionId, r.tenantId, r.principalId, r.deviceId)).find? fun o =>
        decide (o.1 = x)).map (·.2) := by
    intro d
    rw [Database.sessionOwner, List.find?_map, Option.map_map]
    rfl
  rw [hfind, hfind, h]

/-- Only an insertion gives a session an owner. -/
theorem sessionOwner_apply {w : Write} (h : ∀ row, w ≠ .insertAccessSession row) :
    (w.apply db).sessionOwner x = db.sessionOwner x := by
  apply sessionOwner_congr
  cases w with
  | insertAccessSession row => exact absurd rfl (h row)
  | expireStaleUserSessions | updateReusedUserSession | updateActiveSessionContext
  | revokeActiveUserSession | revokeUserSessions =>
    simp only [Write.apply, Table.rows_update, List.map_map]
    apply List.map_congr_left
    intro r _
    simp only [Function.comp, AccessSession.ended, AccessSession.renewed]
    grind
  | _ => rfl

theorem sessionOwner_insert {row : AccessSession} {o : Uuid × Uuid × Option Uuid}
    (h : db.sessionOwner x = some o) :
    ((Write.insertAccessSession row).apply db).sessionOwner x = some o := by
  obtain ⟨r, hr, rfl, rfl⟩ := exists_of_sessionOwner h
  exact sessionOwner_of_mem (Table.mem_insert_of_mem hr)

theorem sessionOwner_insert_other {row : AccessSession} (h : db.sessionOwner x = none)
    (hx : row.accessSessionId ≠ x) :
    ((Write.insertAccessSession row).apply db).sessionOwner x = none := by
  rw [sessionOwner_eq_none_iff] at h ⊢
  intro r hr
  rcases Table.mem_insert hr with hr | rfl
  · exact h r hr
  · exact hx

theorem sessionOwner_of_insert? {row : AccessSession}
    (h : (db.accessSessions.insert? row).isSome = true) :
    db.sessionOwner row.accessSessionId = none := by
  rw [sessionOwner_eq_none_iff]
  intro r hr hid
  apply Table.isSome_insert?.mp h r hr (.primary, [r.accessSessionId]) List.mem_cons_self
  rw [hid]
  exact List.mem_cons_self

end Owners

/-! ## What a session operation may ask for -/

def sessionLocked (l : RowLock) : Bool :=
  decide (l.relation = .users ∨ l.relation = .registeredDevices ∨ l.relation = .accessSessions)

def sessionRow (x : Uuid) : RowLock := rowLock .accessSessions [x] .noKeyUpdate

/-- Whoever conflicts with `l` conflicts with `k` too. -/
structure RowLock.Covers (k l : RowLock) : Prop where
  relation : k.relation = l.relation
  entry : k.entry = l.entry
  mode : ∀ m, l.mode.conflicts m = true → k.mode.conflicts m = true

theorem RowLock.Covers.conflicts {k l m : RowLock} (h : k.Covers l) (hlm : l.conflicts m = true) :
    k.conflicts m = true := by
  simp only [RowLock.conflicts, Bool.and_eq_true, decide_eq_true_eq] at hlm ⊢
  rw [h.relation, h.entry]
  exact ⟨hlm.1, h.mode _ hlm.2⟩

theorem RowLock.covers_refl (l : RowLock) : l.Covers l := ⟨rfl, rfl, fun _ h => h⟩

def UserSession (db : Database) (userId : Uuid) (k : RowLock) : Prop :=
  ∃ x t d, k = sessionRow x ∧ db.sessionOwner x = some (t, userId, d)

def OneForEachDevice (db : Database) (locks : List RowLock) : Prop :=
  ∀ x y, sessionRow x ∈ locks → sessionRow y ∈ locks → ∀ t u d,
    db.sessionOwner x = some (t, u, some d) → db.sessionOwner y = some (t, u, some d) → x = y

/-- A session lock of one device: a session that the device owns, the session that the call
inserts, or the device's entry in the index of active sessions. -/
def InSlot (fresh : Option Uuid) (db : Database) (t u d : Uuid) (k : RowLock) : Prop :=
  k.relation = .accessSessions ∧ (k.entry = activeEntry t u d ∨ ∃ x, k.entry = (.primary, [x]) ∧
    (db.sessionOwner x = some (t, u, some d) ∨ fresh = some x ∧ db.sessionOwner x = none))

structure LocksOfUser (db : Database) (userId : Uuid) (before now : List RowLock) : Prop where
  user : rowLock .users [userId] .noKeyUpdate ∈ before
  users : ∀ k ∈ before, sessionLocked k = true → k = rowLock .users [userId] .noKeyUpdate
  sessions : ∀ k ∈ now, sessionLocked k = true → UserSession db userId k
  slots : OneForEachDevice db now

structure LocksOfDevice (fresh : Option Uuid) (db : Database) (t u d : Uuid)
    (before now : List RowLock) : Prop where
  device : rowLock .registeredDevices [d] .update ∈ before
  slot : ∀ k ∈ now ++ before, sessionLocked k = true →
    k.relation = .registeredDevices ∨ InSlot fresh db t u d k

/-- Why a session operation may ask for a lock after those of the statements before. -/
inductive Asking (fresh : Option Uuid) (db : Database) (before now : List RowLock) (l : RowLock) : Prop
  | again (k : RowLock) (granted : k ∈ before) (covers : k.Covers l)
  | first (nothing : ∀ k ∈ before, sessionLocked k = false)
      (only : ∀ k ∈ now, sessionLocked k = true → k = l)
  | actor (row : l.relation = .users) (mode : l.mode = .keyShare)
      (shared : ∀ k ∈ now ++ before, k.relation = .users → k.mode ≠ .update)
  | session (row : l.relation = .accessSessions)
      (devices : ∀ k ∈ before, sessionLocked k = true →
        k.relation = .registeredDevices ∧ k.mode = .update)
      (only : ∀ k ∈ now, sessionLocked k = true → k = l)
  | ofUser (userId : Uuid) (locks : LocksOfUser db userId before now)
  | ofDevice (t u d : Uuid) (locks : LocksOfDevice fresh db t u d before now)
      (row : l.relation = .accessSessions)

/-- Sessions keep their owners, and only the call itself inserts a session with its new id. -/
structure SessionRely (fresh : Option Uuid) (db db' : Database) : Prop where
  owners : ∀ x o, db.sessionOwner x = some o → db'.sessionOwner x = some o
  unused : ∀ x, fresh = some x → db.sessionOwner x = none → db'.sessionOwner x = none

theorem InSlot.rely {fresh : Option Uuid} {db db' : Database} {t u d : Uuid} {k : RowLock}
    (h : InSlot fresh db t u d k) (hdb : SessionRely fresh db db') : InSlot fresh db' t u d k := by
  obtain ⟨hrow, hentry | ⟨x, hx, howner | ⟨hfresh, hnone⟩⟩⟩ := h
  · exact ⟨hrow, Or.inl hentry⟩
  · exact ⟨hrow, Or.inr ⟨x, hx, Or.inl (hdb.owners x _ howner)⟩⟩
  · exact ⟨hrow, Or.inr ⟨x, hx, Or.inr ⟨hfresh, hdb.unused x hfresh hnone⟩⟩⟩

theorem UserSession.rely {fresh : Option Uuid} {db db' : Database} {userId : Uuid} {k : RowLock}
    (h : UserSession db userId k) (hdb : SessionRely fresh db db') : UserSession db' userId k := by
  obtain ⟨x, t, d, rfl, howner⟩ := h
  exact ⟨x, t, d, rfl, hdb.owners x _ howner⟩

theorem sessionRow_injective {x y : Uuid} (h : sessionRow x = sessionRow y) : x = y := by
  simpa [sessionRow, rowLock] using h

theorem LocksOfUser.rely {fresh : Option Uuid} {db db' : Database} {userId : Uuid}
    {before now : List RowLock} (h : LocksOfUser db userId before now)
    (hdb : SessionRely fresh db db') : LocksOfUser db' userId before now := by
  refine ⟨h.user, h.users, fun k hk hlocked => (h.sessions k hk hlocked).rely hdb, ?_⟩
  have hkept : ∀ x, sessionRow x ∈ now → ∀ o, db'.sessionOwner x = some o →
      db.sessionOwner x = some o := by
    intro x hx o ho
    obtain ⟨y, t, d, hxy, howner⟩ := h.sessions _ hx rfl
    rw [← sessionRow_injective hxy] at howner
    rw [hdb.owners x _ howner] at ho
    rwa [← ho]
  exact fun x y hx hy t u d hox hoy => h.slots x y hx hy t u d (hkept x hx _ hox) (hkept y hy _ hoy)

theorem LocksOfDevice.rely {fresh : Option Uuid} {db db' : Database} {t u d : Uuid}
    {before now : List RowLock} (h : LocksOfDevice fresh db t u d before now)
    (hdb : SessionRely fresh db db') : LocksOfDevice fresh db' t u d before now :=
  ⟨h.device, fun k hk hlocked => (h.slot k hk hlocked).imp_right fun hslot => hslot.rely hdb⟩

theorem Asking.rely {fresh : Option Uuid} {db db' : Database} {before now : List RowLock} {l : RowLock}
    (h : Asking fresh db before now l) (hdb : SessionRely fresh db db') :
    Asking fresh db' before now l := by
  cases h with
  | again k granted covers => exact .again k granted covers
  | first nothing only => exact .first nothing only
  | actor row mode shared => exact .actor row mode shared
  | session row devices only => exact .session row devices only
  | ofUser userId locks => exact .ofUser userId (locks.rely hdb)
  | ofDevice t u d locks row => exact .ofDevice t u d (locks.rely hdb) row

def sessionDiscipline (fresh : Option Uuid) : Discipline Database Write RowLock where
  rely := SessionRely fresh
  asks db before now := ∀ l ∈ now, sessionLocked l = true → Asking fresh db before now l
  edits w := ∀ row, w = .insertAccessSession row → fresh = some row.accessSessionId
  rely_refl _ := ⟨fun _ _ h => h, fun _ _ h => h⟩
  rely_trans h k := ⟨fun x o hx => k.owners x o (h.owners x o hx),
    fun x hf hx => k.unused x hf (h.unused x hf hx)⟩
  asks_nil _ _ := fun _ hl => nomatch hl
  asks_rely hdb h := fun l hl hlocked => (h l hl hlocked).rely hdb

/-- What another call writes keeps the owners, and its new session has another id. -/
theorem sessionRely_apply {fresh other : Option Uuid} (hother : ∀ x, fresh = some x → other ≠ some x)
    {w : Write} (hw : (sessionDiscipline other).edits w) (db : Database) :
    SessionRely fresh db (Replay.replay w db) := by
  change SessionRely fresh db (w.apply db)
  by_cases hinsert : ∃ row, w = .insertAccessSession row
  · obtain ⟨row, rfl⟩ := hinsert
    refine ⟨fun x o hx => sessionOwner_insert hx, fun x hf hx => sessionOwner_insert_other hx ?_⟩
    intro hid
    exact hother x hf (by rw [hw row rfl, hid])
  · have hsame : ∀ row, w ≠ .insertAccessSession row := fun row hrow => hinsert ⟨row, hrow⟩
    refine ⟨fun x o hx => ?_, fun x _ hx => ?_⟩
    · rwa [sessionOwner_apply hsame]
    · rwa [sessionOwner_apply hsame]

/-! ## Calls in a circle -/

abbrev SessionState := Waiting Database Write RowLock StatementName Failure Unit

abbrev SessionState.Circle (s : SessionState) (i : Nat) : Prop :=
  Relation.TransGen (s.Waits RowLock.conflicts sessionLocked) i i

structure Circling (fresh : Nat → Option Uuid) (s : SessionState) (i : Nat) (l : RowLock)
    (before now : List RowLock) : Prop where
  circle : SessionState.Circle s i
  waiting : l ∈ (s.queue i).head?
  locked : sessionLocked l = true
  asked : l ∈ now
  asking : Asking (fresh i) s.base.committed before now l
  granted : ∀ k ∈ before, k ∈ s.holds i
  holds : ∀ k ∈ s.holds i, k ∈ now ++ before

section Circle

variable {fresh : Nat → Option Uuid} {s : SessionState} {i j : Nat} {l k : RowLock}
  {before now before' now' : List RowLock}

theorem exists_circling (hs : s.Disciplined fun i => sessionDiscipline (fresh i))
    (h : SessionState.Circle s i) : ∃ l before now, Circling fresh s i l before now := by
  obtain ⟨p, ⟨_, _, _, _, k, hk, _⟩, _⟩ := Waiting.exists_waited h
  obtain ⟨j, ⟨_, l, hl, hlocked, _⟩, _⟩ := Waiting.exists_waits h
  obtain ⟨c, hc⟩ := Waiting.call_of_holds hk
  obtain ⟨before, now, hstands⟩ := hs i c hc
  obtain ⟨rest, hqueue⟩ := List.head?_eq_some_iff.mp hl
  have hnow : l ∈ now := hstands.queue l (by rw [hqueue]; exact List.mem_cons_self)
  have hholds := Waiting.holds_of_queue hc hqueue
  refine ⟨l, before, now, h, hl, hlocked, hnow, hstands.asks l hnow hlocked, ?_, ?_⟩
  · rw [hholds]
    exact hstands.granted
  · rw [hholds]
    exact hstands.held

theorem Circling.next (hs : s.Disciplined fun i => sessionDiscipline (fresh i))
    (h : Circling fresh s i l before now) : ∃ j k l' before' now', i ≠ j ∧ k ∈ s.holds j ∧
      l.conflicts k = true ∧ Circling fresh s j l' before' now' := by
  obtain ⟨j, ⟨hij, l', hl', _, k, hk, hconflict⟩, hcircle⟩ := Waiting.exists_waits h.circle
  obtain ⟨l'', before', now', hnext⟩ := exists_circling hs hcircle
  cases Option.mem_unique h.waiting hl'
  exact ⟨j, k, l'', before', now', hij, hk, hconflict, hnext⟩

theorem relation_of_conflicts (h : l.conflicts k = true) : l.relation = k.relation ∧ l.entry = k.entry := by
  simp only [RowLock.conflicts, Bool.and_eq_true, decide_eq_true_eq] at h
  exact h.1

theorem locked_of_conflicts (h : l.conflicts k = true) : sessionLocked l = sessionLocked k := by
  unfold sessionLocked
  rw [(relation_of_conflicts h).1]

/-- It waits for a call that holds a lock in conflict, so it holds none that covers its own. -/
theorem Circling.not_covered (hex : s.Exclusive RowLock.conflicts)
    (h : Circling fresh s i l before now) (hk : k ∈ s.holds i) : ¬ k.Covers l := by
  intro hcovers
  obtain ⟨j, ⟨hij, l', hl', _, m, hm, hconflict⟩, _⟩ := Waiting.exists_waits h.circle
  cases Option.mem_unique h.waiting hl'
  have hfree := hex i j hij k hk m hm
  rw [hcovers.conflicts hconflict] at hfree
  cases hfree

theorem Circling.not_held (hex : s.Exclusive RowLock.conflicts)
    (h : Circling fresh s i l before now) : l ∉ s.holds i :=
  fun hl => h.not_covered hex hl (RowLock.covers_refl l)

/-- What it holds and another call waits for. -/
theorem Circling.previous (hs : s.Disciplined fun i => sessionDiscipline (fresh i))
    (h : Circling fresh s i l before now) : ∃ j k l' before' now', k ∈ s.holds i ∧
      l'.conflicts k = true ∧ Circling fresh s j l' before' now' := by
  obtain ⟨j, ⟨_, l', hl', _, k, hk, hconflict⟩, hcircle⟩ := Waiting.exists_waited h.circle
  obtain ⟨l'', before', now', hprevious⟩ := exists_circling hs hcircle
  cases Option.mem_unique hprevious.waiting hl'
  exact ⟨j, k, l', before', now', hk, hconflict, hprevious⟩

theorem Circling.not_first (hs : s.Disciplined fun i => sessionDiscipline (fresh i))
    (hex : s.Exclusive RowLock.conflicts) (h : Circling fresh s i l before now)
    (nothing : ∀ k ∈ before, sessionLocked k = false)
    (only : ∀ k ∈ now, sessionLocked k = true → k = l) : False := by
  obtain ⟨j, k, l', _, _, hk, hconflict, hprevious⟩ := h.previous hs
  have hlocked : sessionLocked k = true := locked_of_conflicts hconflict ▸ hprevious.locked
  rcases List.mem_append.mp (h.holds k hk) with hnow | hbefore
  · exact h.not_held hex (only k hnow hlocked ▸ hk)
  · rw [nothing k hbefore] at hlocked
    cases hlocked

theorem UserSession.relation {db : Database} {userId : Uuid} (h : UserSession db userId k) :
    k.relation = .accessSessions := by
  obtain ⟨_, _, _, rfl, _⟩ := h
  rfl

/-- Nobody in a circle holds the lock of a user that a reference waits for. -/
theorem Circling.not_actor (hs : s.Disciplined fun i => sessionDiscipline (fresh i))
    (hex : s.Exclusive RowLock.conflicts) (h : Circling fresh s i l before now)
    (row : l.relation = .users) (mode : l.mode = .keyShare) : False := by
  obtain ⟨j, k, l', before', now', _, hk, hconflict, hnext⟩ := h.next hs
  have hrow : k.relation = .users := (relation_of_conflicts hconflict).1 ▸ row
  have hlocked : sessionLocked k = true := by simp [sessionLocked, hrow]
  have hupdate : k.mode = .update := by
    simp only [RowLock.conflicts, Bool.and_eq_true, mode] at hconflict
    cases hmode : k.mode <;> simp_all [LockMode.conflicts]
  cases hnext.asking with
  | again m granted covers => exact hnext.not_covered hex (hnext.granted m granted) covers
  | first nothing only => exact hnext.not_first hs hex nothing only
  | actor _ _ shared => exact shared k (hnext.holds k hk) hrow hupdate
  | session row' devices only =>
    rcases List.mem_append.mp (hnext.holds k hk) with hnow | hbefore
    · exact hnext.not_held hex (only k hnow hlocked ▸ hk)
    · rw [(devices k hbefore hlocked).1] at hrow
      cases hrow
  | ofUser userId locks =>
    rcases List.mem_append.mp (hnext.holds k hk) with hnow | hbefore
    · rw [(locks.sessions k hnow hlocked).relation] at hrow
      cases hrow
    · rw [locks.users k hbefore hlocked] at hupdate
      cases hupdate
  | ofDevice t u d locks row' =>
    rcases locks.slot k (hnext.holds k hk) hlocked with hdevice | hslot
    · rw [hdevice] at hrow
      cases hrow
    · rw [hslot.1] at hrow
      cases hrow

/-- Nobody in a circle waits for a device. -/
theorem Circling.not_session (hs : s.Disciplined fun i => sessionDiscipline (fresh i))
    (hex : s.Exclusive RowLock.conflicts) (h : Circling fresh s i l before now)
    (devices : ∀ k ∈ before, sessionLocked k = true → k.relation = .registeredDevices ∧ k.mode = .update)
    (only : ∀ k ∈ now, sessionLocked k = true → k = l) : False := by
  obtain ⟨j, k, l', before', now', hk, hconflict, hprevious⟩ := h.previous hs
  have hlocked : sessionLocked k = true := locked_of_conflicts hconflict ▸ hprevious.locked
  have hdevice : l'.relation = .registeredDevices := by
    rw [(relation_of_conflicts hconflict).1]
    rcases List.mem_append.mp (h.holds k hk) with hnow | hbefore
    · exact absurd (only k hnow hlocked ▸ hk) (h.not_held hex)
    · exact (devices k hbefore hlocked).1
  cases hprevious.asking with
  | again m granted covers => exact hprevious.not_covered hex (hprevious.granted m granted) covers
  | first nothing only' => exact hprevious.not_first hs hex nothing only'
  | actor row _ _ =>
    rw [row] at hdevice
    cases hdevice
  | session row _ _ =>
    rw [row] at hdevice
    cases hdevice
  | ofUser userId locks =>
    rw [(locks.sessions l' hprevious.asked hprevious.locked).relation] at hdevice
    cases hdevice
  | ofDevice t u d locks row =>
    rw [row] at hdevice
    cases hdevice

/-- A call in a circle holds its user or its device, and waits for a session. -/
theorem Circling.cases (hs : s.Disciplined fun i => sessionDiscipline (fresh i))
    (hex : s.Exclusive RowLock.conflicts) (h : Circling fresh s i l before now) :
    l.relation = .accessSessions ∧ ((∃ userId, LocksOfUser s.base.committed userId before now) ∨
      ∃ t u d, LocksOfDevice (fresh i) s.base.committed t u d before now) := by
  cases h.asking with
  | again m granted covers => exact absurd covers (h.not_covered hex (h.granted m granted))
  | first nothing only => exact (h.not_first hs hex nothing only).elim
  | actor row mode shared => exact (h.not_actor hs hex row mode).elim
  | session row devices only => exact (h.not_session hs hex devices only).elim
  | ofUser userId locks =>
    exact ⟨(locks.sessions l h.asked h.locked).relation, Or.inl ⟨userId, locks⟩⟩
  | ofDevice t u d locks row => exact ⟨row, Or.inr ⟨t, u, d, locks⟩⟩

/-- Two calls of one device do not wait for each other's sessions. -/
theorem LocksOfDevice.disjoint (hex : s.Exclusive RowLock.conflicts) (hij : i ≠ j)
    (hfresh : ∀ x, fresh i = some x → fresh j ≠ some x)
    (h : Circling fresh s i l before now) (h' : Circling fresh s j k before' now')
    {t u d t' u' d' : Uuid} (hi : LocksOfDevice (fresh i) s.base.committed t u d before now)
    (hj : LocksOfDevice (fresh j) s.base.committed t' u' d' before' now') {m : RowLock}
    (hrow : l.relation = .accessSessions) (hm : m ∈ s.holds j) (hconflict : l.conflicts m = true) :
    False := by
  obtain ⟨hrel, hentry⟩ := relation_of_conflicts hconflict
  have hmrow : m.relation = .accessSessions := hrel ▸ hrow
  have hl : InSlot (fresh i) s.base.committed t u d l := by
    rcases hi.slot l (List.mem_append_left _ h.asked) h.locked with hdevice | hslot
    · rw [hrow] at hdevice
      cases hdevice
    · exact hslot
  have hmslot : InSlot (fresh j) s.base.committed t' u' d' m := by
    rcases hj.slot m (h'.holds m hm) (locked_of_conflicts hconflict ▸ h.locked) with hdevice | hslot
    · rw [hmrow] at hdevice
      cases hdevice
    · exact hslot
  have hsame : d = d' := by
    rcases hl.2 with hlentry | ⟨x, hx, hlowner⟩
    · rcases hmslot.2 with hmentry | ⟨y, hy, _⟩
      · rw [hlentry, hmentry] at hentry
        simp only [activeEntry, Prod.mk.injEq, List.cons.injEq, true_and, and_true] at hentry
        exact hentry.2.2
      · rw [hlentry, hy] at hentry
        cases hentry
    · rcases hmslot.2 with hmentry | ⟨y, hy, hmowner⟩
      · rw [hx, hmentry] at hentry
        cases hentry
      · rw [hx, hy] at hentry
        cases hentry
        rcases hlowner with hlowner | ⟨hf, hnone⟩
        · rcases hmowner with hmowner | ⟨_, hnone⟩
          · rw [hlowner] at hmowner
            cases hmowner
            rfl
          · rw [hlowner] at hnone
            cases hnone
        · rcases hmowner with hmowner | ⟨hf', _⟩
          · rw [hmowner] at hnone
            cases hnone
          · exact absurd hf' (hfresh x hf)
  subst hsame
  have hfree := hex i j hij _ (h.granted _ hi.device) _ (h'.granted _ hj.device)
  simp [RowLock.conflicts, LockMode.conflicts, rowLock] at hfree

/-- The user of a status change in the circle owns every session that it shares. -/
theorem LocksOfUser.shared {userId : Uuid}
    (hi : LocksOfUser s.base.committed userId before now) {m : RowLock}
    (hrow : m.relation = .accessSessions) (hm : m ∈ now ++ before) :
    m ∈ now ∧ UserSession s.base.committed userId m := by
  have hlocked : sessionLocked m = true := by simp [sessionLocked, hrow]
  rcases List.mem_append.mp hm with hnow | hbefore
  · exact ⟨hnow, hi.sessions m hnow hlocked⟩
  · rw [hi.users m hbefore hlocked] at hrow
    cases hrow

/-- Two status changes in the circle are of different users. -/
theorem LocksOfUser.eq_of_user (hex : s.Exclusive RowLock.conflicts)
    (h : Circling fresh s i l before now) (h' : Circling fresh s j k before' now') {userId : Uuid}
    (hi : LocksOfUser s.base.committed userId before now)
    (hj : LocksOfUser s.base.committed userId before' now') : i = j := by
  by_contra hij
  have hfree := hex i j hij _ (h.granted _ hi.user) _ (h'.granted _ hj.user)
  simp [RowLock.conflicts, LockMode.conflicts, rowLock] at hfree

/-- A session in the slot of a device and of a user has that device and that user. -/
theorem InSlot.owner {f : Option Uuid} {db : Database} {t u d userId : Uuid} {m : RowLock}
    (hslot : InSlot f db t u d k) (hm : UserSession db userId m) (hentry : k.entry = m.entry) :
    ∃ x, m = sessionRow x ∧ db.sessionOwner x = some (t, userId, some d) ∧ u = userId := by
  obtain ⟨x, t', d', rfl, howner⟩ := hm
  obtain ⟨_, hactive | ⟨y, hy, hyowner⟩⟩ := hslot
  · rw [hactive] at hentry
    cases hentry
  · rw [hy] at hentry
    cases hentry
    rcases hyowner with hyowner | ⟨_, hnone⟩
    · rw [hyowner] at howner
      cases howner
      exact ⟨x, rfl, hyowner, rfl⟩
    · rw [hnone] at howner
      cases howner

/-- A status change in a circle would have to wait for a session of a device of which it holds
another one. -/
theorem Circling.not_ofUser (hs : s.Disciplined fun i => sessionDiscipline (fresh i))
    (hex : s.Exclusive RowLock.conflicts)
    (hfresh : ∀ i j, i ≠ j → ∀ x, fresh i = some x → fresh j ≠ some x)
    (h : Circling fresh s i l before now) {userId : Uuid}
    (hi : LocksOfUser s.base.committed userId before now) : False := by
  obtain ⟨j, k, l', before', now', hij, hk, hconflict, hnext⟩ := h.next hs
  obtain ⟨hrow, _⟩ := h.cases hs hex
  obtain ⟨hkrow, hkentry⟩ := relation_of_conflicts hconflict
  have hlsession := (hi.shared hrow (List.mem_append_left _ h.asked)).2
  obtain ⟨hrow', ⟨userId', hj⟩ | ⟨t, u, d, hj⟩⟩ := hnext.cases hs hex
  · -- Both hold the user who owns the session.
    obtain ⟨x, tx, dx, rfl, hx⟩ := hlsession
    obtain ⟨y, ty, dy, rfl, hy⟩ := (hj.shared (hkrow ▸ hrow) (hnext.holds k hk)).2
    cases hkentry
    rw [hx] at hy
    cases hy
    exact hij (hi.eq_of_user hex h hnext hj)
  · obtain ⟨n, m, l'', before'', now'', hjn, hm, hconflict', hlast⟩ := hnext.next hs
    obtain ⟨hmrow, hmentry⟩ := relation_of_conflicts hconflict'
    have hkslot : InSlot (fresh j) s.base.committed t u d k := by
      have hklocked := locked_of_conflicts hconflict ▸ h.locked
      refine (hj.slot k (hnext.holds k hk) hklocked).resolve_left fun hdevice => ?_
      rw [← hkrow, hrow] at hdevice
      cases hdevice
    have hl'slot : InSlot (fresh j) s.base.committed t u d l' := by
      refine (hj.slot l' (List.mem_append_left _ hnext.asked) hnext.locked).resolve_left fun hdevice => ?_
      rw [hrow'] at hdevice
      cases hdevice
    obtain ⟨x, rfl, hx, rfl⟩ := hkslot.owner hlsession hkentry.symm
    obtain ⟨_, ⟨userId', hn⟩ | ⟨t', u', d', hn⟩⟩ := hlast.cases hs hex
    · have hmsession := (hn.shared (hmrow ▸ hrow') (hlast.holds m hm)).2
      obtain ⟨y, rfl, hy, rfl⟩ := hl'slot.owner hmsession hmentry
      -- The circle closes: the same call holds one session of the device and waits for another.
      have hsame := hi.eq_of_user hex h hlast hn
      subst hsame
      have hynow := (hi.shared rfl (h.holds _ hm)).1
      have hxy := hi.slots x y h.asked hynow t u d hx hy
      subst hxy
      exact h.not_held hex hm
    · exact hj.disjoint hex hjn (hfresh j n hjn) hnext hlast hn hrow' hm hconflict'

/-- Session operations never wait for each other in a circle. -/
theorem not_deadlocked (hs : s.Disciplined fun i => sessionDiscipline (fresh i))
    (hex : s.Exclusive RowLock.conflicts)
    (hfresh : ∀ i j, i ≠ j → ∀ x, fresh i = some x → fresh j ≠ some x) :
    ¬ s.Deadlocked RowLock.conflicts sessionLocked := by
  rintro ⟨i, hcircle⟩
  obtain ⟨l, before, now, h⟩ := exists_circling hs hcircle
  obtain ⟨hrow, ⟨userId, hi⟩ | ⟨t, u, d, hi⟩⟩ := h.cases hs hex
  · exact h.not_ofUser hs hex hfresh hi
  · obtain ⟨j, k, l', before', now', hij, hk, hconflict, hnext⟩ := h.next hs
    obtain ⟨_, ⟨userId, hj⟩ | ⟨t', u', d', hj⟩⟩ := hnext.cases hs hex
    · exact hnext.not_ofUser hs hex hfresh hj
    · exact hi.disjoint hex hij (hfresh i j hij) h hnext hj hrow hk hconflict

end Circle

end VerigenceSecurity
