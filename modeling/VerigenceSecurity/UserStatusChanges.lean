import VerigenceSecurity.UserLifecycle
import VerigenceSecurity.SecurityRepository
import VerigenceSecurity.OverlappingOperations
import VerigenceSecurity.Library.Trace

/-! # Runs of user status changes

Overlapping calls of `set_user_status` on one user, and calls one after another on
any users together with what Clerk has banned. The status is read without a lock,
and a call that finds the status already set does not ask Clerk again.
-/

namespace VerigenceSecurity
set_option autoImplicit false

open Transaction Relational Program

structure StatusChange where
  clerk : ClerkAnswers
  call : AdminCall
  newStatus : String
  reason : Option String

def StatusChange.program (upper : String → String) (userId : Uuid) (change : StatusChange) :
    Tx UserLifecycleRow :=
  setUserStatus upper change.clerk change.call userId change.newStatus change.reason

def Database.statusOf (db : Database) (userId : Uuid) : Option UserStatus :=
  (db.userRow? userId).map (·.status)

def Database.clerkSubjects (db : Database) (userId : Uuid) : List String :=
  (db.externalIdentities.rows.filter fun e =>
    decide (e.userId = userId ∧ e.provider = .clerk ∧ e.status = .active)).map (·.providerSubject)

/-! ## What one call reads and writes -/

theorem userLifecycleRows_head {db : Database} {userId : Uuid} {row : UserLifecycleRow}
    (h : (db.userLifecycleRows userId).head? = some row) :
    db.userRow? userId = some row.user ∧ row.user.userId = userId ∧
      row.clerkUserId = (db.clerkSubjects userId).head? := by
  unfold Database.userLifecycleRows at h
  unfold Database.userRow?
  rw [← List.head?_filter]
  cases hfilter : db.users.rows.filter fun u => decide (u.userId = userId) with
  | nil =>
    rw [hfilter] at h
    cases h
  | cons user users =>
    have hid : user.userId = userId := by
      have hmem : user ∈ db.users.rows.filter fun u => decide (u.userId = userId) := by
        rw [hfilter]
        exact List.mem_cons_self
      exact of_decide_eq_true (List.mem_filter.mp hmem).2
    subst hid
    rw [hfilter, List.flatMap_cons] at h
    unfold Database.clerkSubjects
    cases hclerk : db.externalIdentities.rows.filter fun e =>
        decide (e.userId = user.userId ∧ e.provider = .clerk ∧ e.status = .active) with
    | nil =>
      simp only [hclerk, List.map_nil, if_true, List.map_cons, List.cons_append,
        List.head?_cons] at h
      cases h
      exact ⟨rfl, rfl, rfl⟩
    | cons identity identities =>
      simp only [hclerk, List.map_cons, reduceCtorEq, if_false, List.cons_append,
        List.head?_cons] at h
      cases h
      exact ⟨rfl, rfl, rfl⟩

def Write.followsStatus : Write → Bool
  | .revokeUserSessions .. | .approveOnboardingRequest .. | .insertAdminChange _ => true
  | _ => false

theorem Write.apply_followsStatus {w : Write} (h : w.followsStatus = true) (db : Database) :
    (w.apply db).users = db.users ∧ (w.apply db).externalIdentities = db.externalIdentities := by
  cases w with
  | revokeUserSessions | approveOnboardingRequest | insertAdminChange => exact ⟨rfl, rfl⟩
  | _ => cases h

theorem replayAll_followsStatus {ws : List Write} (h : ∀ w ∈ ws, w.followsStatus = true)
    (db : Database) : (replayAll ws db).users = db.users ∧
      (replayAll ws db).externalIdentities = db.externalIdentities := by
  induction ws generalizing db with
  | nil => exact ⟨rfl, rfl⟩
  | cons w ws ih =>
    have hw := Write.apply_followsStatus (h w List.mem_cons_self) db
    have hws := ih (fun v hv => h v (List.mem_cons_of_mem w hv)) (w.apply db)
    exact ⟨hws.1.trans hw.1, hws.2.trans hw.2⟩

/-- A commit sets the target status, the status read before not having been `EXITED`. -/
structure StatusEffect (upper : String → String) (userId : Uuid) (change : StatusChange)
    (g : TxProgress) : Prop where
  read : ∃ current, current ≠ .exited ∧
    Saw g .userLifecycle fun db => db.statusOf userId = some current
  written : ∃ target rest, targetStatus? (upper change.newStatus) = some target ∧
    g.pending = .updateUserStatus userId target change.call.now :: rest ∧
    ∀ w ∈ rest, w.followsStatus = true

section Rules

variable {P : TxProgress → Prop} {g : TxProgress} {α : Type}

theorem commits_rollbackAndRaise {e : Failure} :
    (rollbackAndRaise e : Tx α).Commits P g := commits_rollbackNow_bind (commits_raise e)

def RevokesFound (g : TxProgress) (pending : List Write) (userId : Uuid) (now : Instant)
    (ws : List Write) : Prop :=
  ∃ ids, FoundTwice g pending .revokeUserSessions
      (fun db => (db.activeSessionsOf userId).map (·.accessSessionId)) ids ∧
    .revokeUserSessions ids userId now ∈ ws

/-- A deactivation revokes the sessions of the user. -/
theorem commits_followStatus_bind {c : AdminCall} {row : UserLifecycleRow} {target : UserStatus}
    {reason : Option String} {k : Unit → Tx α} (h : ∀ ws g', (∀ w ∈ ws, w.followsStatus = true) →
      (target ≠ .active → RevokesFound g' g.pending row.user.userId c.now ws) →
      g.Extends ws g' → (k ()).Commits P g') :
    (followStatus c row target reason >>= k).Commits P g := by
  unfold followStatus
  split
  · rw [revokeUserSessions, Program.bind_assoc]
    apply commits_foundTwice_bind
    intro ids g' hfound hext
    refine h _ g' ?_ (fun _ => ⟨ids, hfound, List.mem_cons_self⟩) hext
    intro w hw
    rw [List.mem_singleton.mp hw]
    rfl
  · rename_i hactive
    split
    · rw [approveOnboardingRequest, Program.bind_assoc]
      apply commits_updateWhere_bind
      intro ids g' hext
      refine h _ g' ?_ (fun hne => absurd hne hactive) hext
      intro w hw
      rw [List.mem_singleton.mp hw]
      rfl
    · exact h [] g (fun _ hw => nomatch hw) (fun hne => absurd hne hactive) (Progress.Extends.refl g)

theorem commits_platformAudit_bind {c : AdminCall} {key type id : String} {k : Unit → Tx α}
    (h : ∀ row g', g.Extends [.insertAdminChange row] g' → (k ()).Commits P g') :
    (platformAudit c key type id >>= k).Commits P g := by
  apply commits_execute_bind
  intro db o ho
  apply h
  rw [← (insertRow_ok ho).2.2]
  exact Progress.Extends.ran _ _ _ g

end Rules

theorem commits_changeUserStatus {clerk : ClerkAnswers} {c : AdminCall} {row : UserLifecycleRow}
    {target : UserStatus} {reason : Option String} {P : TxProgress → Prop} {g : TxProgress}
    (h : ∀ rest g', (∀ w ∈ rest, w.followsStatus = true) →
      (target ≠ .active → RevokesFound g' (g.pending ++ [.updateUserStatus row.user.userId target c.now])
        row.user.userId c.now rest) →
      g.Extends (.updateUserStatus row.user.userId target c.now :: rest) g' → P g') :
    (changeUserStatus clerk c row target reason).Commits P g := by
  refine commits_bind_closed (commits_attempt ?_ fun _ _ => commits_rollbackAndRaise) ?_
  · apply commits_execute_bind
    intro db o ho
    cases ho
    apply commits_followStatus_bind
    intro ws g₁ hws hrevoked hext
    apply commits_platformAudit_bind
    intro row' g₂ haudit
    apply commits_commitNow
    refine h (ws ++ [.insertAdminChange row']) g₂ ?_ ?_ ?_
    · intro w hw
      rcases List.mem_append.mp hw with hw | hw
      · exact hws w hw
      · rw [List.mem_singleton.mp hw]
        rfl
    · intro hne
      obtain ⟨ids, hfound, hids⟩ := hrevoked hne
      exact ⟨ids, hfound.extends haudit, List.mem_append_left _ hids⟩
    · exact ((Progress.Extends.ran .updateUserStatus db _ g).trans hext).trans haudit
  · intro _ g'
    refine commits_bind_closed ?_ fun _ _ => commits_query
    unfold banDeactivated
    split
    · split
      · exact commits_query
      · exact commits_pure ()
    · exact commits_pure ()

/-- A commit sets the target status of the user, whose status has been read before. -/
theorem commits_setUserStatus {upper : String → String} {clerk : ClerkAnswers} {c : AdminCall}
    {userId : Uuid} {newStatus : String} {reason : Option String} {P : TxProgress → Prop}
    (h : ∀ target current rest g', targetStatus? (upper newStatus) = some target → current ≠ .exited →
      Saw g' .userLifecycle (fun db => db.statusOf userId = some current) →
      g'.pending = .updateUserStatus userId target c.now :: rest →
      (∀ w ∈ rest, w.followsStatus = true) →
      (target ≠ .active →
        RevokesFound g' [.updateUserStatus userId target c.now] userId c.now rest) → P g') :
    (setUserStatus upper clerk c userId newStatus reason).Commits P Progress.start := by
  unfold setUserStatus
  cases htarget : targetStatus? (upper newStatus) with
  | none => exact commits_raise _
  | some target =>
    apply commits_query_bind
    intro db found hfound
    cases found with
    | none => exact commits_raise _
    | some row =>
      have hrow : (db.userLifecycleRows userId).head? = some row := Except.ok.inj hfound
      obtain ⟨huser, hid, _⟩ := userLifecycleRows_head hrow
      have hcurrent : db.statusOf userId = some row.user.status := by
        rw [Database.statusOf, huser, Option.map_some]
      have hchange : row.user.status ≠ .exited → ∀ g' : TxProgress, g'.pending = [] →
          (⟨.userLifecycle, db, []⟩ : Entry Database Write StatementName) ∈ g'.history →
          (changeUserStatus clerk c row target reason).Commits P g' := by
        intro hopen g' hnone hread
        apply commits_changeUserStatus
        intro rest g₁ hrest hrevoked hext
        rw [hid, hnone] at hrevoked
        rw [hid] at hext
        refine h target _ rest g₁ htarget hopen ⟨_, hext.history _ hread, rfl, hcurrent⟩ ?_ hrest hrevoked
        rw [hext.pending, hnone, List.nil_append]
      dsimp only
      split
      · split
        · exact commits_raise _
        · rename_i hallowed
          have hopen : row.user.status ≠ .exited := by
            intro hexited
            rw [hexited] at hallowed
            exact hallowed (by decide)
          split
          · exact commits_raise _
          · apply commits_query_bind
            intro db' _ _
            exact hchange hopen _ rfl (List.mem_cons_of_mem _ List.mem_cons_self)
      · split
        · exact commits_raise _
        · rename_i hopen
          split
          · exact commits_query
          · exact hchange hopen _ rfl List.mem_cons_self

theorem StatusChange.commits (upper : String → String) (userId : Uuid) (change : StatusChange) :
    (change.program upper userId).Commits (StatusEffect upper userId change) Progress.start :=
  commits_setUserStatus fun target current rest _ htarget hopen hread hpending hrest _ =>
    ⟨⟨current, hopen, hread⟩, target, rest, htarget, hpending, hrest⟩

theorem StatusEffect.status {upper : String → String} {userId : Uuid} {change : StatusChange}
    {g : TxProgress} (h : StatusEffect upper userId change g) :
    ∃ target, targetStatus? (upper change.newStatus) = some target ∧
      ∀ db : Database, (replayAll g.pending db).statusOf userId =
        (db.statusOf userId).map fun _ => target := by
  obtain ⟨target, rest, htarget, hpending, hrest⟩ := h.written
  refine ⟨target, htarget, fun db => ?_⟩
  have husers := (replayAll_followsStatus hrest
    (Write.apply db (.updateUserStatus userId target change.call.now))).1
  unfold Database.statusOf Database.userRow?
  rw [hpending, replayAll_cons, replay_eq, husers]
  simp only [Write.apply]
  rw [Table.find?_update (by exact fun _ => rfl), Option.map_map, Option.map_map]
  cases hrow : db.users.rows.find? fun r => decide (r.userId = userId) with
  | none => rfl
  | some user =>
    have hid := List.find?_some hrow
    simp [of_decide_eq_true hid]

/-! ## Overlapping changes of one user -/

def statusChanges (upper : String → String) (userId : Uuid) (changes : List StatusChange)
    (db : Database) : TxState UserLifecycleRow :=
  State.initial db (changes.map (StatusChange.program upper userId))

/-- If the call with this index commits a status other than `EXITED` next, the user has not
been exited since the call read the status. -/
def Unovertaken (upper : String → String) (userId : Uuid) (changes : List StatusChange)
    (s : TxState UserLifecycleRow) (i : Nat) : Prop :=
  match changes[i]?, s.calls[i]? with
  | some change, some c => c.committing = true →
    targetStatus? (upper change.newStatus) ≠ some .exited →
    ∀ e ∈ c.progress.history, e.label = .userLifecycle → e.committed.statusOf userId ≠ some .exited →
      s.committed.statusOf userId ≠ some .exited
  | _, _ => True

instance (upper : String → String) (userId : Uuid) (changes : List StatusChange)
    (s : TxState UserLifecycleRow) (i : Nat) : Decidable (Unovertaken upper userId changes s i) := by
  unfold Unovertaken
  split <;> infer_instance

theorem upholds_statusChanges (upper : String → String) (userId : Uuid)
    (changes : List StatusChange) (db : Database) :
    (statusChanges upper userId changes db).Upholds fun i => {
      always := fun _ => True
      commits := fun g => ∃ change, changes[i]? = some change ∧ StatusEffect upper userId change g
      returns := fun _ _ => True } :=
  State.upholds_initial_map fun change => change.commits upper userId

/-- In a run in which no commit is overtaken, no step takes a user out of `EXITED`. -/
theorem exited_is_terminal (upper : String → String) (userId : Uuid) (changes : List StatusChange)
    (db : Database) {s s' : TxState UserLifecycleRow} {i : Nat}
    (hreach : State.Reaches RowLock.conflicts (Unovertaken upper userId changes)
      (statusChanges upper userId changes db) s)
    (hok : Unovertaken upper userId changes s i) (hstep : s.step RowLock.conflicts i = some s')
    (hexited : s.committed.statusOf userId = some .exited) :
    s'.committed.statusOf userId = some .exited := by
  have hupholds := hreach.upholds (upholds_statusChanges upper userId changes db)
  rcases hupholds.committed hstep with hsame | ⟨c, hc, hcommit, _, ⟨change, hchange, heffect⟩, hdb⟩
  · rw [hsame]
    exact hexited
  · obtain ⟨target, htarget, hstatus⟩ := heffect.status
    rw [hdb, hstatus, hexited, Option.map_some]
    congr 1
    by_contra hne
    -- Another target: the call read an earlier status, and the condition keeps it current.
    obtain ⟨current, hopen, e, he, hlabel, hread⟩ := heffect.read
    simp only [Unovertaken, hchange, hc] at hok
    have htarget' : targetStatus? (upper change.newStatus) ≠ some .exited := by
      rw [htarget]
      exact fun h => hne (Option.some.inj h)
    have hread' : e.committed.statusOf userId ≠ some .exited := by
      rw [hread]
      exact fun h => hopen (Option.some.inj h)
    exact hok hcommit htarget' e he hlabel hread' hexited

def employeeDatabase : Database :=
  { (default : Database) with
    users := (Table.empty.insert ⟨"admin", "Admin", none, none, none, none, .active, 0, 0⟩).insert
      ⟨"user", "User", none, none, none, none, .active, 0, 0⟩
    securityPrincipals := (Table.empty.insert ⟨"admin", .user, "admin", .active⟩).insert
      ⟨"user", .user, "user", .active⟩
    externalIdentities := Table.empty.insert ⟨"identity", "user", .clerk, "user_1", .active⟩ }

def exitAndSuspend : List StatusChange :=
  [⟨⟨.ok (), .ok ()⟩, ⟨"admin", "first", 1, "", "audit-1"⟩, "EXITED", none⟩,
    ⟨⟨.ok (), .ok ()⟩, ⟨"admin", "second", 2, "", "audit-2"⟩, "SUSPENDED", none⟩]

def exitedThen (status : UserStatus) (before after : Database) : Bool :=
  decide (before.statusOf "user" = some .exited ∧ after.statusOf "user" = some status)

/-- The user is suspended, then exited, and a second suspension finds the user exited. -/
def suspendExitSuspend : List StatusChange :=
  exitAndSuspend ++ [⟨⟨.ok (), .ok ()⟩, ⟨"admin", "third", 3, "", "audit-3"⟩, "SUSPENDED", none⟩]

/-- The last call begins after the exit: it finds the user exited and is refused. -/
theorem exit_before_suspension : ∃ s s' : TxState UserLifecycleRow,
    s.committed.statusOf "user" = some .exited ∧ s'.committed.statusOf "user" = some .exited ∧
      ∀ c ∈ s'.calls, c.finished = true := by
  have hok : (statusChanges id "user" suspendExitSuspend employeeDatabase).Meets RowLock.conflicts
      (Unovertaken id "user" suspendExitSuspend)
      ((List.replicate 8 1 ++ List.replicate 8 0) ++ [2]) := by
    decide +kernel
  have hrun : (((statusChanges id "user" suspendExitSuspend employeeDatabase).run RowLock.conflicts
      (List.replicate 8 1 ++ List.replicate 8 0)).bind fun s =>
        (s.step RowLock.conflicts 2).map fun s' =>
          decide (s.committed.statusOf "user" = some .exited ∧ ∀ c ∈ s'.calls, c.finished = true)) =
            some true := by
    decide +kernel
  obtain ⟨s, hs, hlast⟩ := Option.bind_eq_some_iff.mp hrun
  obtain ⟨s', hstep, hcheck⟩ := Option.map_eq_some_iff.mp hlast
  obtain ⟨hexited, hfinished⟩ := of_decide_eq_true hcheck
  obtain ⟨hreach, hunovertaken, _⟩ := State.reaches_of_run hok hs
  exact ⟨s, s', hexited, exited_is_terminal id "user" suspendExitSuspend employeeDatabase hreach
    hunovertaken hstep hexited, hfinished⟩

/-- The suspension read the status before the exit was committed and writes its own. -/
theorem suspension_leaves_exited : ¬ ∀ (upper : String → String) (userId : Uuid)
    (changes : List StatusChange) (db : Database) (s s' : TxState UserLifecycleRow) (i : Nat),
    State.Reaches RowLock.conflicts (fun _ _ => True) (statusChanges upper userId changes db) s →
    s.step RowLock.conflicts i = some s' → s.committed.statusOf userId = some .exited →
    s'.committed.statusOf userId = some .exited := by
  intro hclaim
  have hrun : (((statusChanges id "user" exitAndSuspend employeeDatabase).run RowLock.conflicts
      [1, 0, 0, 0, 0, 0, 0, 1, 1, 1, 1]).bind fun s => (s.step RowLock.conflicts 1).map fun s' =>
        exitedThen .suspended s.committed s'.committed) = some true := by
    decide +kernel
  obtain ⟨s, s', hreach, _, hstep, hcheck⟩ :=
    State.exists_step_of_run (P := exitedThen .suspended) (State.meets_true _ _) hrun
  obtain ⟨hexited, hsuspended⟩ := of_decide_eq_true hcheck
  have hterminal := hclaim id "user" exitAndSuspend employeeDatabase s s' 1 hreach hstep hexited
  rw [hsuspended] at hterminal
  cases hterminal

/-! ## Clerk -/

structure ClerkWorld where
  db : Database
  banned : List String

def recordBan (banned : List String) : StatementName → List String
  | .clerk (.banUser clerkUserId) .done => clerkUserId :: banned
  | .clerk (.unbanUser clerkUserId) .done => banned.filter fun b => decide (b ≠ clerkUserId)
  | _ => banned

namespace ClerkWorld

/-- A call that nothing overlaps: its result, the rows and the bans it leaves. -/
def change (upper : String → String) (w : ClerkWorld) (userId : Uuid) (c : StatusChange) :
    Except Failure UserLifecycleRow × ClerkWorld :=
  let result := (c.program upper userId).alone w.db
  (result.1, ⟨result.2, ((c.program upper userId).trace ⟨w.db, w.db⟩).foldl recordBan w.banned⟩)

def run (upper : String → String) (w : ClerkWorld) (changes : List (Uuid × StatusChange)) :
    ClerkWorld :=
  changes.foldl (fun w c => (w.change upper c.1 c.2).2) w

/-- The user's Clerk accounts are banned exactly when the status is not `ACTIVE`. -/
def InStep (w : ClerkWorld) (userId : Uuid) (status : UserStatus) : Prop :=
  ∀ subject ∈ w.db.clerkSubjects userId, subject ∈ w.banned ↔ status ≠ .active

/-- What `set_user_status` will not ask Clerk for is so already: everything when the user has
the status, else everything but the ban of the first account. -/
def Settled (w : ClerkWorld) (userId : Uuid) (target : UserStatus) : Prop :=
  ∀ subject ∈ w.db.clerkSubjects userId, (w.db.statusOf userId = some target ∨
    (w.db.clerkSubjects userId).head? ≠ some subject) → (subject ∈ w.banned ↔ target ≠ .active)

end ClerkWorld

def Quiet (label : StatementName) : Prop := ∀ call answer, label ≠ .clerk call answer

theorem recordBan_of_quiet (banned : List String) (label : StatementName) (h : Quiet label) :
    recordBan banned label = banned := by
  cases label with
  | clerk call answer => exact absurd rfl (h call answer)
  | _ => rfl

theorem quiet_updateWhere {name : StatementName} {relation : Relation} {mode : LockMode}
    {find : Database → List Uuid} {write : List Uuid → Write} (h : Quiet name) :
    (updateWhere name relation mode find write).Only Quiet :=
  only_bind (only_query fun _ _ => nofun) fun _ => only_execute h

theorem quiet_followStatus (c : AdminCall) (row : UserLifecycleRow) (target : UserStatus)
    (reason : Option String) : (followStatus c row target reason).Only Quiet := by
  unfold followStatus
  split
  · exact only_bind (quiet_updateWhere fun _ _ => nofun) fun _ => only_pure ()
  · split
    · exact only_bind (quiet_updateWhere fun _ _ => nofun) fun _ => only_pure ()
    · exact only_pure ()

theorem quiet_statusTransaction (c : AdminCall) (row : UserLifecycleRow) (target : UserStatus)
    (reason : Option String) : (statusTransaction c row target reason).Only Quiet := by
  refine only_attempt (only_bind (only_execute fun _ _ => nofun) fun _ => ?_) fun _ =>
    only_bind only_rollbackNow fun _ => only_raise _
  refine only_bind (quiet_followStatus c row target reason) fun _ => ?_
  exact only_bind (only_execute fun _ _ => nofun) fun _ => only_commitNow

/-- A change of the status that succeeds has banned the account that it is to ban. -/
theorem foldl_changeUserStatus {clerk : ClerkAnswers} {c : AdminCall} {row result : UserLifecycleRow}
    {target : UserStatus} {reason : Option String} {s t : Session Database} {banned : List String}
    (h : (changeUserStatus clerk c row target reason).exec s = (.ok result, t)) :
    ((changeUserStatus clerk c row target reason).trace s).foldl recordBan banned =
      if target = .active then banned else row.clerkUserId.toList ++ banned := by
  unfold changeUserStatus at *
  obtain ⟨_, m, htransaction, hrest⟩ := exec_bind_ok h
  obtain ⟨_, m', hban, _⟩ := exec_bind_ok hrest
  rw [trace_bind_ok htransaction, trace_bind_ok hban, List.foldl_append,
    (quiet_statusTransaction c row target reason).foldl_trace recordBan_of_quiet,
    List.foldl_append]
  have hread : ∀ banned, ((userById row.user.userId).trace m').foldl recordBan banned = banned := by
    intro banned
    rw [userById, trace_query]
    rfl
  rw [hread]
  unfold banDeactivated at *
  cases hclerk : row.clerkUserId with
  | none => simp
  | some clerkUserId =>
    simp only [hclerk] at hban ⊢
    by_cases hactive : target = .active
    · simp [hactive]
    · simp only [hactive, ne_eq, not_false_eq_true, if_true, clerkCall] at hban ⊢
      have hanswer := (exec_query_ok hban).1
      simp [hanswer, recordBan, Except.isOk, Except.toBool]

/-- A call that returns has found the status set, or it has told Clerk about the first account. -/
theorem banned_of_change {upper : String → String} {w : ClerkWorld} {userId : Uuid}
    {c : StatusChange} {target : UserStatus} {result : UserLifecycleRow}
    (htarget : targetStatus? (upper c.newStatus) = some target)
    (h : (w.change upper userId c).1 = .ok result) :
    (w.db.statusOf userId = some target ∧ target ≠ .active ∧
      (w.change upper userId c).2.banned = w.banned) ∨
    (w.db.statusOf userId ≠ some target ∧ (w.change upper userId c).2.banned =
      if target = .active then
        w.banned.filter fun b => decide ((w.db.clerkSubjects userId).head? ≠ some b)
      else (w.db.clerkSubjects userId).head?.toList ++ w.banned) := by
  simp only [ClerkWorld.change, StatusChange.program, Program.alone] at h ⊢
  generalize hs : (⟨w.db, w.db⟩ : Session Database) = s at h ⊢
  cases hexec : (setUserStatus upper c.clerk c.call userId c.newStatus c.reason).exec s with
  | mk r t =>
    rw [hexec] at h
    dsimp only at h
    subst h
    unfold setUserStatus at hexec ⊢
    simp only [htarget] at hexec ⊢
    obtain ⟨found, m, hread, hrest⟩ := exec_bind_ok hexec
    obtain ⟨hrow, rfl⟩ := exec_query_ok hread
    rw [trace_bind_ok hread, userLifecycle, trace_query]
    cases found with
    | none =>
      cases hrest
    | some row =>
      have hview : m.view = w.db := by rw [← hs]
      rw [hview] at hrow
      obtain ⟨huser, hid, hclerk⟩ := userLifecycleRows_head (Except.ok.inj hrow)
      have hstatus : w.db.statusOf userId = some row.user.status := by
        rw [Database.statusOf, huser, Option.map_some]
      rw [hstatus, ← hclerk]
      dsimp only at hrest ⊢
      by_cases hactive : target = .active
      · simp only [hactive, if_true] at hrest ⊢
        split at hrest
        · cases hrest
        · rename_i hallowed
          rw [if_neg hallowed]
          cases hid? : row.clerkUserId with
          | none =>
            rw [hid?] at hrest
            cases hrest
          | some clerkUserId =>
            simp only [hid?] at hrest ⊢
            obtain ⟨_, m', hunban, hchange⟩ := exec_bind_ok hrest
            have hanswer := (exec_query_ok hunban).1
            right
            constructor
            · intro hsame
              rw [Option.some.inj hsame] at hallowed
              exact hallowed (by decide)
            · rw [trace_bind_ok hunban, clerkCall, trace_query, List.foldl_append, List.foldl_append,
                foldl_changeUserStatus hchange, if_pos rfl]
              simp [hanswer, recordBan, Except.isOk, Except.toBool, eq_comm]
      · simp only [if_neg hactive] at hrest ⊢
        split at hrest
        · cases hrest
        · rename_i hopen
          rw [if_neg hopen]
          by_cases hsame : row.user.status = target
          · rw [if_pos hsame, userById, trace_query]
            exact Or.inl ⟨congrArg some hsame, hactive, rfl⟩
          · rw [if_neg hsame] at hrest ⊢
            refine Or.inr ⟨fun h => hsame (Option.some.inj h), ?_⟩
            rw [List.foldl_append, foldl_changeUserStatus hrest, if_neg hactive]
            rfl

/-- No change of a status touches the identities. -/
theorem clerkSubjects_of_change (upper : String → String) (w : ClerkWorld) (userId u : Uuid)
    (c : StatusChange) :
    (w.change upper userId c).2.db.clerkSubjects u = w.db.clerkSubjects u := by
  have hidentities : ((c.program upper userId).alone w.db).2.externalIdentities =
      w.db.externalIdentities := by
    rcases alone_upholds (c.commits upper userId) w.db with hsame | ⟨g, _, heffect, _, hdb⟩
    · rw [hsame]
    · obtain ⟨target, rest, _, hpending, hrest⟩ := heffect.written
      rw [hdb, hpending, replayAll_cons, (replayAll_followsStatus hrest _).2]
      rfl
  unfold Database.clerkSubjects
  simp only [ClerkWorld.change, hidentities]

namespace ClerkWorld

/-- After any calls one after another, a call that returns leaves the user's Clerk accounts in
step with the status it was to set if and only if all was settled that it does not ask for. -/
theorem returned_change_in_step_iff (upper : String → String) (w : ClerkWorld)
    (earlier : List (Uuid × StatusChange)) (userId : Uuid) (c : StatusChange) (target : UserStatus)
    (result : UserLifecycleRow) (htarget : targetStatus? (upper c.newStatus) = some target)
    (h : ((w.run upper earlier).change upper userId c).1 = .ok result) :
    ((w.run upper earlier).change upper userId c).2.InStep userId target ↔
      (w.run upper earlier).Settled userId target := by
  generalize w.run upper earlier = v at h ⊢
  unfold InStep Settled
  rw [clerkSubjects_of_change]
  rcases banned_of_change htarget h with ⟨hstatus, _, hbanned⟩ | ⟨hstatus, hbanned⟩
  · rw [hbanned]
    exact ⟨fun h subject hsubject _ => h subject hsubject,
      fun h subject hsubject => h subject hsubject (Or.inl hstatus)⟩
  · rw [hbanned]
    constructor
    · intro h subject hsubject hother
      have hfirst := hother.resolve_left hstatus
      have hin := h subject hsubject
      split at hin
      · simpa [hfirst] using hin
      · have hnot : subject ∉ (v.db.clerkSubjects userId).head?.toList := by
          rw [Option.mem_toList]
          exact hfirst
        simpa [hnot] using hin
    · intro h subject hsubject
      by_cases hfirst : (v.db.clerkSubjects userId).head? = some subject
      · split
        · rename_i hactive
          simp [hfirst, hactive]
        · rename_i hactive
          simp [hfirst, hactive]
      · have hin := h subject hsubject (Or.inr hfirst)
        split
        · simpa [hfirst] using hin
        · have hnot : subject ∉ (v.db.clerkSubjects userId).head?.toList := by
            rw [Option.mem_toList]
            exact hfirst
          simpa [hnot] using hin

def failedBan (call : AdminCall) (newStatus : String) : StatusChange :=
  ⟨⟨.ok (), .error (.clerk "Clerk Backend API returned HTTP 503" (some 503))⟩, call, newStatus, none⟩

/-- After a ban that failed, another status brings Clerk in step again. -/
theorem exit_after_failed_ban :
    (((⟨employeeDatabase, []⟩ : ClerkWorld).run id [("user", failedBan
      ⟨"admin", "first", 1, "", "audit-1"⟩ "SUSPENDED")]).change id "user"
        ⟨⟨.ok (), .ok ()⟩, ⟨"admin", "second", 2, "", "audit-2"⟩, "EXITED", none⟩).2.InStep
          "user" .exited := by
  refine (returned_change_in_step_iff id ⟨employeeDatabase, []⟩ _ "user" _ .exited
    ⟨⟨"user", "User", none, none, none, none, .exited, 0, 2⟩, some "user_1", none, none⟩ rfl ?_).mpr ?_
  · decide +kernel
  · unfold Settled
    decide +kernel

/-- The same status again after a ban that failed: the call returns and the user can sign in. -/
theorem retried_suspension_leaves_unbanned : ¬ ∀ (upper : String → String) (w : ClerkWorld)
    (earlier : List (Uuid × StatusChange)) (userId : Uuid) (c : StatusChange) (target : UserStatus)
    (result : UserLifecycleRow), targetStatus? (upper c.newStatus) = some target →
    ((w.run upper earlier).change upper userId c).1 = .ok result →
    ((w.run upper earlier).change upper userId c).2.InStep userId target := by
  intro hclaim
  have hin := hclaim id ⟨employeeDatabase, []⟩
    [("user", failedBan ⟨"admin", "first", 1, "", "audit-1"⟩ "SUSPENDED")] "user"
    ⟨⟨.ok (), .ok ()⟩, ⟨"admin", "second", 2, "", "audit-2"⟩, "SUSPENDED", none⟩ .suspended
    ⟨⟨"user", "User", none, none, none, none, .suspended, 0, 1⟩, some "user_1", none, none⟩ rfl
    (by decide +kernel)
  revert hin
  unfold InStep
  decide +kernel

end ClerkWorld

end VerigenceSecurity
