import VerigenceSecurity.PlatformBootstrap
import VerigenceSecurity.OverlappingOperations
import VerigenceSecurity.Library.Guard

/-! # At most one first administrator

Calls of one bootstrap path run their check under the lock of the path, so the second of
them finds the administrator that the first has committed. Calls of different paths do
not exclude each other, and the local bootstrap has no lock at all.
-/

namespace VerigenceSecurity
set_option autoImplicit false

open Transaction Program Relational

inductive BootstrapCall
  | provision (call : ProvisionCall)
  | bootstrapClaim (call : ClaimCall)
  | bootstrapIfNeeded (call : LocalBootstrapCall)

inductive BootstrapResult
  | provisioned (result : InitialSuperAdminProvisioningResult)
  | claimed (result : PlatformIdentityResult)
  | bootstrapped (userId : Option Uuid)
  deriving DecidableEq, Repr

def BootstrapCall.program (hashtext : String → Int) : BootstrapCall → Tx BootstrapResult
  | provision call => do
    let result ← VerigenceSecurity.provision hashtext call
    pure (.provisioned result)
  | bootstrapClaim call => do
    let result ← VerigenceSecurity.bootstrapClaim hashtext call
    pure (.claimed result)
  | bootstrapIfNeeded call => do
    let userId ← VerigenceSecurity.bootstrapIfNeeded call
    pure (.bootstrapped userId)

def BootstrapCall.lock (hashtext : String → Int) : BootstrapCall → Option RowLock
  | provision _ => some (advisoryLock hashtext provisionLockKey)
  | bootstrapClaim _ => some (advisoryLock hashtext claimLockKey)
  | bootstrapIfNeeded _ => none

/-! ## What a call has found and written -/

def FoundNone (g : TxProgress) : Prop :=
  ∃ e ∈ g.history, e.label = .activeSuperAdminExists ∧ e.committed.activeSuperAdmins = []

instance (g : TxProgress) : Decidable (FoundNone g) := by
  unfold FoundNone
  infer_instance

/-- The call has found no administrator, holds its lock and has not seen one since. -/
structure Cleared (lock : Option RowLock) (g : TxProgress) : Prop where
  held : ∀ l ∈ lock, l ∈ g.locks
  checked : FoundNone g
  last : ∀ e ∈ g.history.head?, e.committed.activeSuperAdmins = []

def Write.grantsPlatformRole : Write → Bool
  | insertPlatformUserRoleAssignment _ => true
  | _ => false

def grants (g : TxProgress) : Nat := g.pending.countP Write.grantsPlatformRole

theorem activeSuperAdmins_apply_le (w : Write) (db : Database) :
    (w.apply db).activeSuperAdmins.length ≤
      db.activeSuperAdmins.length + if w.grantsPlatformRole then 1 else 0 := by
  cases w with
  | insertPlatformUserRoleAssignment row =>
    simp only [Write.apply, Database.activeSuperAdmins, Write.grantsPlatformRole, if_true, Table.insert]
    cases hinsert : db.platformUserRoleAssignments.insert? row with
    | none => simp
    | some table =>
      rw [Option.getD_some, Table.rows_of_insert? hinsert, List.filter_append, List.length_append]
      have hone := List.length_filter_le (fun r : PlatformUserRoleAssignment =>
        decide (r.roleKey = superAdminRoleKey ∧ r.status = .active)) [row]
      exact Nat.add_le_add_left hone _
  | _ => exact Nat.le_refl _

theorem activeSuperAdmins_replayAll_le (ws : List Write) (db : Database) :
    (replayAll ws db).activeSuperAdmins.length ≤
      db.activeSuperAdmins.length + ws.countP Write.grantsPlatformRole := by
  induction ws generalizing db with
  | nil => exact Nat.le_refl _
  | cons w ws ih =>
    rw [replayAll_cons, replay_eq, List.countP_cons]
    have hrest := ih (w.apply db)
    have hfirst := activeSuperAdmins_apply_le w db
    omega

theorem insertRow_quiet {ρ : Type} [Row ρ] {table : Rows ρ} {row : ρ} {references : List Reference}
    {write : Write} {o : Outcome Write RowLock Unit} (h : insertRow table row references write = .ok o)
    (hwrite : write.grantsPlatformRole = false) : ∀ w ∈ o.edits, w.grantsPlatformRole = false := by
  intro w hw
  rw [(insertRow_ok h).2.2, List.mem_singleton] at hw
  rwa [hw]

/-- Terms under which a call of a bootstrap path runs: while it is cleared nobody else creates an
administrator, and it commits an assignment only when it is cleared. -/
structure Bootstraps {α : Type} (lock : Option RowLock)
    (T : Terms Database Write RowLock StatementName Failure α) : Prop where
  rely : ∀ g db, T.rely 0 g db → Cleared lock g → db.activeSuperAdmins = []
  always : ∀ n g, T.always n g
  commits : ∀ g db, grants g = 0 ∨ grants g = 1 ∧ Cleared lock g → T.commits 0 g db
  returns : ∀ r n g, T.returns r n g

def bootstrapTerms (lock : Option RowLock) :
    Terms Database Write RowLock StatementName Failure BootstrapResult where
  rely n g db := n = 0 → Cleared lock g → db.activeSuperAdmins = []
  always _ _ := True
  commits n g _ := n = 0 ∧ (grants g = 0 ∨ grants g = 1 ∧ Cleared lock g)
  returns _ _ _ := True

theorem bootstraps_terms (lock : Option RowLock) : Bootstraps lock (bootstrapTerms lock) where
  rely _ _ h := h rfl
  always _ _ := trivial
  commits _ _ h := ⟨rfl, h⟩
  returns _ _ _ := trivial

section Keeps

variable {α β : Type} {lock : Option RowLock} {n m : Nat} {g : TxProgress}
  {T : Terms Database Write RowLock StatementName Failure α}

/-- Inside a `try` block, whose errors are rolled back and raised again. -/
theorem Bootstraps.guarded (hT : Bootstraps lock T) :
    Bootstraps lock (T.guarded fun e n g => (rollbackAndRaise e).Keeps T n g) where
  rely := hT.rely
  always := hT.always
  commits := hT.commits
  returns r n g := by
    cases r with
    | ok a => exact hT.returns (.ok a) n g
    | error e => exact ⟨hT.always n g, hT.always n g.ended, hT.returns (.error e) n g.ended⟩

theorem Bootstraps.keeps_within (hT : Bootstraps lock T) {Q : Write → Prop} {p : Tx α}
    (hp : p.Within Q) : p.Keeps T n g := by
  induction p generalizing g with
  | done r => exact ⟨hT.always n g, hT.returns r n g⟩
  | statement label run failed next ihf ihn =>
    refine ⟨hT.always n g, fun db _ => ?_⟩
    cases run (replayAll g.pending db) with
    | error e => exact ihf e (hp.2.1 e)
    | ok o => exact ihn o.value (hp.2.2 o.value)
  | commit p ih => exact hp.elim
  | rollback p ih => exact hp.elim

theorem Cleared.ran {label : StatementName} {db : Database} {o : Outcome Write RowLock β}
    (h : Cleared lock g) (hdb : db.activeSuperAdmins = []) : Cleared lock (g.ran label db o) where
  held l hl := List.mem_append_right _ (h.held l hl)
  checked := by
    obtain ⟨e, he, hnone⟩ := h.checked
    exact ⟨e, List.mem_cons_of_mem _ he, hnone⟩
  last e he := by
    cases he
    exact hdb

/-- A part of a cleared call that assigns no platform role. -/
theorem Bootstraps.keeps_quiet_bind (hT : Bootstraps lock T) {p : Tx β} {k : β → Tx α}
    (hp : p.Within fun w => w.grantsPlatformRole = false) (hg : Cleared lock g) (hm : grants g = m)
    (hk : ∀ b g', Cleared lock g' → grants g' = m → (k b).Keeps T 0 g') : (p >>= k).Keeps T 0 g := by
  have hl : p.Only fun _ => True := by
    clear hp
    induction p with
    | done r => trivial
    | statement label run failed next ihf ihn => exact ⟨trivial, ihf, ihn⟩
    | commit p ih => exact ih
    | rollback p ih => exact ih
  refine keeps_within_bind (Cleared lock) hp hl hg ?_ (fun _ g' _ _ _ => hT.always 0 g') ?_
    (fun e _ g' _ _ _ => hT.returns (.error e) 0 g')
  · exact fun g' db label o hg' hdb => hg'.ran (hT.rely g' db hdb hg')
  · intro b es g' hg' hadds hes
    apply hk b g' hg'
    have hnone : es.countP Write.grantsPlatformRole = 0 :=
      List.countP_eq_zero.mpr fun w hw => by simp [hes w hw]
    simp only [grants, hadds.pending, List.countP_append, hnone]
    exact hm

theorem Bootstraps.keeps_grant_bind (hT : Bootstraps lock T) {k : Unit → Tx α}
    {assignmentId userId changeId : Uuid} {correlationId operationKey : String} {now : Instant}
    (hg : Cleared lock g) (hm : grants g = 0)
    (hk : ∀ g', Cleared lock g' → grants g' = 1 → (k ()).Keeps T 0 g') :
    (grantSuperAdmin assignmentId userId changeId correlationId operationKey now >>= k).Keeps T 0 g := by
  unfold grantSuperAdmin
  rw [Program.bind_assoc]
  refine keeps_execute_bind (hT.always 0 g) ?_ fun _ e _ _ => ⟨hT.always 0 _, hT.returns (.error e) 0 _⟩
  intro db o hdb ho
  have hedits := (insertRow_ok ho).2.2
  refine hT.keeps_quiet_bind ?_ (hg.ran (hT.rely g db hdb hg)) ?_ fun _ g' hg' hm' => hk g' hg' hm'
  · exact within_execute fun db o ho => insertRow_quiet ho rfl
  · simp only [grants, Progress.ran, List.countP_append, hedits] at hm ⊢
    rw [hm]
    rfl

/-- A part after which the call only reads. -/
theorem Bootstraps.part (hT : Bootstraps lock T) {Q : Write → Prop} {k : β → Tx α}
    (hk : ∀ b, (k b).Within Q) : Bootstraps lock (T.part fun b n g => (k b).Keeps T n g) where
  rely := hT.rely
  always := hT.always
  commits := hT.commits
  returns r n g := by
    cases r with
    | ok b => exact hT.keeps_within (hk b)
    | error e => exact hT.returns (.error e) n g

theorem Bootstraps.keeps_check_bind (hT : Bootstraps lock T) {k : Bool → Tx α}
    (hlock : ∀ l ∈ lock, l ∈ g.locks) (hg : g.pending = []) (hfound : ∀ g', (k true).Keeps T 0 g')
    (hnone : ∀ g', Cleared lock g' → grants g' = 0 → (k false).Keeps T 0 g') :
    (activeSuperAdminExists >>= k).Keeps T 0 g := by
  refine keeps_query_bind (hT.always 0 g) ?_ fun _ _ _ he => nomatch he
  intro db found _ hfind
  cases hfind
  rw [hg, replayAll_nil]
  by_cases hempty : db.activeSuperAdmins = []
  · have hcleared : Cleared lock (g.failed .activeSuperAdminExists db) := by
      refine ⟨hlock, ⟨_, List.mem_cons_self, rfl, hempty⟩, ?_⟩
      intro e he
      cases he
      exact hempty
    have hgrants : grants (g.failed .activeSuperAdminExists db) = 0 := by
      simp [grants, Progress.failed, hg]
    simpa [hempty] using hnone _ hcleared hgrants
  · simpa [hempty] using hfound (g.failed .activeSuperAdminExists db)

theorem Bootstraps.keeps_lock_bind {hashtext : String → Int} {key : String} {k : Unit → Tx α}
    (hT : Bootstraps (some (advisoryLock hashtext key)) T) (hg : g.pending = [])
    (hk : ∀ g', (∀ l ∈ some (advisoryLock hashtext key), l ∈ g'.locks) → g'.pending = [] →
      (k ()).Keeps T 0 g') : (advisoryXactLock hashtext key >>= k).Keeps T 0 g := by
  refine keeps_execute_bind (hT.always 0 g) ?_ fun _ _ _ he => nomatch he
  intro db o _ ho
  cases ho
  refine hk _ ?_ (by simp only [Progress.ran, hg, List.append_nil])
  intro l hl
  cases hl
  exact List.mem_cons_self

theorem createClerkAccount_within (subject displayName : String) (userId externalIdentityId : Uuid)
    (now : Instant) : (createClerkAccount subject displayName userId externalIdentityId now).Within
      fun w => w.grantsPlatformRole = false := by
  refine within_bind (within_execute fun db o ho => ?_) fun _ =>
    within_bind (within_execute fun db o ho => ?_) fun _ => within_execute fun db o ho => ?_
  · split at ho
    · cases ho
    · exact insertRow_quiet ho rfl
  · split at ho
    · cases ho
    · exact insertRow_quiet ho rfl
  · exact insertRow_quiet ho rfl

theorem Bootstraps.keeps_end (hT : Bootstraps lock T) {a : α} (hg : Cleared lock g) (hm : grants g = 1) :
    (commitNow >>= fun _ => pure a).Keeps T 0 g :=
  keeps_commitNow_bind (hT.always 0 g) (fun db _ => hT.commits g db (Or.inr ⟨hm, hg⟩))
    (keeps_pure (hT.always 1 _) (hT.returns _ 1 _))

theorem provision_keeps {hashtext : String → Int} (p : ProvisionCall) {T : Terms Database Write RowLock
    StatementName Failure InitialSuperAdminProvisioningResult}
    (hT : Bootstraps (some (advisoryLock hashtext provisionLockKey)) T) :
    (provision hashtext p).Keeps T 0 Progress.start := by
  unfold provision
  dsimp only
  split
  · exact hT.keeps_within (Q := fun _ => True) (within_raise _)
  apply keeps_attempt
  have hbody := hT.guarded
  refine hbody.keeps_lock_bind rfl ?_
  intro g₁ hlock₁ hpending₁
  refine keeps_query_bind (hbody.always 0 g₁) ?_ fun _ _ _ he => nomatch he
  intro db existing _ _
  cases existing with
  | some userId =>
    refine keeps_query_bind (hbody.always 0 _) ?_ fun _ _ _ he => nomatch he
    intro db' isSuperAdmin _ _
    cases isSuperAdmin with
    | true =>
      refine keeps_commitNow_bind (hbody.always 0 _) ?_
        (keeps_pure (hbody.always 1 _) (hbody.returns _ 1 _))
      intro _ _
      refine hbody.commits _ _ (Or.inl ?_)
      simp [grants, Progress.failed, hpending₁]
    | false => exact hbody.keeps_within (Q := fun _ => True) (within_raise _)
  | none =>
    refine hbody.keeps_check_bind hlock₁ hpending₁ ?_ ?_
    · exact fun _ => hbody.keeps_within (Q := fun _ => True) (within_raise _)
    · intro g₂ hg₂ hm₂
      refine hbody.keeps_quiet_bind (createClerkAccount_within ..) hg₂ hm₂ ?_
      intro _ g₃ hg₃ hm₃
      exact hbody.keeps_grant_bind hg₃ hm₃ fun g₄ hg₄ hm₄ => hbody.keeps_end hg₄ hm₄

theorem resolveOrCreateSecurityUser_within (c : ClaimCall) :
    (resolveOrCreateSecurityUser c).Within fun w => w.grantsPlatformRole = false := by
  unfold resolveOrCreateSecurityUser
  apply within_bind within_query
  rintro (_ | state)
  · exact within_bind (createClerkAccount_within ..) fun _ => within_pure _
  · dsimp only
    split
    · exact within_raise _
    · split
      · exact within_raise _
      · exact within_pure _

theorem issueForUser_within (c : ClaimCall) (userId : Uuid) :
    (issueForUser c userId).Within fun _ => True := by
  unfold issueForUser
  apply within_bind within_query
  intro grants
  dsimp only
  split
  · exact within_raise _
  · exact within_bind (within_done _) fun _ => within_pure _

theorem bootstrapClaim_keeps {hashtext : String → Int} (c : ClaimCall) {T : Terms Database Write RowLock
    StatementName Failure PlatformIdentityResult}
    (hT : Bootstraps (some (advisoryLock hashtext claimLockKey)) T) :
    (bootstrapClaim hashtext c).Keeps T 0 Progress.start := by
  unfold bootstrapClaim
  refine keeps_done_bind ?_ fun e _ => ⟨hT.always 0 _, hT.returns (.error e) 0 _⟩
  intro _ _
  dsimp only
  split
  · exact hT.keeps_within (Q := fun _ => True) (within_raise _)
  split
  · exact hT.keeps_within (Q := fun _ => True) (within_raise _)
  apply keeps_bind
  apply keeps_attempt
  have hbody := (hT.part (issueForUser_within c)).guarded
  refine hbody.keeps_lock_bind rfl ?_
  intro g₁ hlock₁ hpending₁
  refine hbody.keeps_check_bind hlock₁ hpending₁ ?_ ?_
  · exact fun _ => hbody.keeps_within (Q := fun _ => True) (within_raise _)
  · intro g₂ hg₂ hm₂
    refine hbody.keeps_quiet_bind (resolveOrCreateSecurityUser_within c) hg₂ hm₂ ?_
    intro userId g₃ hg₃ hm₃
    exact hbody.keeps_grant_bind hg₃ hm₃ fun g₄ hg₄ hm₄ => hbody.keeps_end hg₄ hm₄

theorem bootstrapIfNeeded_keeps (c : LocalBootstrapCall) {T : Terms Database Write RowLock
    StatementName Failure (Option Uuid)} (hT : Bootstraps none T) :
    (bootstrapIfNeeded c).Keeps T 0 Progress.start := by
  unfold bootstrapIfNeeded
  dsimp only
  split
  · exact hT.keeps_within (Q := fun _ => True) (within_pure _)
  refine hT.keeps_check_bind nofun rfl ?_ ?_
  · exact fun _ => hT.keeps_within (Q := fun _ => True) (within_pure _)
  intro g₁ hg₁ hm₁
  apply keeps_attempt
  have hbody := hT.guarded
  refine hbody.keeps_quiet_bind (within_execute fun db o ho => ?_) hg₁ hm₁ ?_
  · split at ho
    · cases ho
    · exact insertRow_quiet ho rfl
  intro _ g₂ hg₂ hm₂
  refine hbody.keeps_quiet_bind (within_execute fun db o ho => ?_) hg₂ hm₂ ?_
  · split at ho
    · cases ho
    · exact insertRow_quiet ho rfl
  intro _ g₃ hg₃ hm₃
  refine hbody.keeps_quiet_bind (within_execute fun db o ho => ?_) hg₃ hm₃ ?_
  · split at ho
    · cases ho
    · exact insertRow_quiet ho rfl
  intro _ g₄ hg₄ hm₄
  exact hbody.keeps_grant_bind hg₄ hm₄ fun g₅ hg₅ hm₅ => hbody.keeps_end hg₅ hm₅

theorem Bootstraps.keeps_map (hT : Bootstraps lock T) {p : Tx β} (f : β → α)
    (hp : ∀ U : Terms Database Write RowLock StatementName Failure β, Bootstraps lock U →
      p.Keeps U 0 Progress.start) : (p >>= fun b => pure (f b)).Keeps T 0 Progress.start :=
  keeps_bind (hp _ (hT.part (Q := fun _ => True) fun b => within_pure (f b)))

theorem BootstrapCall.keeps (hashtext : String → Int) (c : BootstrapCall) :
    (c.program hashtext).Keeps (bootstrapTerms (c.lock hashtext)) 0 Progress.start := by
  have hterms := bootstraps_terms (c.lock hashtext)
  cases c with
  | provision call => exact hterms.keeps_map .provisioned fun U hU => provision_keeps call hU
  | bootstrapClaim call => exact hterms.keeps_map .claimed fun U hU => bootstrapClaim_keeps call hU
  | bootstrapIfNeeded call =>
    exact hterms.keeps_map .bootstrapped fun U hU => bootstrapIfNeeded_keeps call hU

end Keeps

/-! ## Overlapping calls -/

def bootstraps (hashtext : String → Int) (calls : List BootstrapCall) (db : Database) :
    TxState BootstrapResult :=
  State.initial db (calls.map (BootstrapCall.program hashtext))

def lockAt (hashtext : String → Int) (calls : List BootstrapCall) (i : Nat) : Option RowLock :=
  calls[i]?.bind (BootstrapCall.lock hashtext)

def SharesLock (hashtext : String → Int) (calls : List BootstrapCall) (i j : Nat) : Prop :=
  lockAt hashtext calls i ≠ none ∧ lockAt hashtext calls j = lockAt hashtext calls i

instance (hashtext : String → Int) (calls : List BootstrapCall) (i j : Nat) :
    Decidable (SharesLock hashtext calls i j) :=
  inferInstanceAs (Decidable (_ ∧ _))

/-- Every other open call that has found no administrator shares the lock of this one. -/
def OthersLocked (hashtext : String → Int) (calls : List BootstrapCall) (s : TxState BootstrapResult)
    (i : Nat) : Prop :=
  ∀ j < s.calls.length, j ≠ i → ∀ d ∈ s.calls[j]?, d.finished = false → FoundNone d.progress →
    SharesLock hashtext calls i j

instance (hashtext : String → Int) (calls : List BootstrapCall) (s : TxState BootstrapResult)
    (i : Nat) : Decidable (OthersLocked hashtext calls s i) := by
  unfold OthersLocked
  infer_instance

/-- No assignment is committed while a call that shares no lock with this one, and has found no
administrator, is still open. -/
def CreatesAlone (hashtext : String → Int) (calls : List BootstrapCall) (s : TxState BootstrapResult)
    (i : Nat) : Prop :=
  ∀ c ∈ s.calls[i]?, c.committing = true → grants c.progress ≠ 0 → OthersLocked hashtext calls s i

instance (hashtext : String → Int) (calls : List BootstrapCall) (s : TxState BootstrapResult)
    (i : Nat) : Decidable (CreatesAlone hashtext calls s i) := by
  unfold CreatesAlone
  infer_instance

section Run

variable {hashtext : String → Int} {calls : List BootstrapCall} {order : List Nat}
  {s t : TxState BootstrapResult} {i : Nat}

/-- What holds in every state: nobody who is cleared to create an administrator is too late. -/
structure OneAdministrator (hashtext : String → Int) (calls : List BootstrapCall) (order : List Nat)
    (s : TxState BootstrapResult) : Prop where
  exclusive : s.Exclusive RowLock.conflicts
  one : s.committed.activeSuperAdmins.length ≤ 1
  cleared : ∀ j (c : Call Database Write RowLock StatementName Failure BootstrapResult),
    s.calls[j]? = some c → c.finished = false → order.count j = 0 →
      Cleared (lockAt hashtext calls j) c.progress → s.committed.activeSuperAdmins = []

theorem OneAdministrator.rely (h : OneAdministrator hashtext calls order s) (i : Nat)
    (c : Call Database Write RowLock StatementName Failure BootstrapResult) (hc : s.calls[i]? = some c)
    (hunfinished : c.finished = false) :
    (bootstrapTerms (lockAt hashtext calls i)).rely (order.count i) c.progress s.committed :=
  fun hcount hcleared => h.cleared i c hc hunfinished hcount hcleared

/-- A call that has just run a statement or ended its transaction. -/
theorem OneAdministrator.cleared_own (h : OneAdministrator hashtext calls order s)
    {c c' : Call Database Write RowLock StatementName Failure BootstrapResult}
    (hc : s.calls[i]? = some c)
    (hadvance : c.advance (s.free RowLock.conflicts i) s.committed = some (c', s.committed))
    (hcount : order.count i = 0) (hcleared : Cleared (lockAt hashtext calls i) c'.progress) :
    s.committed.activeSuperAdmins = [] := by
  rcases Call.progress_of_advance hadvance with hended | ⟨_, hhead⟩
  · rw [hended] at hcleared
    refine h.cleared i c hc (Call.unfinished_of_advance hadvance) hcount ⟨?_, hcleared.checked, hcleared.last⟩
    intro l hl
    exact absurd (hcleared.held l hl) List.not_mem_nil
  · obtain ⟨e, he, _⟩ := hcleared.checked
    cases hhistory : c'.progress.history with
    | nil =>
      rw [hhistory] at he
      cases he
    | cons last earlier =>
      have hmem : last ∈ c'.progress.history.head? := by rw [hhistory]; rfl
      rw [← hhead last hmem]
      exact hcleared.last last hmem

/-- Two open calls do not both hold the lock that they share. -/
theorem OneAdministrator.lock_not_shared (h : OneAdministrator hashtext calls order s) {j : Nat}
    {c d : Call Database Write RowLock StatementName Failure BootstrapResult} (hji : j ≠ i)
    (hc : s.calls[i]? = some c) (hd : s.calls[j]? = some d) (hcf : c.finished = false)
    (hdf : d.finished = false) (hic : Cleared (lockAt hashtext calls i) c.progress)
    (hjd : Cleared (lockAt hashtext calls j) d.progress) (hlock : lockAt hashtext calls i ≠ none) :
    lockAt hashtext calls j ≠ lockAt hashtext calls i := by
  intro hsame
  obtain ⟨l, hl⟩ := Option.ne_none_iff_exists'.mp hlock
  have hli := hic.held l hl
  have hlj := hjd.held l (hsame.trans hl)
  have hno := h.exclusive j i d c hji hd hc l (by rwa [Call.held_of_unfinished hdf]) l
    (by rwa [Call.held_of_unfinished hcf])
  have hmode : l.mode = .update := by
    obtain ⟨call, _, hcall⟩ := Option.bind_eq_some_iff.mp hl
    cases call <;> cases hcall <;> rfl
  simp [RowLock.conflicts, hmode, LockMode.conflicts] at hno

theorem OneAdministrator.step
    (hkeeps : s.Keeps (fun i => bootstrapTerms (lockAt hashtext calls i)) order)
    (h : OneAdministrator hashtext calls order s) (hok : CreatesAlone hashtext calls s i)
    (hstep : s.step RowLock.conflicts i = some t) :
    OneAdministrator hashtext calls (s.orderAfter i order) t := by
  have hexclusive := h.exclusive.step RowLock.conflicts_comm hstep
  rcases hkeeps.committed (h.rely i) hstep with ⟨hno, hdb⟩ | ⟨c, hc, hyes, hcommit, _, ⟨hcount, hgrants⟩, hdb⟩
  · obtain ⟨c, c', hc, hadvance, hcalls⟩ := State.step_cases hstep
    rw [hdb] at hadvance
    have horder : s.orderAfter i order = order := by simp [State.orderAfter, hno]
    rw [horder]
    refine ⟨hexclusive, by rw [hdb]; exact h.one, ?_⟩
    intro j d hd hunfinished hj hcleared
    rw [hdb]
    rcases State.call_cases hcalls hd with ⟨rfl, rfl⟩ | ⟨_, hd⟩
    · exact h.cleared_own hc hadvance hj hcleared
    · exact h.cleared j d hd hunfinished hj hcleared
  · have hunfinished := Call.unfinished_of_committing hcommit
    have hlength : t.committed.activeSuperAdmins.length ≤
        s.committed.activeSuperAdmins.length + grants c.progress := by
      rw [hdb]
      exact activeSuperAdmins_replayAll_le _ _
    obtain ⟨d, c', hd, _, hcalls⟩ := State.step_cases hstep
    rw [hc] at hd
    cases hd
    rcases hgrants with hzero | ⟨hone, hcleared⟩
    · rw [hzero, Nat.add_zero] at hlength
      refine ⟨hexclusive, hlength.trans h.one, ?_⟩
      intro j d hd hdf hj hdc
      rcases State.call_cases hcalls hd with ⟨rfl, _⟩ | ⟨_, hd⟩
      · simp [State.orderAfter, hyes] at hj
      · have hbefore := h.cleared j d hd hdf (List.count_eq_zero.mpr fun hmem =>
          List.count_eq_zero.mp hj (List.mem_append_left _ hmem)) hdc
        rw [hbefore] at hlength
        exact List.eq_nil_of_length_eq_zero (Nat.le_zero.mp hlength)
    · have hnone := h.cleared i c hc hunfinished hcount hcleared
      rw [hone, hnone] at hlength
      refine ⟨hexclusive, hlength, ?_⟩
      intro j d hd hdf hj hdc
      rcases State.call_cases hcalls hd with ⟨rfl, _⟩ | ⟨hji, hd⟩
      · simp [State.orderAfter, hyes] at hj
      · -- The other call would hold the lock that the two share.
        have hlen := (List.getElem?_eq_some_iff.mp hd).1
        obtain ⟨hlock, hsame⟩ := hok c hc hcommit (by omega) j hlen hji d hd hdf hdc.checked
        exact absurd hsame (h.lock_not_shared hji hc hd hunfinished hdf hcleared hdc hlock)

theorem oneAdministrator_initial {db : Database} (hnone : db.activeSuperAdmins = []) :
    OneAdministrator hashtext calls [] (bootstraps hashtext calls db) where
  exclusive := State.exclusive_initial db _
  one := by
    change db.activeSuperAdmins.length ≤ 1
    rw [hnone]
    exact Nat.zero_le 1
  cleared _ _ _ _ _ _ := hnone

theorem bootstraps_keeps (db : Database) : (bootstraps hashtext calls db).Keeps
    (fun i => bootstrapTerms (lockAt hashtext calls i)) [] := by
  apply State.keeps_initial
  intro i p hp
  rw [List.getElem?_map] at hp
  obtain ⟨c, hc, rfl⟩ := Option.map_eq_some_iff.mp hp
  simp only [lockAt, hc, Option.bind_some]
  exact c.keeps hashtext

end Run

theorem at_most_one_super_admin (hashtext : String → Int) (calls : List BootstrapCall) (db : Database)
    (hnone : db.activeSuperAdmins = []) {s : TxState BootstrapResult}
    (hreach : State.Reaches RowLock.conflicts (CreatesAlone hashtext calls)
      (bootstraps hashtext calls db) s) :
    s.committed.activeSuperAdmins.length ≤ 1 := by
  have hstep : ∀ order s t i, s.Keeps (fun i => bootstrapTerms (lockAt hashtext calls i)) order →
      OneAdministrator hashtext calls order s → CreatesAlone hashtext calls s i →
      s.step RowLock.conflicts i = some t → OneAdministrator hashtext calls (s.orderAfter i order) t :=
    fun order s t i hkeeps hinv hok hstep => hinv.step hkeeps hok hstep
  obtain ⟨order, _, h⟩ := State.Reaches.keeps (fun order s i _ hinv _ c hc => hinv.rely i c hc) hstep
    (bootstraps_keeps db) (oneAdministrator_initial hnone) hreach
  exact h.one

def newPlatform : Database :=
  { (default : Database) with platformRoles := Table.empty.insert ⟨superAdminRoleKey, .active⟩ }

def provisionFor (clerkUserId : String) (n : String) : BootstrapCall :=
  .provision ⟨clerkUserId, "superadmin", 0, "user-" ++ n, "identity-" ++ n, "assignment-" ++ n,
    "change-" ++ n, "correlation"⟩

/-- The second operator finds the administrator whom the first has made. -/
theorem second_provision_is_refused : ∃ s : TxState BootstrapResult,
    State.Reaches RowLock.conflicts (CreatesAlone (fun key => key.length)
      [provisionFor "user_a" "1", provisionFor "user_b" "2"])
      (bootstraps (fun key => key.length) [provisionFor "user_a" "1", provisionFor "user_b" "2"]
        newPlatform) s ∧
    s.committed.activeSuperAdmins.length ≤ 1 ∧
    s.committed.activeSuperAdmins.map (·.userId) = ["user-1"] := by
  have hok : (bootstraps (fun key => key.length)
      [provisionFor "user_a" "1", provisionFor "user_b" "2"] newPlatform).Meets RowLock.conflicts
      (CreatesAlone (fun key => key.length) [provisionFor "user_a" "1", provisionFor "user_b" "2"])
      (List.replicate 9 0 ++ List.replicate 4 1 ++ []) := by
    decide +kernel
  have hrun : ((bootstraps (fun key => key.length)
      [provisionFor "user_a" "1", provisionFor "user_b" "2"] newPlatform).run RowLock.conflicts
      (List.replicate 9 0 ++ List.replicate 4 1)).map (fun s =>
        s.committed.activeSuperAdmins.map (·.userId)) = some ["user-1"] := by
    decide +kernel
  obtain ⟨s, hs, husers⟩ := Option.map_eq_some_iff.mp hrun
  have hreach := (State.reaches_of_run hok hs).1
  exact ⟨s, hreach, at_most_one_super_admin _ _ newPlatform rfl hreach, husers⟩

def localBootstrap : BootstrapCall :=
  .bootstrapIfNeeded {
    settings := { platformBootstrapEnabled := true, platformBootstrapLogin := "superadmin" }
    passwordHash := "hash", now := 0, userId := "user-2", credentialId := "credential"
    assignmentId := "assignment-2", changeId := "change-2", correlationUuid := "uuid" }

/-- The local bootstrap has found no administrator when the operator provisions one. -/
theorem bootstrap_beside_provision : ¬ ∀ (hashtext : String → Int) (calls : List BootstrapCall)
    (db : Database) (s : TxState BootstrapResult), db.activeSuperAdmins = [] →
    State.Reaches RowLock.conflicts (fun _ _ => True) (bootstraps hashtext calls db) s →
      s.committed.activeSuperAdmins.length ≤ 1 := by
  intro hclaim
  have hrun : ((bootstraps (fun key => key.length) [provisionFor "user_a" "1", localBootstrap]
      newPlatform).run RowLock.conflicts
      ([1] ++ List.replicate 9 0 ++ List.replicate 6 1)).map (fun s =>
        s.committed.activeSuperAdmins.length) = some 2 := by
    decide +kernel
  obtain ⟨s, hs, htwo⟩ := Option.map_eq_some_iff.mp hrun
  have hok : (bootstraps (fun key => key.length) [provisionFor "user_a" "1", localBootstrap]
      newPlatform).Meets RowLock.conflicts (fun _ _ => True)
      ([1] ++ List.replicate 9 0 ++ List.replicate 6 1 ++ []) := State.meets_true _ _
  have hreach := (State.reaches_of_run hok hs).1
  have hone := hclaim _ _ newPlatform s rfl hreach
  omega

end VerigenceSecurity
