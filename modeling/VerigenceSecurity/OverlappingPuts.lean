import Mathlib.Data.List.Permutation
import VerigenceSecurity.Library.Serialization
import VerigenceSecurity.TemplateIntegrity

/-! # Overlapping puts of one module

The writes of `put_catalog` begin with the row of the module, which stays locked until the
end. Its validation reads the permissions before that, so that a put may commit what it
would no longer accept.
-/

namespace VerigenceSecurity
set_option autoImplicit false

open Transaction Program

structure ModulePut where
  c : AdminCall
  databaseNow : Instant
  freshId : Nat → Uuid
  pathModuleKey : String
  catalog : CatalogInput

namespace ModulePut

variable (lower : String → String)

def program (put : ModulePut) : Tx CatalogResponse :=
  putCatalog lower put.c put.databaseNow put.freshId put.pathModuleKey put.catalog

def moduleKey (put : ModulePut) : String := lower (strip put.pathModuleKey)

def validation (put : ModulePut) : Tx Unit := validateCatalog lower (put.moduleKey lower) put.catalog

/-- A put that commits would still be accepted by its validation. -/
def CommitsValid (puts : List ModulePut) (s : TxState CatalogResponse) (i : Nat) : Prop :=
  s.commitsNext i = true → ∀ put ∈ puts[i]?, (put.validation lower).Passes s.committed

instance (puts : List ModulePut) (s : TxState CatalogResponse) (i : Nat) :
    Decidable (CommitsValid lower puts s i) :=
  inferInstanceAs (Decidable (_ → ∀ put ∈ puts[i]?, _))

end ModulePut

/-! ## The validation -/

theorem rechecks_validateTemplatePermission (moduleKey : String) (catalog : CatalogInput)
    (template : RoleTemplateInput) (key : String) :
    (validateTemplatePermission moduleKey catalog template key).Rechecks := by
  unfold validateTemplatePermission
  dsimp only
  split
  · exact rechecks_raise _
  · split
    · split
      · exact rechecks_raise _
      · exact rechecks_pure
    · refine rechecks_query fun existing => ?_
      split
      · exact ⟨_, rfl⟩
      · split
        · exact ⟨_, rfl⟩
        · split
          · exact ⟨_, rfl⟩
          · exact ⟨_, rfl⟩

theorem rechecks_validateTemplate (moduleKey : String) (catalog : CatalogInput)
    (template : RoleTemplateInput) : (validateTemplate moduleKey catalog template).Rechecks := by
  unfold validateTemplate
  split
  · exact rechecks_raise _
  · split
    · exact rechecks_raise _
    · split
      · exact rechecks_raise _
      · exact rechecks_each (rechecks_validateTemplatePermission moduleKey catalog template) _

theorem rechecks_validateCatalog (lower : String → String) (moduleKey : String)
    (catalog : CatalogInput) : (validateCatalog lower moduleKey catalog).Rechecks := by
  unfold validateCatalog
  split
  · exact rechecks_raise _
  · split
    · exact rechecks_raise _
    · split
      · exact rechecks_raise _
      · split
        · exact rechecks_raise _
        · refine rechecks_bind (rechecks_each (fun p => rechecks_done _) _) ?_
          split
          · exact rechecks_raise _
          · exact rechecks_each (rechecks_validateTemplate moduleKey catalog) _

/-! ## The row of the module -/

def ModuleLock (moduleKey : String) (l : RowLock) : Prop :=
  l.relation = .modules ∧ l.entry = (.primary, [moduleKey]) ∧
    (l.mode = .noKeyUpdate ∨ l.mode = .update)

theorem moduleLock_conflicts {moduleKey : String} {l k : RowLock} (hl : ModuleLock moduleKey l)
    (hk : ModuleLock moduleKey k) : RowLock.conflicts l k = true := by
  obtain ⟨hlr, hle, hlm⟩ := hl
  obtain ⟨hkr, hke, hkm⟩ := hk
  have hmodes : l.mode.conflicts k.mode = true := by
    rcases hlm with h | h <;> rcases hkm with h' | h' <;> rw [h, h'] <;> rfl
  simp only [RowLock.conflicts, hlr, hkr, hle, hke, hmodes, and_self, decide_true, Bool.and_self]

theorem upsertModule_locks {moduleKey name version : String} {db : Database}
    {references : List Reference} {write : Write} {o : Outcome Write RowLock Unit}
    (h : upsertRow db.modules (.primary, [moduleKey]) ⟨moduleKey, name, version, .active⟩ references
      write = .ok o) : ∃ l ∈ o.locks, ModuleLock moduleKey l := by
  unfold upsertRow at h
  split at h
  · cases h
    exact ⟨_, List.mem_singleton_self _, rfl, rfl, Or.inl rfl⟩
  · exact ⟨_, insertRow_locks h (List.mem_singleton_self _), rfl, rfl, Or.inr rfl⟩

theorem concludes_rollbackAndRaise {α : Type} (e : Failure) :
    (rollbackAndRaise e : Tx α).Concludes := ⟨e, rfl⟩

/-- After its validation a put takes the row of its module, and then it commits or is rolled back. -/
theorem putCatalog_checksThenLocks (lower : String → String) (put : ModulePut) :
    ChecksThenLocks (ModuleLock (put.moduleKey lower)) (put.validation lower)
      (put.program lower) := by
  refine ⟨rechecks_validateCatalog lower _ put.catalog, _, rfl, ?_⟩
  constructor
  · exact fun e => ⟨e, rfl⟩
  · intro db o ho
    constructor
    · obtain ⟨_, ho⟩ := fits_ok ho
      split at ho
      · cases ho
      · cases hwritten : upsertRow db.modules (.primary, [put.moduleKey lower])
            ⟨put.moduleKey lower, strip put.catalog.moduleName, strip put.catalog.catalogVersion, .active⟩
            [db.userReference put.c.actorUserId] (.upsertModule ⟨put.moduleKey lower,
              strip put.catalog.moduleName, strip put.catalog.catalogVersion, .active⟩) with
        | error e =>
          unfold ModulePut.moduleKey at hwritten
          rw [hwritten] at ho
          cases ho
        | ok written =>
          obtain ⟨l, hl, hlock⟩ := upsertModule_locks hwritten
          unfold ModulePut.moduleKey at hwritten
          rw [hwritten] at ho
          cases ho
          exact ⟨l, List.mem_cons_of_mem _ hl, hlock⟩
    · refine concludes_attempt_bind (Q := fun _ => False) (within_pure _) concludes_rollbackAndRaise
        fun _ => ?_
      refine concludes_attempt_bind (within_each fun p _ => within_putPermission _ _ _ p)
        concludes_rollbackAndRaise fun _ => ?_
      refine concludes_attempt_bind (within_each fun t _ => within_putTemplate (put.freshId t.2) _ _ t.1)
        concludes_rollbackAndRaise fun _ => ?_
      refine concludes_attempt_bind (Q := fun _ => False) within_query concludes_rollbackAndRaise
        fun row => ?_
      refine concludes_attempt_bind (within_catalogResponse _ row) concludes_rollbackAndRaise
        fun response => ?_
      refine concludes_attempt_bind (within_platformAudit put.c _ _ _) concludes_rollbackAndRaise
        fun _ => ?_
      exact ⟨response, rfl⟩

/-- Some order of the puts that have ended, one after another, leaves these rows and gives the
same answers. -/
def ModulePut.Serializable (lower : String → String) (puts : List ModulePut) (db : Database)
    (t : TxState CatalogResponse) : Prop :=
  ∃ order : List Nat, order.Nodup ∧ (∀ i ∈ order, i < puts.length) ∧
    (∀ (i : Nat) (c : Call Database Write RowLock StatementName Failure CatalogResponse),
      t.calls[i]? = some c → c.finished = true → i ∈ order) ∧
    t.committed = serially (puts.map (ModulePut.program lower)) db order ∧
    ∀ before i after, order = before ++ i :: after → ∀ put ∈ puts[i]?,
      t.answer i = ((put.program lower).alone
        (serially (puts.map (ModulePut.program lower)) db before)).1.toOption

/-- Puts of one module whose commits would still pass their validation are serializable. -/
theorem concurrent_puts_are_serial (lower : String → String) (moduleKey : String)
    (puts : List ModulePut) (hkey : ∀ put ∈ puts, put.moduleKey lower = moduleKey) (db : Database)
    {schedule : List Nat} {t : TxState CatalogResponse}
    (hok : (State.initial db (puts.map (ModulePut.program lower))).Meets RowLock.conflicts
      (ModulePut.CommitsValid lower puts) schedule)
    (hrun : (State.initial db (puts.map (ModulePut.program lower))).run RowLock.conflicts schedule =
      some t) :
    ModulePut.Serializable lower puts db t := by
  have hprograms : ∀ (i : Nat) (p : Tx CatalogResponse),
      (puts.map (ModulePut.program lower))[i]? = some p → ChecksThenLocks (ModuleLock moduleKey)
        ((puts[i]?).elim (pure ()) (ModulePut.validation lower)) p := by
    intro i p hp
    rw [List.getElem?_map, Option.map_eq_some_iff] at hp
    obtain ⟨put, hput, rfl⟩ := hp
    rw [hput, ← hkey put (List.mem_of_getElem? hput)]
    exact putCatalog_checksThenLocks lower put
  have hvalid : (State.initial db (puts.map (ModulePut.program lower))).Meets RowLock.conflicts
      (fun s i => s.commitsNext i = true →
        ((puts[i]?).elim (pure ()) (ModulePut.validation lower)).Passes s.committed) schedule := by
    refine hok.weaken fun s i hvalid hcommits => ?_
    cases hput : puts[i]? with
    | none => rfl
    | some put => exact hvalid hcommits put hput
  obtain ⟨order, hnodup, hcalled, hfinished, hcommitted, hanswers⟩ :=
    State.exists_serial_of_run RowLock.conflicts_comm (fun _ _ => moduleLock_conflicts) hprograms
      hvalid hrun
  refine ⟨order, hnodup, ?_, hfinished, hcommitted, ?_⟩
  · intro i hi
    simpa using hcalled i hi
  · intro before i after hsplit put hput
    refine hanswers before i after hsplit _ ?_
    rw [List.getElem?_map, hput]
    rfl

/-! ## Two puts -/

def templatePut : ModulePut :=
  ⟨⟨"user", "first", 0, "", "first audit"⟩, 0, fun _ => "template", "sales",
    { salesCatalog "ACTIVE" ["sales.order.read"] with permissions := [] }⟩

def permissionPut (status : String) : ModulePut :=
  ⟨⟨"user", "second", 0, "", "second audit"⟩, 0, fun _ => "other", "sales",
    { salesCatalog status [] with roleTemplates := [], catalogVersion := "3" }⟩

/-- The first put has validated its template, then the second runs and commits. -/
def betweenReadAndLock : List Nat := [0] ++ List.replicate 8 1 ++ List.replicate 10 0

/-- A second put that leaves the permission `ACTIVE` comes first in the order. -/
theorem active_permission_between_read_and_lock : ∃ t : TxState CatalogResponse,
    t.committed.modules.rows.map (·.catalogVersion) = ["2"] ∧
      ModulePut.Serializable asciiLower [templatePut, permissionPut "ACTIVE"] clerkDatabase t := by
  have hrun : ((State.initial clerkDatabase ([templatePut, permissionPut "ACTIVE"].map
      (ModulePut.program asciiLower))).run RowLock.conflicts betweenReadAndLock).map
        (fun t => t.committed.modules.rows.map (·.catalogVersion)) = some ["2"] := by
    decide +kernel
  obtain ⟨t, ht, hversion⟩ := Option.map_eq_some_iff.mp hrun
  refine ⟨t, hversion, concurrent_puts_are_serial asciiLower "sales" _ ?_ clerkDatabase ?_ ht⟩
  · decide +kernel
  · decide +kernel

/-- A put commits a template of a permission that has been deprecated since it was read. -/
theorem deprecation_between_read_and_lock : ¬ ∀ (lower : String → String) (moduleKey : String)
    (puts : List ModulePut), (∀ put ∈ puts, put.moduleKey lower = moduleKey) →
      ∀ (db : Database) (schedule : List Nat) (t : TxState CatalogResponse),
        (State.initial db (puts.map (ModulePut.program lower))).run RowLock.conflicts schedule =
          some t → ModulePut.Serializable lower puts db t := by
  intro hserial
  let puts := [templatePut, permissionPut "DEPRECATED"]
  have hrun : ((State.initial clerkDatabase (puts.map (ModulePut.program asciiLower))).run
      RowLock.conflicts betweenReadAndLock).map (fun t =>
        (t.committed.modules.rows.map (·.catalogVersion), (t.answer 0).isSome,
          t.calls.map Call.finished)) = some (["2"], true, [true, true]) := by
    decide +kernel
  obtain ⟨t, ht, hobserved⟩ := Option.map_eq_some_iff.mp hrun
  simp only [Prod.mk.injEq] at hobserved
  obtain ⟨hversion, hanswer, hall⟩ := hobserved
  obtain ⟨order, hnodup, hcalled, hfinished, hcommitted, hanswers⟩ :=
    hserial asciiLower "sales" puts (by decide +kernel) clerkDatabase _ t ht
  have hboth : ∀ i, i ∈ order ↔ i ∈ [0, 1] := by
    intro i
    constructor
    · intro hi
      have hlt := hcalled i hi
      change i < 2 at hlt
      simp only [List.mem_cons, List.not_mem_nil, or_false]
      omega
    · intro hi
      have hlookup : ∀ j : Nat, (t.calls[j]?).map Call.finished = ([true, true] : List Bool)[j]? := by
        intro j
        rw [← hall, List.getElem?_map]
      have hdone : (t.calls[i]?).map Call.finished = some true := by
        rw [hlookup]
        rcases List.mem_pair.mp hi with rfl | rfl <;> rfl
      obtain ⟨c, hc, hcfinished⟩ := Option.map_eq_some_iff.mp hdone
      exact hfinished i c hc hcfinished
  have hperm : order.Perm [0, 1] := (List.perm_ext_iff_of_nodup hnodup (by decide)).mpr hboth
  rcases List.perm_pair.mp hperm with rfl | rfl
  · -- After the deprecation the module has the second version.
    rw [hcommitted] at hversion
    revert hversion
    decide +kernel
  · -- After the deprecation the template is refused.
    have hrefused := hanswers [1] 0 [] rfl templatePut rfl
    rw [hrefused] at hanswer
    revert hanswer
    decide +kernel

end VerigenceSecurity
