import VerigenceSecurity.CatalogVersions
import VerigenceSecurity.Library.RelyGuarantee

/-! # What a put of a catalogue changes

A successful put writes the rows that its submission determines: each permission under
its key, each template under its natural key, and the permission set of each template.
-/

namespace VerigenceSecurity
set_option autoImplicit false

open Transaction Relational Program

variable {db view : Database} {moduleKey catalogVersion : String}

/-! ## Permissions -/

def Database.putRow (db : Database) (moduleKey catalogVersion : String) (p : PermissionInput) :
    Option Permission :=
  match LifecycleStatus.ofText? p.status with
  | none => db.permissionRow? p.key
  | some status =>
    let row := permissionRow moduleKey catalogVersion p status
    some ((db.permissionRow? p.key).elim row row.registered)

/-- The sync of the super admin's grants touches no other table. -/
theorem syncSuperAdminPermission_frame {row : Permission} {o : Outcome Write RowLock Unit}
    (h : syncSuperAdminPermission db row = .ok o) (d : Database) :
    replayAll o.edits d =
      { d with platformRolePermissions := (replayAll o.edits d).platformRolePermissions } := by
  unfold syncSuperAdminPermission at h
  cases hstatus : row.status with
  | active =>
    simp only [hstatus] at h
    split at h
    · cases h
      rfl
    · rw [(insertRow_ok h).2.2]
      rfl
  | deprecated | retired =>
    simp only [hstatus] at h
    cases h
    rfl

theorem registered_of_not_same {row stored : Permission} (h : ¬ row.sameAction stored) :
    row.registered stored = stored := by
  unfold Permission.registered
  exact if_neg h

/-- A registration writes under its key only. -/
theorem registerPermission_row {row : Permission} {o : Outcome Write RowLock Unit}
    (h : registerPermission db row = .ok o) (key : String) :
    (replayAll o.edits db).permissionRow? key =
      if key = row.permissionKey then some ((db.permissionRow? key).elim row row.registered)
      else db.permissionRow? key := by
  rcases registerPermission_cases h with ⟨⟨stored, hstored, hne⟩, hedits⟩ | ⟨_, synced, hsync, hedits⟩
  · rw [hedits, replayAll_nil]
    split
    · rename_i hkey
      rw [hkey, hstored, Option.elim_some, registered_of_not_same hne]
    · rfl
  · rw [hedits, replayAll_cons, replay_eq, ← Database.permissionRow?_upsert]
    unfold Database.permissionRow?
    rw [syncSuperAdminPermission_frame hsync]

theorem registerPermission_frame {row : Permission} {o : Outcome Write RowLock Unit}
    (h : registerPermission db row = .ok o) : replayAll o.edits db =
      { db with
        permissions := (replayAll o.edits db).permissions
        platformRolePermissions := (replayAll o.edits db).platformRolePermissions } := by
  rcases registerPermission_cases h with ⟨_, hedits⟩ | ⟨_, synced, hsync, hedits⟩
  · rw [hedits]
    rfl
  · rw [hedits, replayAll_cons, replay_eq]
    rw [syncSuperAdminPermission_frame hsync]
    rfl

structure PermissionsPut (db : Database) (moduleKey catalogVersion : String)
    (seen : List PermissionInput) (view : Database) : Prop where
  rows : ∀ p ∈ seen, view.permissionRow? p.key = db.putRow moduleKey catalogVersion p
  others : ∀ key, (∀ p ∈ seen, p.key ≠ key) → view.permissionRow? key = db.permissionRow? key
  owned : ∀ p ∈ seen, ∀ stored ∈ db.permissionRow? p.key, stored.moduleKey = moduleKey
  lifecycle : ∀ p ∈ seen, ∃ status, LifecycleStatus.ofText? p.status = some status
  frame : view = { db with
    permissions := view.permissions
    platformRolePermissions := view.platformRolePermissions }

theorem permissionsPut_nil (db : Database) (moduleKey catalogVersion : String) :
    PermissionsPut db moduleKey catalogVersion [] db where
  rows _ hp := absurd hp List.not_mem_nil
  others _ _ := rfl
  owned _ hp := absurd hp List.not_mem_nil
  lifecycle _ hp := absurd hp List.not_mem_nil
  frame := rfl

theorem PermissionsPut.snoc {seen : List PermissionInput} {databaseNow : Instant} {p : PermissionInput}
    {s t : Session Database} (h : PermissionsPut db moduleKey catalogVersion seen s.view)
    (hfresh : ∀ q ∈ seen, q.key ≠ p.key)
    (hrun : (putPermission moduleKey catalogVersion databaseNow p).exec s = (.ok (), t)) :
    PermissionsPut db moduleKey catalogVersion (seen ++ [p]) t.view := by
  obtain ⟨howned, status, o, hstatus, ho, rfl⟩ := putPermission_run hrun
  have hbefore := h.others p.key hfresh
  have hrow : ∀ key, (replayAll o.edits s.view).permissionRow? key = if key = p.key then _ else _ :=
    registerPermission_row ho
  constructor
  · intro q hq
    rcases List.mem_append.mp hq with hq | hq
    · rw [hrow, if_neg (hfresh q hq)]
      exact h.rows q hq
    · rw [List.mem_singleton.mp hq, hrow, if_pos rfl, hbefore]
      unfold Database.putRow
      rw [hstatus]
  · intro key hkey
    have hne : key ≠ p.key := fun heq =>
      hkey p (List.mem_append_right _ List.mem_cons_self) heq.symm
    rw [hrow, if_neg hne]
    exact h.others key fun q hq => hkey q (List.mem_append_left _ hq)
  · intro q hq
    rcases List.mem_append.mp hq with hq | hq
    · exact h.owned q hq
    · rw [List.mem_singleton.mp hq, ← hbefore]
      exact howned
  · intro q hq
    rcases List.mem_append.mp hq with hq | hq
    · exact h.lifecycle q hq
    · rw [List.mem_singleton.mp hq]
      exact ⟨status, hstatus⟩
  · have hframe := registerPermission_frame ho
    rw [h.frame] at hframe ⊢
    exact hframe

theorem PermissionsPut.loop {permissions : List PermissionInput} {databaseNow : Instant}
    {s t : Session Database} (hnodup : (permissions.map (·.key)).Nodup)
    (h : PermissionsPut db moduleKey catalogVersion [] s.view)
    (hrun : (each (putPermission moduleKey catalogVersion databaseNow) permissions).exec s =
      (.ok (), t)) : PermissionsPut db moduleKey catalogVersion permissions t.view := by
  refine exec_each_ok (fun seen s => PermissionsPut db moduleKey catalogVersion seen s.view) ?_ hrun h
  intro seen p rest hsplit s t hseen hp
  refine hseen.snoc ?_ hp
  intro q hq
  rw [← hsplit, List.map_append, List.map_cons, List.nodup_append] at hnodup
  exact hnodup.2.2 q.key (List.mem_map_of_mem hq) p.key List.mem_cons_self

/-! ## Templates -/

theorem templateEntry_mem_iff {r : ModuleRoleTemplate} {mk tk : String} :
    (Index.natural, [mk, tk]) ∈ Row.entries r ↔ r.moduleKey = mk ∧ r.templateKey = tk := by
  simp [Row.entries, eq_comm]

theorem Database.templateRow?_eq_some_iff {mk tk : String} {row : ModuleRoleTemplate} :
    db.templateRow? mk tk = some row ↔
      row ∈ db.moduleRoleTemplates.rows ∧ row.moduleKey = mk ∧ row.templateKey = tk := by
  constructor
  · intro h
    have hkey := List.find?_some h
    exact ⟨List.mem_of_find?_eq_some h, of_decide_eq_true hkey⟩
  · rintro ⟨hrow, hkey⟩
    refine Table.find?_of_mem hrow (decide_eq_true hkey) (.natural, [mk, tk]) ?_
    intro r hr
    exact templateEntry_mem_iff.mpr (of_decide_eq_true hr)

/-- The upsert of a template that is not refused. -/
theorem Database.templateRow?_upsert {row : ModuleRoleTemplate} (mk tk : String)
    (hfree : (∀ r ∈ db.moduleRoleTemplates.rows,
      (Index.natural, [row.moduleKey, row.templateKey]) ∉ Row.entries r) →
        (db.moduleRoleTemplates.insert? row).isSome = true) :
    (Write.apply db (.upsertTemplate row)).templateRow? mk tk =
      if mk = row.moduleKey ∧ tk = row.templateKey then
        some ((db.templateRow? mk tk).elim row fun r => { r with
          templateName := row.templateName
          description := row.description
          catalogVersion := row.catalogVersion
          status := row.status })
      else db.templateRow? mk tk := by
  unfold templateRow? Write.apply
  rw [Table.find?_upsert (k := (.natural, [mk, tk]))]
  · simp only [Prod.mk.injEq, List.cons.injEq, and_true, true_and]
  · intro r
    rw [templateEntry_mem_iff, decide_eq_true_eq]
  · exact fun r => rfl
  · simp only [decide_eq_true_eq, Prod.mk.injEq, List.cons.injEq, and_true, true_and]
    exact and_congr eq_comm eq_comm
  · intro r hr
    rw [templateEntry_mem_iff] at hr ⊢
    simp [hr]
  · exact hfree

theorem upsertRow_free {ρ : Type} [Row ρ] {table : Rows ρ} {entry : IndexEntry} {row : ρ}
    {references : List Reference} {write : Write} {o : Outcome Write RowLock Unit}
    (h : upsertRow table entry row references write = .ok o)
    (hnone : ∀ r ∈ table.rows, entry ∉ Row.entries r) : (table.insert? row).isSome = true := by
  unfold upsertRow at h
  split at h
  · rename_i hany
    obtain ⟨r, hr, howns⟩ := List.any_eq_true.mp hany
    exact absurd (of_decide_eq_true howns) (hnone r hr)
  · exact (insertRow_ok h).1

def Database.templateId (db : Database) (moduleKey : String) (t : RoleTemplateInput) (freshId : Uuid) :
    Uuid :=
  ((db.templateRow? moduleKey t.key).map (·.templateId)).getD freshId

def templateRow (templateId : Uuid) (moduleKey catalogVersion : String) (t : RoleTemplateInput)
    (status : LifecycleStatus) : ModuleRoleTemplate :=
  ⟨templateId, moduleKey, t.key, strip t.name, t.description, catalogVersion, status⟩

def Database.TemplatePermission (db : Database) (templateId : Uuid) (key : String) : Prop :=
  ⟨templateId, key⟩ ∈ db.moduleRoleTemplatePermissions.rows

theorem insertTemplatePermissions_run {templateId : Uuid} {keys : List String} {s t : Session Database}
    (h : (each (insertTemplatePermission templateId) keys).exec s = (.ok (), t)) :
    t = ⟨s.committed, { s.view with
        moduleRoleTemplatePermissions := t.view.moduleRoleTemplatePermissions }⟩ ∧
      ∀ id key, t.view.TemplatePermission id key ↔
        s.view.TemplatePermission id key ∨ id = templateId ∧ key ∈ keys := by
  refine exec_each_ok (fun seen u => u = ⟨s.committed, { s.view with
      moduleRoleTemplatePermissions := u.view.moduleRoleTemplatePermissions }⟩ ∧
    ∀ id key, u.view.TemplatePermission id key ↔
      s.view.TemplatePermission id key ∨ id = templateId ∧ key ∈ seen) ?_ h ⟨rfl, ?_⟩
  · rintro seen k rest _ u v ⟨hframe, hmem⟩ hrun
    obtain ⟨o, ho, _, rfl⟩ := exec_execute_ok hrun
    obtain ⟨hfree, _, hedits⟩ := insertRow_ok ho
    obtain ⟨inserted, hinsert⟩ := Option.isSome_iff_exists.mp hfree
    constructor
    · rw [hedits, hframe]
      rfl
    · intro id key
      have hrows : ∀ r, r ∈ (replayAll o.edits u.view).moduleRoleTemplatePermissions.rows ↔
          r ∈ u.view.moduleRoleTemplatePermissions.rows ∨ r = ⟨templateId, k⟩ := by
        intro r
        rw [hedits, replayAll_cons, replayAll_nil, replay_eq]
        simp only [Write.apply, Table.rows_insert_of_some hinsert, List.mem_append, List.mem_singleton]
      have hbefore := hmem id key
      unfold Database.TemplatePermission at hbefore ⊢
      rw [hrows, hbefore, or_assoc, List.mem_append, List.mem_singleton, and_or_left,
        ModuleRoleTemplatePermission.mk.injEq]
  · intro id key
    simp

/-- One round of the loop over the templates that succeeds. -/
theorem putTemplate_run {freshId : Uuid} {t : RoleTemplateInput} {s u : Session Database}
    (h : (putTemplate freshId moduleKey catalogVersion t).exec s = (.ok (), u)) :
    ∃ status, LifecycleStatus.ofText? t.status = some status ∧
      (∀ mk tk, u.view.templateRow? mk tk = if mk = moduleKey ∧ tk = t.key then
        some (templateRow (s.view.templateId moduleKey t freshId) moduleKey catalogVersion t status)
        else s.view.templateRow? mk tk) ∧
      (∀ id key, u.view.TemplatePermission id key ↔
        s.view.TemplatePermission id key ∧ id ≠ s.view.templateId moduleKey t freshId ∨
          id = s.view.templateId moduleKey t freshId ∧ key ∈ t.permissions) ∧
      u.view = { s.view with
        moduleRoleTemplates := u.view.moduleRoleTemplates
        moduleRoleTemplatePermissions := u.view.moduleRoleTemplatePermissions } := by
  unfold putTemplate upsertTemplate at h
  obtain ⟨templateId, s₁, hupsert, h⟩ := exec_bind_ok h
  obtain ⟨existing, s₂, hlock, hupsert⟩ := exec_bind_ok hupsert
  obtain ⟨_, s₃, hwrite, hpure⟩ := exec_bind_ok hupsert
  obtain ⟨_, s₄, hdelete, hinsert⟩ := exec_bind_ok h
  obtain ⟨o₁, ho₁, rfl, rfl⟩ := exec_execute_ok hlock
  cases ho₁
  obtain ⟨o₂, ho₂, _, rfl⟩ := exec_execute_ok hwrite
  obtain ⟨hid, rfl⟩ := Prod.ext_iff.mp hpure
  obtain ⟨o₃, ho₃, _, rfl⟩ := exec_execute_ok hdelete
  cases ho₃
  rw [← Except.ok.inj hid] at hinsert
  change (each (insertTemplatePermission (s.view.templateId moduleKey t freshId)) _).exec _ = _ at hinsert
  dsimp only [replayAll_nil] at ho₂
  split at ho₂
  · cases ho₂
  rename_i status hstatus
  change upsertRow s.view.moduleRoleTemplates (.natural, [moduleKey, t.key])
    (templateRow (s.view.templateId moduleKey t freshId) moduleKey catalogVersion t status) _
    (.upsertTemplate (templateRow (s.view.templateId moduleKey t freshId) moduleKey catalogVersion t
      status)) = _ at ho₂
  obtain ⟨hframe, hmem⟩ := insertTemplatePermissions_run hinsert
  rw [upsertRow_edits ho₂] at hframe hmem
  generalize hT : s.view.templateId moduleKey t freshId = T at hframe hmem ho₂ ⊢
  have hrows : ∀ mk tk, (Write.apply s.view (.upsertTemplate
      (templateRow T moduleKey catalogVersion t status))).templateRow? mk tk = _ :=
    fun mk tk => Database.templateRow?_upsert mk tk (upsertRow_free ho₂)
  refine ⟨status, hstatus, ?_, ?_, ?_⟩
  · intro mk tk
    have hview : u.view.templateRow? mk tk = (Write.apply s.view (.upsertTemplate
        (templateRow T moduleKey catalogVersion t status))).templateRow? mk tk := by
      rw [hframe]
      rfl
    rw [hview, hrows]
    change (if mk = moduleKey ∧ tk = t.key then _ else _) = _
    split
    · rename_i hkey
      rw [hkey.1, hkey.2]
      cases hstored : s.view.templateRow? moduleKey t.key with
      | none => rfl
      | some r =>
        obtain ⟨_, hm, hk⟩ := Database.templateRow?_eq_some_iff.mp hstored
        have hrid : r.templateId = T := by
          rw [← hT]
          unfold Database.templateId
          rw [hstored]
          rfl
        rw [Option.elim_some]
        unfold templateRow
        rw [← hrid, ← hm, ← hk]
    · rfl
  · intro id key
    rw [hmem]
    refine or_congr ?_ ?_
    · unfold Database.TemplatePermission
      change (⟨id, key⟩ : ModuleRoleTemplatePermission) ∈
        (s.view.moduleRoleTemplatePermissions.delete _).rows ↔ _
      rw [Table.mem_delete, decide_eq_false_iff_not, ← hT]
      rfl
    · rw [mem_sortedSet]
  · rw [hframe]
    rfl

structure TemplatesPut (db : Database) (moduleKey catalogVersion : String)
    (seen : List RoleTemplateInput) (view : Database) : Prop where
  rows : ∀ t ∈ seen, ∃ status freshId, LifecycleStatus.ofText? t.status = some status ∧
    view.templateRow? moduleKey t.key =
      some (templateRow (db.templateId moduleKey t freshId) moduleKey catalogVersion t status)
  others : ∀ mk tk, (mk = moduleKey → ∀ t ∈ seen, t.key ≠ tk) →
    view.templateRow? mk tk = db.templateRow? mk tk
  submitted : ∀ t ∈ seen, ∀ r, view.templateRow? moduleKey t.key = some r →
    ∀ key, view.TemplatePermission r.templateId key ↔ key ∈ t.permissions
  kept : ∀ mk tk, (mk = moduleKey → ∀ t ∈ seen, t.key ≠ tk) → ∀ r, view.templateRow? mk tk = some r →
    ∀ key, view.TemplatePermission r.templateId key ↔ db.TemplatePermission r.templateId key
  frame : view = { db with
    moduleRoleTemplates := view.moduleRoleTemplates
    moduleRoleTemplatePermissions := view.moduleRoleTemplatePermissions }

theorem templatesPut_nil (db : Database) (moduleKey catalogVersion : String) :
    TemplatesPut db moduleKey catalogVersion [] db where
  rows _ ht := absurd ht List.not_mem_nil
  others _ _ _ := rfl
  submitted _ ht := absurd ht List.not_mem_nil
  kept _ _ _ _ _ _ := Iff.rfl
  frame := rfl

theorem TemplatesPut.snoc {seen : List RoleTemplateInput} {freshId : Uuid} {t : RoleTemplateInput}
    {s u : Session Database} (h : TemplatesPut db moduleKey catalogVersion seen s.view)
    (hfresh : ∀ q ∈ seen, q.key ≠ t.key)
    (hrun : (putTemplate freshId moduleKey catalogVersion t).exec s = (.ok (), u)) :
    TemplatesPut db moduleKey catalogVersion (seen ++ [t]) u.view := by
  obtain ⟨status, hstatus, hrows, hmem, hframe⟩ := putTemplate_run hrun
  have hbefore : s.view.templateRow? moduleKey t.key = db.templateRow? moduleKey t.key :=
    h.others moduleKey t.key fun _ => hfresh
  have hid : s.view.templateId moduleKey t freshId = db.templateId moduleKey t freshId := by
    unfold Database.templateId
    rw [hbefore]
  rw [hid] at hrows hmem
  have hown := hrows moduleKey t.key
  rw [if_pos ⟨rfl, rfl⟩] at hown
  -- Two templates never share an id, so the other ones keep their permissions.
  have hother : ∀ mk tk, ¬ (mk = moduleKey ∧ tk = t.key) → ∀ r, u.view.templateRow? mk tk = some r →
      s.view.templateRow? mk tk = some r ∧ ∀ key, u.view.TemplatePermission r.templateId key ↔
        s.view.TemplatePermission r.templateId key := by
    intro mk tk hkey r hr
    have hold := hrows mk tk
    rw [if_neg hkey] at hold
    refine ⟨hold ▸ hr, fun key => ?_⟩
    obtain ⟨hrmem, hrm, hrk⟩ := Database.templateRow?_eq_some_iff.mp hr
    obtain ⟨hnewmem, hnewm, hnewk⟩ := Database.templateRow?_eq_some_iff.mp hown
    have hne : r.templateId ≠ db.templateId moduleKey t freshId := by
      intro heq
      have hsame := Table.shared_entry hrmem hnewmem (k := (.primary, [r.templateId]))
        List.mem_cons_self (by rw [heq]; exact List.mem_cons_self)
      exact hkey ⟨hrm.symm.trans (hsame ▸ hnewm), hrk.symm.trans (hsame ▸ hnewk)⟩
    rw [hmem]
    simp [hne]
  constructor
  · intro q hq
    rcases List.mem_append.mp hq with hq | hq
    · obtain ⟨qstatus, qfresh, hqstatus, hqrow⟩ := h.rows q hq
      refine ⟨qstatus, qfresh, hqstatus, ?_⟩
      rw [hrows, if_neg fun hkey => hfresh q hq hkey.2]
      exact hqrow
    · rw [List.mem_singleton.mp hq]
      exact ⟨status, freshId, hstatus, hown⟩
  · intro mk tk hkey
    have hne : ¬ (mk = moduleKey ∧ tk = t.key) := fun heq =>
      hkey heq.1 t (List.mem_append_right _ List.mem_cons_self) heq.2.symm
    rw [hrows, if_neg hne]
    exact h.others mk tk fun hm q hq => hkey hm q (List.mem_append_left _ hq)
  · intro q hq r hr key
    rcases List.mem_append.mp hq with hq | hq
    · obtain ⟨hold, hsame⟩ := hother moduleKey q.key (fun hkey => hfresh q hq hkey.2) r hr
      rw [hsame]
      exact h.submitted q hq r hold key
    · rw [List.mem_singleton.mp hq] at hr ⊢
      rw [hown] at hr
      rw [← Option.some.inj hr, hmem]
      simp [templateRow]
  · intro mk tk hkey r hr key
    have hne : ¬ (mk = moduleKey ∧ tk = t.key) := fun heq =>
      hkey heq.1 t (List.mem_append_right _ List.mem_cons_self) heq.2.symm
    obtain ⟨hold, hsame⟩ := hother mk tk hne r hr
    rw [hsame]
    exact h.kept mk tk (fun hm q hq => hkey hm q (List.mem_append_left _ hq)) r hold key
  · rw [h.frame] at hframe
    exact hframe

theorem TemplatesPut.loop {templates : List RoleTemplateInput} {freshId : Nat → Uuid}
    {s u : Session Database} (hnodup : (templates.map (·.key)).Nodup)
    (h : TemplatesPut db moduleKey catalogVersion [] s.view)
    (hrun : (each (fun t => putTemplate (freshId t.2) moduleKey catalogVersion t.1)
      templates.zipIdx).exec s = (.ok (), u)) :
    TemplatesPut db moduleKey catalogVersion templates u.view := by
  have hput := exec_each_ok (fun seen s => TemplatesPut db moduleKey catalogVersion
    (seen.map Prod.fst) s.view) ?_ hrun h
  · rwa [List.zipIdx_map_fst] at hput
  · intro seen t rest hsplit s u hseen ht
    rw [List.map_append, List.map_singleton]
    refine hseen.snoc ?_ ht
    intro q hq
    have hkeys : templates = seen.map Prod.fst ++ t.1 :: rest.map Prod.fst := by
      rw [← List.zipIdx_map_fst 0 templates, ← hsplit, List.map_append, List.map_cons]
    rw [hkeys, List.map_append, List.map_cons, List.nodup_append] at hnodup
    exact hnodup.2.2 q.key (List.mem_map_of_mem hq) t.1.key List.mem_cons_self

/-! ## What validation has checked -/

theorem within_false_exec {α : Type} {p : Tx α} (hp : p.Within fun _ => False) {s t : Session Database}
    {r : Except Failure α} (h : p.exec s = (r, t)) : t = s := by
  have hkeep := hp.exec (R := fun db => db = s.view) (fun _ _ hf => hf.elim) (s := s) rfl
  rw [h] at hkeep
  obtain ⟨hview, hcommitted⟩ := hkeep
  cases t
  cases s
  exact congrArg₂ Session.mk hcommitted hview

theorem exec_each_reads {γ : Type} {body : γ → Tx Unit} {xs : List γ} {s t : Session Database}
    (hbody : ∀ x, (body x).Within fun _ => False) (h : (each body xs).exec s = (.ok (), t)) :
    ∀ x ∈ xs, (body x).exec s = (.ok (), s) := by
  refine (exec_each_ok (fun seen u => u = s ∧ ∀ x ∈ seen, (body x).exec s = (.ok (), s)) ?_ h
    ⟨rfl, fun _ hx => absurd hx List.not_mem_nil⟩).2
  rintro seen x rest - u v ⟨rfl, hseen⟩ hx
  obtain rfl := within_false_exec (hbody x) hx
  refine ⟨rfl, fun y hy => ?_⟩
  rcases List.mem_append.mp hy with hy | hy
  · exact hseen y hy
  · rw [List.mem_singleton.mp hy]
    exact hx

/-- The permission of a template is submitted as `ACTIVE`, or stored so for the module. -/
def Database.ValidReference (db : Database) (moduleKey : String) (catalog : CatalogInput)
    (key : String) : Prop :=
  inNamespace moduleKey key = true ∧
    match catalog.permissions.find? fun p => decide (p.key = key) with
    | some submitted => submitted.status = "ACTIVE"
    | none => ∃ stored ∈ db.permissionRow? key,
      stored.moduleKey = moduleKey ∧ stored.status = .active

theorem validateTemplatePermission_ok {catalog : CatalogInput} {template : RoleTemplateInput}
    {key : String} {s t : Session Database}
    (h : (validateTemplatePermission moduleKey catalog template key).exec s = (.ok (), t)) :
    s.view.ValidReference moduleKey catalog key := by
  unfold validateTemplatePermission at h
  dsimp only at h
  unfold Database.ValidReference
  split at h
  · cases h
  rename_i hnamespace
  refine ⟨by simpa using hnamespace, ?_⟩
  cases hfound : catalog.permissions.find? fun p => decide (p.key = key) with
  | some submitted =>
    rw [hfound] at h
    dsimp only at h ⊢
    split at h
    · cases h
    · rename_i hactive
      exact not_not.mp hactive
  | none =>
    rw [hfound] at h
    dsimp only at h ⊢
    obtain ⟨existing, r, hexisting, hrest⟩ := exec_bind_ok h
    obtain ⟨hread, _⟩ := exec_query_ok hexisting
    split at hrest
    · cases hrest
    · rename_i stored
      split at hrest
      · cases hrest
      · split at hrest
        · cases hrest
        · rename_i howned hactive
          exact ⟨stored, Except.ok.inj hread, not_not.mp howned, not_not.mp hactive⟩

/-- What a catalogue meets that passes the validation. -/
structure ValidCatalog (db : Database) (moduleKey : String) (catalog : CatalogInput) : Prop where
  permissionKeys : (catalog.permissions.map (·.key)).Nodup
  namespaces : ∀ p ∈ catalog.permissions, validatePermission moduleKey p = .ok ()
  templateKeys : (catalog.roleTemplates.map (·.key)).Nodup
  references : ∀ t ∈ catalog.roleTemplates, ∀ key ∈ t.permissions,
    db.ValidReference moduleKey catalog key

theorem validateCatalog_valid {lower : String → String} {catalog : CatalogInput}
    {s t : Session Database}
    (h : (validateCatalog lower moduleKey catalog).exec s = (.ok (), t)) :
    ValidCatalog s.view moduleKey catalog := by
  obtain ⟨_, hkeys⟩ := validateCatalog_ok h
  unfold validateCatalog at h
  split at h
  · cases h
  split at h
  · cases h
  split at h
  · cases h
  obtain ⟨_, r, hpermissions, htemplates⟩ := exec_bind_ok h
  have hr : r = s := within_false_exec (within_each fun p _ => within_done _) hpermissions
  split at htemplates
  · cases htemplates
  rename_i hnodup
  refine ⟨hkeys, fun p hp => ?_, not_not.mp hnodup, fun t ht key hkey => ?_⟩
  · exact congrArg Prod.fst (exec_each_reads (fun p => within_done _) hpermissions p hp)
  · have htemplate := exec_each_reads (within_validateTemplate moduleKey catalog) htemplates t ht
    unfold validateTemplate at htemplate
    split at htemplate
    · cases htemplate
    split at htemplate
    · cases htemplate
    split at htemplate
    · cases htemplate
    rw [hr] at htemplate
    exact validateTemplatePermission_ok
      (exec_each_reads (within_validateTemplatePermission moduleKey catalog t) htemplate key hkey)

/-! ## The whole put -/

theorem moduleEntry_mem_iff {r : Module} {mk : String} :
    (Index.primary, [mk]) ∈ Row.entries r ↔ r.moduleKey = mk := by
  simp [Row.entries, eq_comm]

theorem Database.moduleRow?_eq_some_iff {mk : String} {row : Module} :
    db.moduleRow? mk = some row ↔ row ∈ db.modules.rows ∧ row.moduleKey = mk := by
  constructor
  · intro h
    have hkey := List.find?_some h
    exact ⟨List.mem_of_find?_eq_some h, of_decide_eq_true hkey⟩
  · rintro ⟨hrow, hkey⟩
    refine Table.find?_of_mem hrow (decide_eq_true hkey) (.primary, [mk]) ?_
    intro r hr
    exact moduleEntry_mem_iff.mpr (of_decide_eq_true hr)

theorem Database.moduleRow?_upsert {row : Module} (mk : String)
    (hfree : (∀ r ∈ db.modules.rows, (Index.primary, [row.moduleKey]) ∉ Row.entries r) →
      (db.modules.insert? row).isSome = true) :
    (Write.apply db (.upsertModule row)).moduleRow? mk =
      if mk = row.moduleKey then some ((db.moduleRow? mk).elim row fun r => { r with
        moduleName := row.moduleName, catalogVersion := row.catalogVersion, status := .active })
      else db.moduleRow? mk := by
  unfold moduleRow? Write.apply
  rw [Table.find?_upsert (k := (.primary, [mk]))]
  · simp only [Prod.mk.injEq, List.cons.injEq, and_true, true_and]
  · intro r
    rw [moduleEntry_mem_iff, decide_eq_true_eq]
  · exact fun r => rfl
  · simp [eq_comm]
  · intro r hr
    rw [moduleEntry_mem_iff] at hr ⊢
    simp [hr]
  · exact hfree

theorem upsertModule_run {c : AdminCall} {catalog : CatalogInput} {s t : Session Database}
    (h : (upsertModule c moduleKey catalog).exec s = (.ok (), t)) :
    (∀ mk, t.view.moduleRow? mk = if mk = moduleKey then
      some ⟨moduleKey, strip catalog.moduleName, strip catalog.catalogVersion, .active⟩
      else s.view.moduleRow? mk) ∧ t.view = { s.view with modules := t.view.modules } := by
  obtain ⟨o, ho, _, rfl⟩ := exec_execute_ok h
  obtain ⟨_, ho⟩ := fits_ok ho
  split at ho
  · cases ho
  simp only [Except.map] at ho
  split at ho
  · cases ho
  rename_i written hwritten
  cases ho
  rw [upsertRow_edits hwritten]
  constructor
  · intro mk
    rw [replayAll_cons, replayAll_nil, replay_eq, Database.moduleRow?_upsert mk]
    rotate_left
    · exact upsertRow_free hwritten
    dsimp only
    split
    · rename_i hkey
      rw [hkey]
      cases hstored : s.view.moduleRow? moduleKey with
      | none => rfl
      | some r =>
        obtain ⟨_, hm⟩ := Database.moduleRow?_eq_some_iff.mp hstored
        rw [Option.elim_some, ← hm]
    · rfl
  · rfl

theorem platformAudit_run {c : AdminCall} {operationKey resourceType resourceId : String}
    {s t : Session Database}
    (h : (platformAudit c operationKey resourceType resourceId).exec s = (.ok (), t)) :
    t.view = { s.view with adminChangeRecords := t.view.adminChangeRecords } := by
  obtain ⟨o, ho, _, rfl⟩ := exec_execute_ok h
  rw [(insertRow_ok ho).2.2]
  rfl

/-- What a put that succeeds has changed, and what it has not. -/
structure CatalogPut (db : Database) (moduleKey : String) (catalog : CatalogInput)
    (after : Database) : Prop where
  permissionKeys : (catalog.permissions.map (·.key)).Nodup
  templateKeys : (catalog.roleTemplates.map (·.key)).Nodup
  modules : ∀ mk, after.moduleRow? mk = if mk = moduleKey then
    some ⟨moduleKey, strip catalog.moduleName, strip catalog.catalogVersion, .active⟩
    else db.moduleRow? mk
  permissions : ∀ p ∈ catalog.permissions,
    after.permissionRow? p.key = db.putRow moduleKey (strip catalog.catalogVersion) p
  otherPermissions : ∀ key, (∀ p ∈ catalog.permissions, p.key ≠ key) →
    after.permissionRow? key = db.permissionRow? key
  owned : ∀ p ∈ catalog.permissions, ∀ stored ∈ db.permissionRow? p.key, stored.moduleKey = moduleKey
  lifecycle : ∀ p ∈ catalog.permissions, ∃ status, LifecycleStatus.ofText? p.status = some status
  templates : ∀ t ∈ catalog.roleTemplates, ∃ status freshId,
    LifecycleStatus.ofText? t.status = some status ∧ after.templateRow? moduleKey t.key =
      some (templateRow (db.templateId moduleKey t freshId) moduleKey (strip catalog.catalogVersion) t
        status)
  otherTemplates : ∀ mk tk, (mk = moduleKey → ∀ t ∈ catalog.roleTemplates, t.key ≠ tk) →
    after.templateRow? mk tk = db.templateRow? mk tk
  submitted : ∀ t ∈ catalog.roleTemplates, ∀ r, after.templateRow? moduleKey t.key = some r →
    ∀ key, after.TemplatePermission r.templateId key ↔ key ∈ t.permissions
  kept : ∀ mk tk, (mk = moduleKey → ∀ t ∈ catalog.roleTemplates, t.key ≠ tk) →
    ∀ r, after.templateRow? mk tk = some r →
      ∀ key, after.TemplatePermission r.templateId key ↔ db.TemplatePermission r.templateId key
  frame : after = { db with
    modules := after.modules
    permissions := after.permissions
    platformRolePermissions := after.platformRolePermissions
    moduleRoleTemplates := after.moduleRoleTemplates
    moduleRoleTemplatePermissions := after.moduleRoleTemplatePermissions
    adminChangeRecords := after.adminChangeRecords }

theorem putCatalog_put {lower : String → String} {c : AdminCall} {databaseNow : Instant}
    {freshId : Nat → Uuid} {pathModuleKey : String} {catalog : CatalogInput}
    {response : CatalogResponse} (h : ((putCatalog lower c databaseNow freshId pathModuleKey
      catalog).alone db).1 = .ok response) :
    CatalogPut db (lower (strip pathModuleKey)) catalog
      ((putCatalog lower c databaseNow freshId pathModuleKey catalog).alone db).2 := by
  obtain ⟨s₁, s₂, s₃, s₄, hvalid, hmodule, hpermissions, htemplates, haudit, hafter⟩ := putCatalog_run h
  rw [hafter]
  obtain ⟨hkeys, _, htemplateKeys, _⟩ := validateCatalog_valid hvalid
  obtain ⟨hmodules, hframe₁⟩ := upsertModule_run hmodule
  have hp := (permissionsPut_nil s₁.view (lower (strip pathModuleKey))
    (strip catalog.catalogVersion)).loop hkeys hpermissions
  have ht := (templatesPut_nil s₂.view (lower (strip pathModuleKey))
    (strip catalog.catalogVersion)).loop htemplateKeys htemplates
  have hframe₄ := platformAudit_run haudit
  have hrow₁ : ∀ key, s₁.view.permissionRow? key = db.permissionRow? key := by
    intro key
    rw [hframe₁]
    rfl
  have hrow₄ : ∀ key, s₄.view.permissionRow? key = s₂.view.permissionRow? key := by
    intro key
    rw [hframe₄, ht.frame]
    rfl
  have htemplate₂ : ∀ mk tk, s₂.view.templateRow? mk tk = db.templateRow? mk tk := by
    intro mk tk
    rw [hp.frame, hframe₁]
    rfl
  have hid₂ : ∀ t freshId, s₂.view.templateId (lower (strip pathModuleKey)) t freshId =
      db.templateId (lower (strip pathModuleKey)) t freshId := by
    intro t freshId
    unfold Database.templateId
    rw [htemplate₂]
  have htemplate₄ : ∀ mk tk, s₄.view.templateRow? mk tk = s₃.view.templateRow? mk tk := by
    intro mk tk
    rw [hframe₄]
    rfl
  have hreference₂ : ∀ id key, s₂.view.TemplatePermission id key ↔ db.TemplatePermission id key := by
    intro id key
    rw [hp.frame, hframe₁]
    exact Iff.rfl
  have hreference₄ : ∀ id key, s₄.view.TemplatePermission id key ↔
      s₃.view.TemplatePermission id key := by
    intro id key
    rw [hframe₄]
    exact Iff.rfl
  refine ⟨hkeys, htemplateKeys, ?_, ?_, ?_, ?_, hp.lifecycle, ?_, ?_, ?_, ?_, ?_⟩
  · intro mk
    rw [hframe₄, ht.frame, hp.frame]
    exact hmodules mk
  · intro p hsubmitted
    rw [hrow₄, hp.rows p hsubmitted]
    unfold Database.putRow
    rw [hrow₁]
  · intro key hkey
    rw [hrow₄, hp.others key hkey, hrow₁]
  · intro p hsubmitted
    rw [← hrow₁]
    exact hp.owned p hsubmitted
  · intro t hsubmitted
    obtain ⟨status, freshId, hstatus, hrow⟩ := ht.rows t hsubmitted
    refine ⟨status, freshId, hstatus, ?_⟩
    rw [htemplate₄, hrow, hid₂]
  · intro mk tk hkey
    rw [htemplate₄, ht.others mk tk hkey, htemplate₂]
  · intro t hsubmitted r hr key
    rw [hreference₄]
    exact ht.submitted t hsubmitted r (htemplate₄ _ _ ▸ hr) key
  · intro mk tk hkey r hr key
    rw [hreference₄, ht.kept mk tk hkey r (htemplate₄ _ _ ▸ hr), hreference₂]
  · rw [hframe₄, ht.frame, hp.frame, hframe₁]

end VerigenceSecurity
