import VerigenceSecurity.TemplateBindings

/-! # Template provenance among overlapping calls

Roles, their permissions and the keys of templates stay, so that what a call has read about
them still holds at its commit. A commit keeps one `CURRENT` binding per template where it
replaces every one that it finds.
-/

namespace VerigenceSecurity
set_option autoImplicit false

open Transaction Relational Program

/-! ## A commit among overlapping calls -/

theorem mem_rolePermissions_of_insert {ws : List Write} {db : Database} {row : RolePermission}
    (hws : ∀ w ∈ ws, w.OfBindings) (hrole : db.HasRole row.tenantId row.roleId)
    (h : .insertRolePermission row ∈ ws) : row ∈ (replayAll ws db).rolePermissions.rows := by
  induction ws generalizing db with
  | nil => cases h
  | cons w ws ih =>
    have hrest : ∀ w' ∈ ws, w'.OfBindings := fun w' hw' => hws w' (List.mem_cons_of_mem w hw')
    rcases List.mem_cons.mp h with rfl | h
    · refine (grows_replayAll hrest _).permissions row ?_
      change row ∈ (Write.apply db (.insertRolePermission row)).rolePermissions.rows
      simp only [Write.apply, RbacTables.insertRolePermission]
      unfold Database.HasRole at hrole
      rw [if_pos hrole]
      refine (Table.mem_insert_iff fun a ha k hk hk' => ?_).mpr (Or.inr rfl)
      rw [List.mem_singleton.mp hk] at hk'
      have hkey := congrArg Prod.snd (List.mem_singleton.mp hk')
      simp only [List.cons.injEq, and_true] at hkey
      obtain ⟨a₁, a₂, a₃⟩ := a
      obtain ⟨rfl, rfl, rfl⟩ := hkey
      rfl
    · exact ih hrest ((grows_apply (hws w List.mem_cons_self) db).roles _ _ hrole) h

/-- Distinct keys tell the paired rows apart. -/
theorem eq_of_paired {κ ρ : Type} {R : κ → ρ → Prop} {S : ρ → ρ → Prop} {keys : List κ}
    {rows : List ρ} (h : List.Forall₂ R keys rows) (hkeys : keys.Nodup)
    (hR : ∀ k k' b b', R k b → R k' b' → S b b' → k = k') {b b' : ρ} (hb : b ∈ rows)
    (hb' : b' ∈ rows) (hsame : S b b') : b = b' := by
  obtain ⟨i, hi, rfl⟩ := List.getElem_of_mem hb
  obtain ⟨j, hj, rfl⟩ := List.getElem_of_mem hb'
  have hi' : i < keys.length := h.length_eq ▸ hi
  have hj' : j < keys.length := h.length_eq ▸ hj
  have hkey := hR _ _ _ _ (h.get hi' hi) (h.get hj' hj) hsame
  obtain rfl := (List.Nodup.getElem_inj_iff hkeys).mp hkey
  rfl

theorem Binds.bound {t r : Uuid} {keys : List String} {g : TxProgress} (h : Binds t r keys g)
    {b : RoleTemplateBinding} (hb : b ∈ g.pending.filterMap boundRow?) :
    ∃ key ∈ keys, BoundTo t r g key b := by
  obtain ⟨i, hi, rfl⟩ := List.getElem_of_mem hb
  exact ⟨_, List.getElem_mem _, h.get (h.length_eq ▸ hi) hi⟩

theorem readTemplate_key {db : Database} {g : TxProgress} (hsince : ∀ e ∈ g.history, Grows e.committed db)
    {k k' : String} {template template' : Template} (h : ReadTemplate g k template)
    (h' : ReadTemplate g k' template') (hid : template.templateId = template'.templateId) : k = k' := by
  obtain ⟨e, he, -, hread⟩ := h
  obtain ⟨e', he', -, hread'⟩ := h'
  obtain ⟨row, hrow, hkey, hrowId, -⟩ := template_ok hread
  obtain ⟨row', hrow', hkey', hrowId', -⟩ := template_ok hread'
  obtain ⟨now, hnow, hnowId, hnowKey⟩ := (hsince e he).templates row hrow
  obtain ⟨now', hnow', hnowId', hnowKey'⟩ := (hsince e' he').templates row' hrow'
  have hids : now.templateId = now'.templateId := by
    rw [hnowId, hnowId', hrowId, hrowId', hid]
  have hsame : now = now' := Table.shared_entry hnow hnow' (k := (.primary, [now.templateId]))
    List.mem_cons_self (by rw [hids]; exact List.mem_cons_self)
  rw [← hkey, ← hkey', ← hnowKey, ← hnowKey', hsame]

/-- A commit of distinct templates for a role that exists afterwards. -/
theorem binds_commit {t r : Uuid} {keys : List String} {g : TxProgress} {db : Database}
    (hbinds : Binds t r keys g) (hkeys : keys.Nodup)
    (hsince : ∀ e ∈ g.history, Grows e.committed db) (hws : ∀ w ∈ g.pending, w.OfBindings)
    (hrole : (replayAll g.pending db).HasRole t r)
    (hinserted : ∀ k, .insertRolePermission ⟨t, r, k⟩ ∈ g.pending →
      ⟨t, r, k⟩ ∈ (replayAll g.pending db).rolePermissions.rows)
    (hreplaced : ∀ b ∈ g.pending.filterMap boundRow?, ∀ b' ∈ db.roleTemplateBindings.rows,
      b'.status = .current → b.Replaces b' → ∃ w ∈ g.pending, w.Supersedes b')
    (hdb : db.OneCurrent) (howned : db.BindingsOwned) :
    (replayAll g.pending db).OneCurrent ∧ (replayAll g.pending db).BindingsOwned ∧
      ∀ b ∈ g.pending.filterMap boundRow?, ∃ e ∈ g.history, e.label = .template ∧
        b.Truthful e.committed (replayAll g.pending db) := by
  have hgrows := grows_replayAll hws db
  have hcarried : ∀ k, Carried g ⟨t, r, k⟩ →
      ⟨t, r, k⟩ ∈ (replayAll g.pending db).rolePermissions.rows := by
    rintro k (hpending | ⟨e, he, hfound⟩)
    · exact hinserted k hpending
    · exact hgrows.permissions _ ((hsince e he).permissions _ hfound)
  refine ⟨oneCurrent_replayAll hdb ?_ hreplaced, ?_, ?_⟩
  · intro b hb b' hb' hsame
    refine eq_of_paired hbinds hkeys ?_ hb hb' hsame
    rintro k k' row row' ⟨template, hread, -, -, hid, -⟩ ⟨template', hread', -, -, hid', -⟩ hrows
    exact readTemplate_key hsince hread hread' (by rw [← hid, ← hid']; exact hrows.2.2)
  · intro b hb
    obtain ⟨o, ho | ho, ht, hr, -⟩ := mem_bindings_replayAll hb
    · obtain ⟨key, -, template, -, ht', hr', -⟩ := hbinds.bound ho
      rw [← ht, ← hr, ht', hr']
      exact hrole
    · rw [← ht, ← hr]
      exact hgrows.roles _ _ (howned o ho)
  · intro b hb
    obtain ⟨key, -, template, ⟨e, he, hlabel, hread⟩, ht, hr, hid, hversion, hpermissions⟩ :=
      hbinds.bound hb
    obtain ⟨row, hrow, -, hrowId, hrowVersion, hall⟩ := template_ok hread
    refine ⟨e, he, hlabel, row, hrow, hrowId.trans hid.symm, hrowVersion.trans hversion.symm, ?_⟩
    intro p hp hp'
    rw [ht, hr]
    exact hcarried _ (hpermissions _ (hall p hp (hp'.trans hid)))

theorem bindings_of_permissions {ws : List Write} (h : ∀ w ∈ ws, ∃ row, w = .insertRolePermission row)
    (db : Database) : (replayAll ws db).roleTemplateBindings = db.roleTemplateBindings := by
  induction ws generalizing db with
  | nil => rfl
  | cons w ws ih =>
    obtain ⟨row, rfl⟩ := h w List.mem_cons_self
    exact ih (fun v hv => h v (List.mem_cons_of_mem _ hv)) _

/-- A `CURRENT` binding that was there whenever the call looked is superseded. -/
theorem SupersedesFound.supersedes {t r : Uuid} {g : TxProgress} {b b' : RoleTemplateBinding}
    (h : SupersedesFound t r g) (hb : b ∈ g.pending.filterMap boundRow?)
    (hseen : ∀ e ∈ g.history, e.label = .snapshot .supersedeBindings ∨ e.label = .supersedeBindings →
      b' ∈ e.committed.roleTemplateBindings.rows) (hcurrent : b'.status = .current)
    (ht : b'.tenantId = t) (hr : b'.roleId = r) (htemplate : b'.templateId = b.templateId) :
    ∃ w ∈ g.pending, w.Supersedes b' := by
  obtain ⟨earlier, ids, now, hearlier, hfound, hwrite⟩ := h b hb
  refine ⟨_, hwrite, hfound.mem fun e he hlabel hpending => ?_, ht, hr, htemplate⟩
  unfold Entry.view
  rw [hpending, bindings_of_permissions hearlier]
  refine List.mem_map.mpr ⟨b', List.mem_filter.mpr ⟨hseen e he hlabel, ?_⟩, rfl⟩
  exact decide_eq_true ⟨ht, hr, htemplate, hcurrent⟩

namespace BindingCall

def overlapping (lower : String → String) (calls : List BindingCall) (db : Database) : TxState Unit :=
  State.initial db (calls.map (program lower))

/-- A role creation names no template twice, and a `CURRENT` binding of the role and the template of
an upgrade was there whenever the upgrade looked for them. -/
def Unovertaken (g : TxProgress) (db : Database) : BindingCall → Prop
  | create _ _ _ _ _ _ templateKeys _ => templateKeys.Nodup
  | upgrade _ t r key => ∀ e ∈ g.history,
      e.label = .snapshot .supersedeBindings ∨ e.label = .supersedeBindings →
        ∀ b ∈ db.roleTemplateBindings.rows, b.status = .current → b.tenantId = t → b.roleId = r →
          (∃ row ∈ db.moduleRoleTemplates.rows, row.templateKey = key ∧
            row.templateId = b.templateId) → b ∈ e.committed.roleTemplateBindings.rows
  | put _ => True

instance (g : TxProgress) (db : Database) : (call : BindingCall) → Decidable (call.Unovertaken g db)
  | create _ _ _ _ _ _ templateKeys _ => inferInstanceAs (Decidable templateKeys.Nodup)
  | upgrade .. => inferInstanceAs (Decidable (∀ e ∈ g.history, _ ∨ _ →
      ∀ b ∈ db.roleTemplateBindings.rows, _ → _ → _ → (∃ row ∈ db.moduleRoleTemplates.rows, _) → _))
  | put _ => .isTrue trivial

def CommitsUnovertaken (calls : List BindingCall) (s : TxState Unit) (i : Nat) : Prop :=
  ∀ call ∈ calls[i]?, ∀ c ∈ s.calls[i]?, c.committing = true → call.Unovertaken c.progress s.committed

instance (calls : List BindingCall) (s : TxState Unit) (i : Nat) :
    Decidable (CommitsUnovertaken calls s i) :=
  inferInstanceAs (Decidable (∀ call ∈ calls[i]?, ∀ c ∈ s.calls[i]?, _ → _))

def contract (calls : List BindingCall) (i : Nat) :
    Contract Database Write RowLock StatementName Failure Unit where
  always _ := True
  commits g := ∃ call, calls[i]? = some call ∧ call.Effect g
  returns _ _ := True

structure Provenance (calls : List BindingCall) (s : TxState Unit) : Prop where
  upholds : s.Upholds (contract calls)
  guarded : s.Protected bindingProtocol RowLock.conflicts
  confined : s.Confined Write.OfBindings
  since : s.Since Grows
  oneCurrent : s.committed.OneCurrent
  owned : s.committed.BindingsOwned

theorem provenance_initial (lower : String → String) (calls : List BindingCall) {db : Database}
    (hdb : db.OneCurrent) (howned : db.BindingsOwned) :
    Provenance calls (overlapping lower calls db) where
  upholds := State.upholds_initial_map fun call => call.commits lower
  guarded := by
    apply State.protected_initial
    intro p hp
    obtain ⟨call, _, rfl⟩ := List.mem_map.mp hp
    exact follows_program lower call
  confined := by
    apply State.confined_initial
    intro p hp
    obtain ⟨call, _, rfl⟩ := List.mem_map.mp hp
    exact writes_program lower call
  since := State.since_initial _ _ _
  oneCurrent := hdb
  owned := howned

/-- The commit of one call. -/
theorem commit_truthful {calls : List BindingCall} {s : TxState Unit} {i : Nat}
    (hs : Provenance calls s) (hok : CommitsUnovertaken calls s i)
    {c : Call Database Write RowLock StatementName Failure Unit} (hc : s.calls[i]? = some c)
    (hcommit : c.committing = true) {call : BindingCall} (hcall : calls[i]? = some call)
    (heffect : call.Effect c.progress) :
    (replayAll c.progress.pending s.committed).OneCurrent ∧
      (replayAll c.progress.pending s.committed).BindingsOwned ∧
        ∀ b ∈ c.progress.pending.filterMap boundRow?, ∃ e ∈ c.progress.history,
          e.label = .template ∧ b.Truthful e.committed (replayAll c.progress.pending s.committed) := by
  have hws := (hs.confined i c hc).pending
  have hsince := hs.since i c hc
  have hunovertaken := hok call hcall c hc hcommit
  cases call with
  | create admin bindingId t key name description templateKeys keys =>
    obtain ⟨⟨role, rest, ht, hr, hpending⟩, hbinds⟩ := heffect
    have hrole : .insertRole role ∈ c.progress.pending := by
      rw [hpending]
      exact List.mem_cons_self
    have hfree : (s.committed.roles.insert? role).isSome = true :=
      (hs.guarded.claims i c hc).true_claims (Call.unfinished_of_committing hcommit) _ hrole
    have hinserted : (Write.apply s.committed (.insertRole role)).HasRole t admin.newId := by
      obtain ⟨u, hu⟩ := Option.isSome_iff_exists.mp hfree
      refine ⟨role, ?_, ht, hr⟩
      simp only [Write.apply, RbacTables.insertRole]
      rw [Table.rows_insert_of_some hu]
      exact List.mem_append_right _ List.mem_cons_self
    have hrest : ∀ w ∈ rest, w.OfBindings := by
      intro w hw
      refine hws w ?_
      rw [hpending]
      exact List.mem_cons_of_mem _ hw
    refine binds_commit hbinds hunovertaken hsince hws ?_ ?_ ?_ hs.oneCurrent hs.owned
    · rw [hpending]
      exact (grows_replayAll hrest _).roles _ _ hinserted
    · intro k hk
      rw [hpending] at hk ⊢
      rcases List.mem_cons.mp hk with hk | hk
      · cases hk
      · rw [replayAll_cons]
        exact mem_rolePermissions_of_insert hrest hinserted hk
    · -- No binding is of a role that is new.
      intro b hb b' hb' _ hsame
      obtain ⟨_, -, template, -, -, hrow, -⟩ := hbinds.bound hb
      obtain ⟨old, hold, -, holdRole⟩ := hs.owned b' hb'
      have hentry : (Index.primary, [old.roleId]) ∈ Row.entries role := by
        rw [holdRole, ← hsame.2.1, hrow, ← hr]
        exact List.mem_cons_self
      exact absurd hentry (Table.isSome_insert?.mp hfree old hold _ List.mem_cons_self)
  | upgrade admin t r key =>
    obtain ⟨⟨e, he, -, hrole⟩, hbinds, hsuperseded⟩ := heffect
    have hnow : s.committed.HasRole t r := (hsince e he).roles t r hrole
    refine binds_commit hbinds (List.nodup_singleton key) hsince hws ?_ ?_ ?_ hs.oneCurrent hs.owned
    · exact (grows_replayAll hws _).roles t r hnow
    · exact fun k hk => mem_rolePermissions_of_insert hws hnow hk
    · -- What is `CURRENT` now was there when the `UPDATE` looked, so that its `WHERE` holds of it.
      intro b hb b' hb' hcurrent hsame
      obtain ⟨_, hkey, template, ⟨e', he', -, hread⟩, ht, hr, hid, -⟩ := hbinds.bound hb
      obtain rfl := List.mem_singleton.mp hkey
      obtain ⟨row, hrow, hrowKey, hrowId, -⟩ := template_ok hread
      obtain ⟨current, hstored, hstoredId, hstoredKey⟩ := (hsince e' he').templates row hrow
      have htemplate : current.templateId = b'.templateId := by
        rw [hstoredId, hrowId, ← hid, hsame.2.2]
      have hbt : b'.tenantId = t := hsame.1.symm.trans ht
      have hbr : b'.roleId = r := hsame.2.1.symm.trans hr
      refine hsuperseded.supersedes hb (fun e he hlabel => ?_) hcurrent hbt hbr hsame.2.2.symm
      exact hunovertaken e he hlabel b' hb' hcurrent hbt hbr
        ⟨current, hstored, hstoredKey.trans hrowKey, htemplate⟩
  | put p =>
    have hnone : c.progress.pending.filterMap boundRow? = [] := heffect
    refine ⟨oneCurrent_replayAll hs.oneCurrent ?_ ?_, ?_, ?_⟩
    · rw [hnone]
      exact List.forall_mem_nil _
    · rw [hnone]
      exact List.forall_mem_nil _
    · intro b hb
      obtain ⟨o, ho | ho, ht, hr, -⟩ := mem_bindings_replayAll hb
      · rw [hnone] at ho
        cases ho
      · rw [← ht, ← hr]
        exact (grows_replayAll hws _).roles _ _ (hs.owned o ho)
    · rw [hnone]
      exact List.forall_mem_nil _

/-- The bindings that a step brings are read off a committed catalogue. -/
def BringsTruthful (s t : TxState Unit) (i : Nat) : Prop :=
  ∀ b ∈ t.committed.roleTemplateBindings.rows, b.status = .current →
    b ∉ s.committed.roleTemplateBindings.rows → ∃ c ∈ s.calls[i]?, ∃ e ∈ c.progress.history,
      e.label = .template ∧ b.Truthful e.committed t.committed

theorem Provenance.step {calls : List BindingCall} {s t : TxState Unit} {i : Nat}
    (hs : Provenance calls s) (hok : CommitsUnovertaken calls s i)
    (hstep : s.step RowLock.conflicts i = some t) :
    Provenance calls t ∧ BringsTruthful s t i := by
  have hgrows : Grows s.committed t.committed :=
    hs.confined.committed (R := Grows s.committed)
      (fun _ _ hw hview => hview.trans (grows_apply hw _)) hstep (Grows.refl _)
  have hsince : t.Since Grows :=
    hs.since.step (fun _ _ _ h k => h.trans k) hgrows hstep
  have hkept : ∀ hone : t.committed.OneCurrent, ∀ howned : t.committed.BindingsOwned,
      Provenance calls t := fun hone howned =>
    ⟨hs.upholds.step hstep, hs.guarded.step RowLock.conflicts_comm bindingProtocol_stable hstep,
      hs.confined.step hstep, hsince, hone, howned⟩
  rcases hs.upholds.committed hstep with hsame | ⟨c, hc, hcommit, -, ⟨call, hcall, heffect⟩, hreplayed⟩
  · refine ⟨hkept (hsame ▸ hs.oneCurrent) (hsame ▸ hs.owned), fun b hb _ hnew => ?_⟩
    rw [hsame] at hb
    exact absurd hb hnew
  · obtain ⟨hone, howned, htruthful⟩ := commit_truthful hs hok hc hcommit hcall heffect
    rw [← hreplayed] at hone howned htruthful
    refine ⟨hkept hone howned, fun b hb hcurrent hnew => ⟨c, hc, ?_⟩⟩
    rw [hreplayed] at hb
    obtain ⟨o, ho | ho, -, -, heq⟩ := mem_bindings_replayAll hb
    · obtain rfl := heq hcurrent
      exact htruthful b ho
    · obtain rfl := heq hcurrent
      exact absurd ho hnew

theorem reaches_provenance {lower : String → String} {calls : List BindingCall} {db : Database}
    (hdb : db.OneCurrent) (howned : db.BindingsOwned) {s : TxState Unit}
    (hreach : State.Reaches RowLock.conflicts (CommitsUnovertaken calls)
      (overlapping lower calls db) s) : Provenance calls s := by
  induction hreach with
  | refl => exact provenance_initial lower calls hdb howned
  | step _ hok hstep ih => exact (ih.step hok hstep).1

/-- In a run whose commits keep the condition, roles have at most one `CURRENT` binding of a
template, and what a new binding says was committed when the template was read. -/
theorem bindings_truthful (lower : String → String) (calls : List BindingCall) (db : Database)
    (hdb : db.OneCurrent) (howned : db.BindingsOwned) {s t : TxState Unit} {i : Nat}
    (hreach : State.Reaches RowLock.conflicts (CommitsUnovertaken calls)
      (overlapping lower calls db) s)
    (hok : CommitsUnovertaken calls s i) (hstep : s.step RowLock.conflicts i = some t) :
    s.committed.OneCurrent ∧ t.committed.OneCurrent ∧ BringsTruthful s t i := by
  have hs := reaches_provenance hdb howned hreach
  obtain ⟨ht, htruthful⟩ := hs.step hok hstep
  exact ⟨hs.oneCurrent, ht.oneCurrent, htruthful⟩

def templateDatabase : Database :=
  replayAll [.insertRole ⟨"role", "tenant", "clerk", "Clerk", none, .active, 0, 0⟩,
      .insertRolePermission ⟨"tenant", "role", "sales.order.read"⟩]
    { (default : Database) with
      tenants := Table.empty.insert ⟨"tenant", "TENANT", "Tenant", .active, 0, 0⟩
      users := Table.empty.insert ⟨"user", "User", none, none, none, none, .active, 0, 0⟩
      securityPrincipals := Table.empty.insert ⟨"user", .user, "user", .active⟩
      modules := Table.empty.insert ⟨"sales", "Sales", "1", .active⟩
      permissions := Table.empty.insert
        ⟨"sales.order.read", "sales", "order", "read", none, none, .active, none⟩
      moduleRoleTemplates := Table.empty.insert
        ⟨"template", "sales", "sales.clerk", "Clerk", none, "1", .active⟩
      moduleRoleTemplatePermissions := Table.empty.insert ⟨"template", "sales.order.read"⟩ }

def upgradeAs (id : String) : BindingCall :=
  .upgrade ⟨"user", id, 0, id, "audit " ++ id⟩ "tenant" "role" "sales.clerk"

def createFrom (templateKeys : List String) : BindingCall :=
  .create ⟨"user", "create", 0, "new role", "audit create"⟩
    (fun n => if n = 0 then "first binding" else "second binding")
    "tenant" "seller" "Seller" none templateKeys []

/-- A new binding is `CURRENT` in place of an old one. -/
def rebinds (before after : Database) : Bool :=
  decide ((∃ b ∈ after.roleTemplateBindings.rows, b.status = .current ∧
      b ∉ before.roleTemplateBindings.rows) ∧
    ∃ b ∈ before.roleTemplateBindings.rows, b.status = .current ∧
      b ∉ after.roleTemplateBindings.rows)

def breaksOneCurrent (before after : Database) : Bool :=
  decide (before.OneCurrent ∧ ¬ after.OneCurrent)

def twoUpgradesAndCreate : List BindingCall :=
  [upgradeAs "first", upgradeAs "second", createFrom ["sales.clerk"]]

/-- The second upgrade begins before the first commits, but looks for the bindings afterwards. A role is
created from the template in between. -/
theorem second_upgrade_truthful : ∃ s t : TxState Unit,
    rebinds s.committed t.committed = true ∧ t.committed.OneCurrent ∧ BringsTruthful s t 1 := by
  have hok : (overlapping asciiLower twoUpgradesAndCreate templateDatabase).Meets RowLock.conflicts
      (CommitsUnovertaken twoUpgradesAndCreate)
      ([1, 1] ++ List.replicate 10 0 ++ List.replicate 7 2 ++ List.replicate 7 1 ++ [1]) := by
    decide +kernel
  have hrun : (((overlapping asciiLower twoUpgradesAndCreate templateDatabase).run RowLock.conflicts
      ([1, 1] ++ List.replicate 10 0 ++ List.replicate 7 2 ++ List.replicate 7 1)).bind
      fun s => (s.step RowLock.conflicts 1).map fun t => rebinds s.committed t.committed) = some true := by
    decide +kernel
  obtain ⟨s, t, hreach, hlast, hstep, hrebinds⟩ := State.exists_step_of_run (P := rebinds) hok hrun
  obtain ⟨-, hone, htruthful⟩ := bindings_truthful asciiLower twoUpgradesAndCreate templateDatabase
    (by decide +kernel) (by decide +kernel) hreach hlast hstep
  exact ⟨s, t, hrebinds, hone, htruthful⟩

/-- A request that names a template twice binds the new role to it twice. -/
theorem repeated_template_bound_twice : ¬ ∀ (lower : String → String) (calls : List BindingCall)
    (db : Database), db.OneCurrent → db.BindingsOwned → ∀ (s t : TxState Unit) (i : Nat),
      State.Reaches RowLock.conflicts (fun _ _ => True) (overlapping lower calls db) s →
      s.step RowLock.conflicts i = some t →
        s.committed.OneCurrent ∧ t.committed.OneCurrent ∧ BringsTruthful s t i := by
  intro htruthful
  have hrun : (((overlapping asciiLower [createFrom ["sales.clerk", "sales.clerk"]]
      templateDatabase).run RowLock.conflicts (List.replicate 8 0)).bind fun s =>
        (s.step RowLock.conflicts 0).map fun t =>
          breaksOneCurrent s.committed t.committed) = some true := by
    decide +kernel
  obtain ⟨s, t, hreach, -, hstep, hbreaks⟩ :=
    State.exists_step_of_run (P := breaksOneCurrent) (State.meets_true _ _) hrun
  exact (of_decide_eq_true hbreaks).2 (htruthful _ _ templateDatabase (by decide +kernel)
    (by decide +kernel) s t 0 hreach hstep).2.1

/-- Two upgrades of one role each insert a binding after superseding what they have found. -/
theorem overlapping_upgrades_bind_twice : ∃ s t : TxState Unit,
    State.Reaches RowLock.conflicts (fun _ _ => True)
      (overlapping asciiLower [upgradeAs "first", upgradeAs "second"] templateDatabase) s ∧
    s.step RowLock.conflicts 0 = some t ∧ s.committed.OneCurrent ∧ ¬ t.committed.OneCurrent := by
  have hrun : (((overlapping asciiLower [upgradeAs "first", upgradeAs "second"]
      templateDatabase).run RowLock.conflicts
        (List.replicate 6 0 ++ List.replicate 10 1 ++ List.replicate 3 0)).bind fun s =>
          (s.step RowLock.conflicts 0).map fun t =>
            breaksOneCurrent s.committed t.committed) = some true := by
    decide +kernel
  obtain ⟨s, t, hreach, -, hstep, hbreaks⟩ :=
    State.exists_step_of_run (P := breaksOneCurrent) (State.meets_true _ _) hrun
  obtain ⟨hbefore, hafter⟩ := of_decide_eq_true hbreaks
  exact ⟨s, t, hreach, hstep, hbefore, hafter⟩

end BindingCall

end VerigenceSecurity
