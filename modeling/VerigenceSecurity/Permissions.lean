import VerigenceSecurity.Storage
import VerigenceSecurity.Library.AccessGraph

/-! # Effective permissions

A user's permissions in a tenant come from direct role assignments, from the
roles of the user's groups and from platform roles. The SQL that computes them
is a chain of joins; the access graph says what the joins find.
-/

namespace VerigenceSecurity
set_option autoImplicit false

def lowerOrDigit (c : Char) : Bool := ('a' ≤ c && c ≤ 'z') || ('0' ≤ c && c ≤ '9')

/-- `^[a-z0-9]+(\.[a-z0-9_-]+){2,}$`, matched in full. -/
def isCanonicalPermission (value : String) : Bool :=
  match value.toList.splitOn '.' with
  | [] => false
  | first :: rest =>
    first != [] && first.all lowerOrDigit && decide (2 ≤ rest.length) &&
      rest.all fun part => part != [] && part.all fun c => lowerOrDigit c || c == '_' || c == '-'

def validatePermissions (values : List String) : Except Failure (List String) :=
  let invalid := values.filter fun p => !isCanonicalPermission p
  if invalid != [] then
    .error (.valueError ("Invalid canonical permission(s): " ++ ", ".intercalate invalid))
  else .ok (sortedSet values)

theorem validatePermissions_eq_ok_iff {values permissions : List String} :
    validatePermissions values = .ok permissions ↔
      (∀ p ∈ values, isCanonicalPermission p = true) ∧ permissions = sortedSet values := by
  have hfilter : values.filter (fun p => !isCanonicalPermission p) = [] ↔
      ∀ p ∈ values, isCanonicalPermission p = true := by
    simp [List.filter_eq_nil_iff]
  unfold validatePermissions
  simp only [bne_iff_ne, ne_eq]
  split
  · rename_i h
    rw [hfilter] at h
    constructor
    · intro he
      cases he
    · rintro ⟨hall, _⟩
      exact absurd hall h
  · rename_i h
    rw [not_not, hfilter] at h
    constructor
    · intro he
      cases he
      exact ⟨h, rfl⟩
    · rintro ⟨_, rfl⟩
      rfl

/-! ## The joins of `effective_user_permissions` -/

namespace Database

def directTenantRoles (db : Database) (tenantId userId : Uuid) (now : Instant) : List Role :=
  (db.userRoleAssignments.rows.filter fun ura => decide (ura.tenantId = tenantId ∧
      ura.userId = userId ∧ ura.status = .active) && validAt ura.validFrom ura.validTo now).flatMap
    fun ura => db.roles.rows.filter fun r =>
      decide (r.tenantId = ura.tenantId ∧ r.roleId = ura.roleId ∧ r.status = .active)

def groupTenantRoles (db : Database) (tenantId userId : Uuid) (now : Instant) : List Role :=
  (db.groupMemberships.rows.filter fun gm => decide (gm.tenantId = tenantId ∧
      gm.userId = userId ∧ gm.status = .active) && validAt gm.validFrom gm.validTo now).flatMap
    fun gm => (db.groups.rows.filter fun g =>
      decide (g.tenantId = gm.tenantId ∧ g.groupId = gm.groupId ∧ g.status = .active)).flatMap
    fun g => (db.groupRoleAssignments.rows.filter fun gra =>
      decide (gra.tenantId = g.tenantId ∧ gra.groupId = g.groupId ∧ gra.status = .active)).flatMap
    fun gra => db.roles.rows.filter fun r =>
      decide (r.tenantId = gra.tenantId ∧ r.roleId = gra.roleId ∧ r.status = .active)

def effectiveTenantRoles (db : Database) (tenantId userId : Uuid) (now : Instant) : List Role :=
  db.directTenantRoles tenantId userId now ++ db.groupTenantRoles tenantId userId now

def roleGrants (db : Database) (tenantId : Uuid) (roles : List Role) : List (String × String) :=
  roles.flatMap fun r =>
    (db.rolePermissions.rows.filter fun rp =>
      decide (rp.tenantId = tenantId ∧ rp.roleId = r.roleId)).flatMap fun rp =>
    (db.permissions.rows.filter fun p =>
      decide (p.permissionKey = rp.permissionKey ∧ p.status = .active)).map fun p =>
    (r.roleKey, p.permissionKey)

def tenantGrants (db : Database) (tenantId userId : Uuid) (now : Instant) :
    List (String × String) :=
  db.roleGrants tenantId (db.effectiveTenantRoles tenantId userId now)

def platformGrants (db : Database) (userId : Uuid) : List (String × String) :=
  (db.platformUserRoleAssignments.rows.filter fun pura =>
      decide (pura.userId = userId ∧ pura.status = .active)).flatMap fun pura =>
    (db.platformRoles.rows.filter fun pr =>
      decide (pr.roleKey = pura.roleKey ∧ pr.status = .active)).flatMap fun pr =>
    (db.platformRolePermissions.rows.filter fun prp => decide (prp.roleKey = pr.roleKey)).flatMap
      fun prp => (db.permissions.rows.filter fun p =>
        decide (p.permissionKey = prp.permissionKey ∧ p.status = .active)).map fun p =>
    (pr.roleKey, p.permissionKey)

def effectiveGrants (db : Database) (tenantId userId : Uuid) (now : Instant) :
    List (String × String) :=
  db.tenantGrants tenantId userId now ++ db.platformGrants userId

end Database

/-- The end of both `effective_user_permissions`: the sorted roles and permissions of the rows. -/
def rolesAndPermissions (rows : List (String × String)) :
    Except Failure (List String × List String) :=
  let roles := sortedSet (rows.map Prod.fst)
  let permissions := sortedSet (rows.map Prod.snd)
  if permissions = [] then .error (securityError .roleRequired) else .ok (roles, permissions)

def effectiveUserPermissions (db : Database) (tenantId userId : Uuid) (now : Instant) :
    Except Failure (List String × List String) :=
  rolesAndPermissions (db.effectiveGrants tenantId userId now)

/-- The permission list, the `ROLE_REQUIRED` error being read as no permission. -/
def effectivePermissions (db : Database) (tenantId userId : Uuid) (now : Instant) : List String :=
  match effectiveUserPermissions db tenantId userId now with
  | .ok (_, permissions) => permissions
  | .error _ => []

theorem effectivePermissions_eq (db : Database) (tenantId userId : Uuid) (now : Instant) :
    effectivePermissions db tenantId userId now =
      sortedSet ((db.effectiveGrants tenantId userId now).map Prod.snd) := by
  unfold effectivePermissions effectiveUserPermissions rolesAndPermissions
  by_cases h : sortedSet ((db.effectiveGrants tenantId userId now).map Prod.snd) = []
  · simp only [h, if_true]
  · simp only [h, if_false]

/-! ## The access graph of a tenant -/

namespace Database

def DirectRole (db : Database) (tenantId : Uuid) (now : Instant) (userId roleId : Uuid) : Prop :=
  ∃ ura ∈ db.userRoleAssignments.rows, ura.tenantId = tenantId ∧ ura.userId = userId ∧
    ura.roleId = roleId ∧ ura.status = .active ∧ validAt ura.validFrom ura.validTo now = true

def GroupMember (db : Database) (tenantId : Uuid) (now : Instant) (userId groupId : Uuid) : Prop :=
  ∃ gm ∈ db.groupMemberships.rows, gm.tenantId = tenantId ∧ gm.userId = userId ∧
    gm.groupId = groupId ∧ gm.status = .active ∧ validAt gm.validFrom gm.validTo now = true

def GroupActive (db : Database) (tenantId groupId : Uuid) : Prop :=
  ∃ g ∈ db.groups.rows, g.tenantId = tenantId ∧ g.groupId = groupId ∧ g.status = .active

def GroupRole (db : Database) (tenantId groupId roleId : Uuid) : Prop :=
  ∃ gra ∈ db.groupRoleAssignments.rows, gra.tenantId = tenantId ∧ gra.groupId = groupId ∧
    gra.roleId = roleId ∧ gra.status = .active

def RoleActive (db : Database) (tenantId roleId : Uuid) : Prop :=
  ∃ r ∈ db.roles.rows, r.tenantId = tenantId ∧ r.roleId = roleId ∧ r.status = .active

def PermissionActive (db : Database) (permissionKey : String) : Prop :=
  ∃ p ∈ db.permissions.rows, p.permissionKey = permissionKey ∧ p.status = .active

def RoleHasPermission (db : Database) (tenantId roleId : Uuid) (permissionKey : String) : Prop :=
  ∃ rp ∈ db.rolePermissions.rows, rp.tenantId = tenantId ∧ rp.roleId = roleId ∧
    rp.permissionKey = permissionKey

def PlatformPermission (db : Database) (userId : Uuid) (permissionKey : String) : Prop :=
  ∃ pura ∈ db.platformUserRoleAssignments.rows, pura.userId = userId ∧ pura.status = .active ∧
    (∃ pr ∈ db.platformRoles.rows, pr.roleKey = pura.roleKey ∧ pr.status = .active) ∧
    ∃ prp ∈ db.platformRolePermissions.rows, prp.roleKey = pura.roleKey ∧
      prp.permissionKey = permissionKey

def accessGraph (db : Database) (tenantId : Uuid) (now : Instant) :
    AccessGraph Uuid Uuid Uuid String where
  direct := db.DirectRole tenantId now
  member := db.GroupMember tenantId now
  carries groupId roleId := db.GroupActive tenantId groupId ∧ db.GroupRole tenantId groupId roleId
  active := db.RoleActive tenantId
  grants roleId permissionKey :=
    db.RoleHasPermission tenantId roleId permissionKey ∧ db.PermissionActive permissionKey
  outside userId permissionKey :=
    db.PlatformPermission userId permissionKey ∧ db.PermissionActive permissionKey

theorem mem_directTenantRoles {db : Database} {tenantId userId : Uuid} {now : Instant} {r : Role} :
    r ∈ db.directTenantRoles tenantId userId now ↔ r ∈ db.roles.rows ∧ r.tenantId = tenantId ∧
      r.status = .active ∧ db.DirectRole tenantId now userId r.roleId := by
  simp only [directTenantRoles, List.mem_flatMap, List.mem_filter, Bool.and_eq_true,
    decide_eq_true_eq]
  constructor
  · rintro ⟨ura, ⟨hura, ⟨ht, hu, ha⟩, hv⟩, hr, hrt, hrr, hrs⟩
    exact ⟨hr, hrt.trans ht, hrs, ura, hura, ht, hu, hrr.symm, ha, hv⟩
  · rintro ⟨hr, hrt, hrs, ura, hura, ht, hu, hrr, ha, hv⟩
    exact ⟨ura, ⟨hura, ⟨ht, hu, ha⟩, hv⟩, hr, hrt.trans ht.symm, hrr.symm, hrs⟩

theorem mem_groupTenantRoles {db : Database} {tenantId userId : Uuid} {now : Instant} {r : Role} :
    r ∈ db.groupTenantRoles tenantId userId now ↔ r ∈ db.roles.rows ∧ r.tenantId = tenantId ∧
      r.status = .active ∧ ∃ g, db.GroupMember tenantId now userId g ∧
        db.GroupActive tenantId g ∧ db.GroupRole tenantId g r.roleId := by
  simp only [groupTenantRoles, List.mem_flatMap, List.mem_filter, Bool.and_eq_true,
    decide_eq_true_eq]
  constructor
  · rintro ⟨gm, ⟨hgm, ⟨ht, hu, ha⟩, hv⟩, g, ⟨hg, hgt, hgg, hgs⟩, gra, ⟨hgra, hat, hag, has⟩,
      hr, hrt, hrr, hrs⟩
    refine ⟨hr, ((hrt.trans hat).trans hgt).trans ht, hrs, gm.groupId,
      ⟨gm, hgm, ht, hu, rfl, ha, hv⟩, ⟨g, hg, hgt.trans ht, hgg, hgs⟩, ?_⟩
    exact ⟨gra, hgra, (hat.trans hgt).trans ht, hag.trans hgg, hrr.symm, has⟩
  · rintro ⟨hr, hrt, hrs, gid, ⟨gm, hgm, ht, hu, hgid, ha, hv⟩, ⟨g, hg, hgt, hgg, hgs⟩,
      gra, hgra, hat, hag, har, has⟩
    exact ⟨gm, ⟨hgm, ⟨ht, hu, ha⟩, hv⟩, g, ⟨hg, hgt.trans ht.symm, hgg.trans hgid.symm, hgs⟩,
      gra, ⟨hgra, hat.trans hgt.symm, hag.trans hgg.symm, has⟩, hr, hrt.trans hat.symm,
      har.symm, hrs⟩

/-- The roles of the joins are the stored roles that the graph says the user holds. -/
theorem mem_effectiveTenantRoles {db : Database} {tenantId userId : Uuid} {now : Instant} {r : Role} :
    r ∈ db.effectiveTenantRoles tenantId userId now ↔ r ∈ db.roles.rows ∧ r.tenantId = tenantId ∧
      r.status = .active ∧ (db.accessGraph tenantId now).Reaches userId r.roleId := by
  rw [effectiveTenantRoles, List.mem_append, mem_directTenantRoles, mem_groupTenantRoles]
  constructor
  · rintro (⟨hr, ht, hs, hd⟩ | ⟨hr, ht, hs, hg⟩)
    · exact ⟨hr, ht, hs, Or.inl hd⟩
    · exact ⟨hr, ht, hs, Or.inr hg⟩
  · rintro ⟨hr, ht, hs, hd | hg⟩
    · exact Or.inl ⟨hr, ht, hs, hd⟩
    · exact Or.inr ⟨hr, ht, hs, hg⟩

theorem mem_tenantGrants {db : Database} {tenantId userId : Uuid} {now : Instant} {p : String} :
    p ∈ (db.tenantGrants tenantId userId now).map Prod.snd ↔
      ∃ r, (db.accessGraph tenantId now).Holds userId r ∧ (db.accessGraph tenantId now).grants r p := by
  simp only [tenantGrants, roleGrants, List.mem_map, List.mem_flatMap, List.mem_filter, decide_eq_true_eq]
  constructor
  · rintro ⟨_, ⟨r, hr, rp, ⟨hrp, hrpt, hrpr⟩, q, ⟨hq, hqk, hqs⟩, rfl⟩, rfl⟩
    obtain ⟨hrow, ht, hs, hreach⟩ := mem_effectiveTenantRoles.mp hr
    exact ⟨r.roleId, ⟨⟨r, hrow, ht, rfl, hs⟩, hreach⟩, ⟨rp, hrp, hrpt, hrpr, hqk.symm⟩, q, hq, rfl, hqs⟩
  · rintro ⟨rid, ⟨⟨r, hrow, ht, rfl, hs⟩, hreach⟩, ⟨rp, hrp, hrpt, hrpr, hrpp⟩, q, hq, hqk, hqs⟩
    exact ⟨(r.roleKey, q.permissionKey), ⟨r, mem_effectiveTenantRoles.mpr ⟨hrow, ht, hs, hreach⟩,
      rp, ⟨hrp, hrpt, hrpr⟩, q, ⟨hq, hqk.trans hrpp.symm, hqs⟩, rfl⟩, hqk⟩

theorem mem_platformGrants {db : Database} {tenantId userId : Uuid} {now : Instant} {p : String} :
    p ∈ (db.platformGrants userId).map Prod.snd ↔ (db.accessGraph tenantId now).outside userId p := by
  simp only [platformGrants, List.mem_map, List.mem_flatMap, List.mem_filter, decide_eq_true_eq]
  constructor
  · rintro ⟨_, ⟨a, ⟨ha, hau, has⟩, r, ⟨hr, hrk, hrs⟩, rp, ⟨hrp, hrpk⟩, q, ⟨hq, hqk, hqs⟩, rfl⟩, rfl⟩
    exact ⟨⟨a, ha, hau, has, ⟨r, hr, hrk, hrs⟩, rp, hrp, hrpk.trans hrk, hqk.symm⟩, q, hq, rfl, hqs⟩
  · rintro ⟨⟨a, ha, hau, has, ⟨r, hr, hrk, hrs⟩, rp, hrp, hrpk, hrpp⟩, q, hq, hqk, hqs⟩
    exact ⟨(r.roleKey, q.permissionKey), ⟨a, ⟨ha, hau, has⟩, r, ⟨hr, hrk, hrs⟩,
      rp, ⟨hrp, hrpk.trans hrk.symm⟩, q, ⟨hq, hqk.trans hrpp.symm, hqs⟩, rfl⟩, hqk⟩

end Database

open Database

/-- The SQL computes the permissions that the graph gives. -/
theorem mem_effectivePermissions {db : Database} {tenantId userId : Uuid} {now : Instant}
    {p : String} : p ∈ effectivePermissions db tenantId userId now ↔
      p ∈ (db.accessGraph tenantId now).effective userId := by
  rw [effectivePermissions_eq, mem_sortedSet, Database.effectiveGrants, List.map_append,
    List.mem_append, mem_tenantGrants, @mem_platformGrants _ tenantId _ now]
  rfl

theorem effectivePermissions_congr {db db' : Database} {tenantId userId : Uuid} {now : Instant}
    (h : (db.accessGraph tenantId now).effective userId =
      (db'.accessGraph tenantId now).effective userId) :
    effectivePermissions db tenantId userId now = effectivePermissions db' tenantId userId now := by
  rw [effectivePermissions_eq, effectivePermissions_eq]
  apply sortedSet_congr
  intro p
  have hp := @mem_effectivePermissions db tenantId userId now p
  have hp' := @mem_effectivePermissions db' tenantId userId now p
  rw [effectivePermissions_eq, mem_sortedSet] at hp hp'
  rw [hp, hp', h]

end VerigenceSecurity
