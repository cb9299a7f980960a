import Mathlib.Data.List.Pairwise
import RpaEnterprise.Identity.ScimSync

/-!
# What a synchronisation leaves

A synchronisation gives the principal the roles that the provider reports and leaves
no other role active through the provider.  The statement that grants a role counts
an active assignment as the role even after it has expired, and the expired one gives
no role: those roles stay missing.
-/

namespace RpaEnterprise.Identity

open Lib

/-! ## Rows that hold a role -/

/-- The row is an active assignment of the role to the principal. -/
structure Assignment.Holds (row : Assignment) (principalSub : String) (role : Role) : Prop where
  sub : row.principalSub = principalSub
  role : row.role = role
  active : row.status = .active

/-- The row gives its role at the instant. -/
def Assignment.current (row : Assignment) (now : Nat) : Bool := row.expiresAt.all (now < ·)

theorem mem_resolveActiveRoles {assignments : Assignments} {now : Nat} {principalSub : String} {role : Role} :
    role ∈ resolveActiveRoles assignments now principalSub ↔
      ∃ id row, assignments.table.get id = some row ∧ row.Holds principalSub role ∧
        row.current now = true := by
  simp only [resolveActiveRoles, List.mem_map, List.mem_filter, decide_eq_true_eq, Prod.exists,
    Table.get_eq_some_iff]
  constructor
  · rintro ⟨id, row, ⟨stored, sub, active, current⟩, rfl⟩
    exact ⟨id, row, stored, ⟨sub, rfl, active⟩, current⟩
  · rintro ⟨id, row, stored, holds, current⟩
    exact ⟨id, row, ⟨stored, holds.sub, holds.active, current⟩, holds.role⟩

theorem hasActive_iff {input : ScimPrincipalInput} {table : Table Nat Assignment} {role : Role} :
    hasActive input table role = true ↔
      ∃ id row, table.get id = some row ∧ row.Holds input.sub role := by
  simp only [hasActive, List.any_eq_true, decide_eq_true_eq, Prod.exists, Table.get_eq_some_iff]
  constructor
  · rintro ⟨id, row, stored, sub, same, active⟩
    exact ⟨id, row, stored, sub, same, active⟩
  · rintro ⟨id, row, stored, holds⟩
    exact ⟨id, row, stored, holds.sub, holds.role, holds.active⟩

theorem SameActive.symm {one two : Assignment} (same : SameActive one two) : SameActive two one :=
  ⟨same.2.1, same.1, same.2.2.1.symm, same.2.2.2.symm⟩

theorem SameIdentity.symm {one two : Assignment} (same : SameIdentity one two) : SameIdentity two one := by
  obtain ⟨provider, external, sameProvider, sameExternal⟩ := same
  exact ⟨sameProvider ▸ provider, sameExternal ▸ external, sameProvider.symm, sameExternal.symm⟩

/-- The principal holds a role through one row. -/
theorem Assignments.holds_unique (assignments : Assignments) {principalSub : String} {role : Role}
    {first second : Nat} {one two : Assignment} (stored : assignments.table.get first = some one)
    (holds : one.Holds principalSub role) (other : assignments.table.get second = some two)
    (alsoHolds : two.Holds principalSub role) : one = two := by
  by_contra different
  rw [Table.get_eq_some_iff] at stored other
  have symmetric : Std.Symm fun one two : Nat × Assignment =>
      ¬ SameActive one.2 two.2 ∧ ¬ SameIdentity one.2 two.2 :=
    ⟨fun _ _ clash => ⟨fun same => clash.1 same.symm, fun same => clash.2 same.symm⟩⟩
  have apart := assignments.admissible.1.forall stored other
    (fun same => different (congrArg Prod.snd same))
  exact apart.1 ⟨holds.active, alsoHolds.active, holds.sub.trans alsoHolds.sub.symm,
    holds.role.trans alsoHolds.role.symm⟩

variable {row : Assignment}

theorem Assignments.checked_of_get (assignments : Assignments) {id : Nat}
    (stored : assignments.table.get id = some row) : row.checked = true :=
  assignments.admissible.2 _ (Table.get_eq_some_iff.mp stored)

/-- A row granted now has not expired: an end in the past violates a constraint. -/
theorem Assignments.current_of_grantedAt (assignments : Assignments) {id : Nat}
    (stored : assignments.table.get id = some row) {now : Nat} (granted : row.grantedAt = now) :
    row.current now = true := by
  have checked := assignments.checked_of_get stored
  simp only [Assignment.checked, Bool.and_eq_true, granted] at checked
  exact checked.2

theorem table_of_enforce {table : Table Nat Assignment} {assignments : Assignments}
    (enforced : enforce table = .ok assignments) : assignments.table = table := by
  unfold enforce at enforced
  split at enforced
  · cases enforced
    rfl
  · cases enforced

/-! ## Grants -/

/-- What the statements that grant roles leave of the rows. -/
structure Granted (now : Nat) (before after : Assignments) : Prop where
  /-- Active assignments stay as they are. -/
  active : ∀ id row, before.table.get id = some row → row.status = .active →
    after.table.get id = some row
  /-- An assignment that became active has not expired. -/
  fresh : ∀ id row, after.table.get id = some row → row.status = .active →
    before.table.get id = some row ∨ row.current now = true
  manual : ∀ id row, row.source = .manual →
    (after.table.get id = some row ↔ before.table.get id = some row)

theorem Granted.refl (now : Nat) (assignments : Assignments) : Granted now assignments assignments :=
  ⟨fun _ _ stored _ => stored, fun _ _ stored _ => .inl stored, fun _ _ _ => Iff.rfl⟩

theorem Granted.trans {now : Nat} {before middle after : Assignments} (first : Granted now before middle)
    (second : Granted now middle after) : Granted now before after where
  active id row stored active := second.active id row (first.active id row stored active) active
  fresh id row stored active :=
    (second.fresh id row stored active).elim (fun earlier => first.fresh id row earlier active) .inr
  manual id row manual := (second.manual id row manual).trans (first.manual id row manual)

section Grants

variable {now : Nat} {input : ScimPrincipalInput} {actorSub : String} {newId : Role → Nat}
variable {before after : Assignments} {role : Role}

theorem revivable_iff :
    revivable input role row = true ↔
      row.principalSub = input.sub ∧ row.role = role ∧ row.source = .scim ∧
        row.idpProvider = some input.idpProvider ∧
        row.externalId = some (scimRoleExternalId input.externalId role) ∧ row.status = .revoked := by
  simp [revivable]

theorem granted_of_revived
    (enforced : enforce (before.table.modifyAll fun _ => revive now input actorSub role) = .ok after) :
    Granted now before after := by
  have rows (id : Nat) :
      after.table.get id = (before.table.get id).map (revive now input actorSub role) := by
    rw [table_of_enforce enforced, Table.get_modifyAll]
  refine ⟨fun id row stored active => ?_, fun id row stored active => ?_, fun id row manual => ?_⟩
  · rw [rows, stored, Option.map_some, revive, if_neg]
    intro revives
    cases active.symm.trans (revivable_iff.mp revives).2.2.2.2.2
  · have now := stored
    rw [rows, Option.map_eq_some_iff] at now
    obtain ⟨old, earlier, same⟩ := now
    unfold revive at same
    split at same
    · exact .inr (after.current_of_grantedAt stored (same ▸ rfl))
    · exact .inl (same ▸ earlier)
  · rw [rows, Option.map_eq_some_iff]
    constructor
    · rintro ⟨old, earlier, same⟩
      unfold revive at same
      split at same
      next revives =>
        have source := (revivable_iff.mp revives).2.2.1
        subst same
        cases manual.symm.trans source
      next => exact same ▸ earlier
    · intro stored
      refine ⟨row, stored, if_neg fun revives => ?_⟩
      cases manual.symm.trans (revivable_iff.mp revives).2.2.1

theorem granted_of_insert {table : Table Nat Assignment} {id : Nat}
    (inserted : before.table.insert? id (grantedAnew now input actorSub role) = some table)
    (enforced : enforce table = .ok after) : Granted now before after := by
  have absent := Table.get_of_insert? inserted
  have rows (other : Nat) : after.table.get other =
      if other = id then some (grantedAnew now input actorSub role) else before.table.get other := by
    rw [table_of_enforce enforced, Table.get_insert? inserted]
  have kept {other : Nat} {row : Assignment} (stored : before.table.get other = some row) :
      after.table.get other = some row := by
    rw [rows, if_neg fun same => ?_, stored]
    rw [same, absent] at stored
    cases stored
  have origin {other : Nat} {row : Assignment} (stored : after.table.get other = some row) :
      before.table.get other = some row ∨ row = grantedAnew now input actorSub role := by
    rw [rows] at stored
    split at stored
    · exact .inr (Option.some.inj stored).symm
    · exact .inl stored
  refine ⟨fun _ _ stored _ => kept stored, fun other row stored _ => ?_, fun other row manual => ?_⟩
  · refine (origin stored).imp_right fun same => ?_
    rw [same]
    rfl
  · refine ⟨fun stored => (origin stored).resolve_right fun same => ?_, kept⟩
    rw [same] at manual
    cases manual

/-- The statement for a role keeps the other rows, and the role is held afterwards. -/
theorem grantRole_grants (granted : grantRole now input actorSub newId before role = .ok after) :
    Granted now before after ∧ hasActive input after.table role = true := by
  unfold grantRole at granted
  split at granted
  · cases granted
    exact ⟨Granted.refl now before, by assumption⟩
  split at granted
  next some =>
    refine ⟨granted_of_revived granted, ?_⟩
    rw [List.any_eq_true] at some
    obtain ⟨⟨id, row⟩, stored, revives⟩ := some
    have reads := revivable_iff.mp revives
    have holds : (revive now input actorSub role row).Holds input.sub role := by
      rw [revive, if_pos revives]
      exact ⟨reads.1, reads.2.1, rfl⟩
    refine hasActive_iff.mpr ⟨id, _, ?_, holds⟩
    rw [table_of_enforce granted, Table.get_modifyAll, Table.get_eq_some_iff.mpr stored, Option.map_some]
  next =>
    split at granted
    next table inserted =>
      refine ⟨granted_of_insert inserted granted, ?_⟩
      refine hasActive_iff.mpr ⟨newId role, grantedAnew now input actorSub role, ?_, rfl, rfl, rfl⟩
      rw [table_of_enforce granted, Table.get_insert? inserted, if_pos rfl]
    next => cases granted

theorem Granted.hasActive (granted : Granted now before after) (held : hasActive input before.table role = true) :
    hasActive input after.table role = true := by
  obtain ⟨id, row, stored, holds⟩ := hasActive_iff.mp held
  exact hasActive_iff.mpr ⟨id, row, granted.active id row stored holds.active, holds⟩

theorem grantRoles_grants {roles : List Role}
    (granted : grantRoles now input actorSub newId before roles = .ok after) :
    Granted now before after ∧ ∀ role ∈ roles, hasActive input after.table role = true := by
  induction roles generalizing before with
  | nil =>
    cases granted
    exact ⟨Granted.refl now after, by simp⟩
  | cons role rest ih =>
    rw [grantRoles, bind_eq_ok] at granted
    obtain ⟨middle, first, later⟩ := granted
    have one := grantRole_grants first
    have others := ih later
    exact ⟨one.1.trans others.1, List.forall_mem_cons.mpr ⟨others.1.hasActive one.2, others.2⟩⟩

end Grants

/-! ## Revocations -/

section Revocations

variable {now : Nat} {input : ScimPrincipalInput} {actorSub : String} {roles : List Role}
variable {before after : Assignments}

theorem revocable_iff :
    revocable input roles row = true ↔
      row.principalSub = input.sub ∧ row.idpProvider = some input.idpProvider ∧ row.source = .scim ∧
        row.status = .active ∧ row.role ∉ roles := by
  simp [revocable]

theorem get_revokeOthers (revoked : revokeOthers now input actorSub roles before = .ok after) (id : Nat) :
    after.table.get id = (before.table.get id).map (revoke now input actorSub roles) := by
  rw [table_of_enforce revoked, Table.get_modifyAll]

/-- A row is revoked or stays. -/
theorem get_of_revokeOthers (revoked : revokeOthers now input actorSub roles before = .ok after) {id : Nat}
    (stored : after.table.get id = some row) (active : row.status = .active) :
    before.table.get id = some row ∧ revocable input roles row = false := by
  rw [get_revokeOthers revoked, Option.map_eq_some_iff] at stored
  obtain ⟨old, earlier, same⟩ := stored
  unfold revoke at same
  split at same
  · subst same
    cases active
  next stays =>
    subst same
    exact ⟨earlier, by simpa using stays⟩

theorem kept_of_revokeOthers (revoked : revokeOthers now input actorSub roles before = .ok after) {id : Nat}
    (stored : before.table.get id = some row) (stays : revocable input roles row = false) :
    after.table.get id = some row := by
  rw [get_revokeOthers revoked, stored, Option.map_some, revoke, stays]
  rfl

theorem manual_of_revokeOthers (revoked : revokeOthers now input actorSub roles before = .ok after) (id : Nat)
    (row : Assignment) (manual : row.source = .manual) :
    after.table.get id = some row ↔ before.table.get id = some row := by
  rw [get_revokeOthers revoked, Option.map_eq_some_iff]
  constructor
  · rintro ⟨old, earlier, same⟩
    unfold revoke at same
    split at same
    next revokes =>
      subst same
      cases manual.symm.trans (revocable_iff.mp revokes).2.2.1
    next => exact same ▸ earlier
  · intro stored
    refine ⟨row, stored, if_neg fun revokes => ?_⟩
    cases manual.symm.trans (revocable_iff.mp revokes).2.2.1

end Revocations

/-! ## Exactness -/

/-- What a synchronisation should leave: the roles in force, nothing else active through
the provider, and the manual assignments as they were. -/
structure Exact (now : Nat) (input : ScimPrincipalInput) (roles : List Role) (before after : Assignments) :
    Prop where
  granted : input.active = true → ∀ role ∈ roles, role ∈ resolveActiveRoles after now input.sub
  revoked : ∀ id row, after.table.get id = some row → row.principalSub = input.sub → row.source = .scim →
    row.idpProvider = some input.idpProvider → row.status = .active →
    input.active = true ∧ row.role ∈ roles
  manual : ∀ id row, row.source = .manual →
    (after.table.get id = some row ↔ before.table.get id = some row)

/-- The principal's active assignment of the role has expired. -/
def Lapsed (now : Nat) (input : ScimPrincipalInput) (assignments : Assignments) (role : Role) : Prop :=
  ∃ id row, assignments.table.get id = some row ∧ row.Holds input.sub role ∧ row.current now = false

section Exactness

variable {now : Nat} {input : ScimPrincipalInput} {actorSub : String} {newId : Role → Nat}
variable {roles : List Role} {before after : Assignments}

theorem exact_of_inactive (inactive : input.active = false)
    (revoked : revokeOthers now input actorSub [] before = .ok after) :
    Exact now input roles before after where
  granted active := by cases inactive.symm.trans active
  revoked id row stored sub source provider active := by
    have stays := (get_of_revokeOthers revoked stored active).2
    have revokes : revocable input [] row = true :=
      revocable_iff.mpr ⟨sub, provider, source, active, List.not_mem_nil⟩
    cases stays.symm.trans revokes
  manual := manual_of_revokeOthers revoked

/-- A row that holds a reported role stays to the end. -/
theorem kept_of_sync {middle : Assignments} (granted : Granted now before middle)
    (revoked : revokeOthers now input actorSub roles middle = .ok after) {role : Role} (reported : role ∈ roles)
    {id : Nat} (stored : before.table.get id = some row) (holds : row.Holds input.sub role) :
    after.table.get id = some row := by
  refine kept_of_revokeOthers revoked (granted.active id row stored holds.active) ?_
  rw [Bool.eq_false_iff]
  intro revokes
  exact (revocable_iff.mp revokes).2.2.2.2 (holds.role ▸ reported)

theorem exact_syncScimRoles_iff (active : input.active = true)
    (synced : syncScimRoles now input actorSub newId roles before = .ok after) :
    Exact now input roles before after ↔ ∀ role ∈ roles, ¬ Lapsed now input before role := by
  rw [syncScimRoles, bind_eq_ok] at synced
  obtain ⟨middle, grants, revoked⟩ := synced
  obtain ⟨granted, held⟩ := grantRoles_grants grants
  constructor
  · rintro exact role reported ⟨id, row, stored, holds, expired⟩
    -- the expired row is still the only one that holds the role
    have stays := kept_of_sync granted revoked reported stored holds
    obtain ⟨other, found, there, alsoHolds, current⟩ :=
      mem_resolveActiveRoles.mp (exact.granted active role reported)
    cases after.holds_unique stays holds there alsoHolds
    cases expired.symm.trans current
  · intro unexpired
    refine ⟨fun _ role reported => ?_, fun id row stored sub source provider isActive => ?_,
      fun id row manual => ?_⟩
    · obtain ⟨id, row, stored, holds⟩ := hasActive_iff.mp (held role reported)
      refine mem_resolveActiveRoles.mpr
        ⟨id, row, kept_of_sync (Granted.refl now middle) revoked reported stored holds, holds, ?_⟩
      rcases granted.fresh id row stored holds.active with earlier | current
      · by_contra expired
        exact unexpired role reported ⟨id, row, earlier, holds, by simpa using expired⟩
      · exact current
    · have stays := (get_of_revokeOthers revoked stored isActive).2
      refine ⟨active, ?_⟩
      by_contra other
      cases stays.symm.trans (revocable_iff.mpr ⟨sub, provider, source, isActive, other⟩)
    · exact (manual_of_revokeOthers revoked id row manual).trans (granted.manual id row manual)

end Exactness

/-- A synchronisation that succeeds leaves exactly the reported roles if no reported
role of an active principal has an active assignment that has expired. -/
theorem scim_sync_exact_iff (now : Nat) (input : ScimPrincipalInput) (actorSub : String) (newId : Role → Nat)
    (db after : Database) (roles : List Role) (result : ScimPrincipalResult)
    (resolved : resolveScimRoles db.mappings input = .ok roles)
    (synced : syncScimPrincipal now input actorSub newId db = .ok (result, after)) :
    Exact now input roles db.assignments after.assignments ↔
      (input.active = true → ∀ role ∈ roles, ¬ Lapsed now input db.assignments role) := by
  simp only [syncScimPrincipal, bind_eq_ok, resolved, Except.ok.injEq, exists_eq_left'] at synced
  obtain ⟨principals, -, assignments, changed, done⟩ := synced
  cases done
  split at changed
  next active => simpa [active] using exact_syncScimRoles_iff active changed
  next inactive =>
    have inactive : input.active = false := by simpa using inactive
    simpa [inactive] using exact_of_inactive inactive changed

/-- The provider reports one role. -/
def report (role : Role) : ScimPrincipalInput where
  idpProvider := "okta"
  externalId := "00u1"
  sub := "kim"
  displayName := "Kim"
  roleSource := .roles [role]

/-- A viewer for the time up to an instant, granted by hand. -/
def viewerUntil (expiresAt : Nat) : Assignment where
  principalSub := "kim"
  role := .viewer
  expiresAt := some expiresAt
  grantedBy := "lee"
  grantedAt := 10

def temporaryViewer : Database where
  assignments := ⟨⟨[(1, viewerUntil 50)], by decide⟩, by decide⟩

/-- The operator is new, and the viewer's time is over. -/
theorem scim_sync_exact_iff_operator :
    ∃ result after, syncScimPrincipal 100 (report .operator) "scim" (fun _ => 7) temporaryViewer =
        .ok (result, after) ∧
      (Exact 100 (report .operator) [.operator] temporaryViewer.assignments after.assignments ↔
        ((report .operator).active = true →
          ∀ role ∈ [Role.operator], ¬ Lapsed 100 (report .operator) temporaryViewer.assignments role)) :=
  ⟨_, _, rfl, scim_sync_exact_iff 100 (report .operator) "scim" (fun _ => 7) temporaryViewer _ [.operator] _ rfl rfl⟩

/-- The viewer that the provider reports is not granted: the assignment that ended is
still active. -/
theorem expired_assignment_blocks_role :
    ∃ result after, syncScimPrincipal 100 (report .viewer) "scim" (fun _ => 7) temporaryViewer =
        .ok (result, after) ∧
      ¬ Exact 100 (report .viewer) [.viewer] temporaryViewer.assignments after.assignments := by
  refine ⟨_, _, rfl, fun exact => ?_⟩
  have granted := exact.granted rfl .viewer List.mem_cons_self
  exact absurd granted (by decide)

end RpaEnterprise.Identity
