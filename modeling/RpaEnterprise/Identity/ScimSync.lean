import RpaEnterprise.Lib.Results
import RpaEnterprise.Lib.Table

/-!
# Synchronisation of principals

An identity provider reports a principal with its roles, or with groups that a ledger
maps to roles.  `syncScimRoles` grants the roles that are missing and revokes the
provider's other assignments; the assignments of one tenant are followed, under the
constraints of their table.
-/

namespace RpaEnterprise.Identity

open Lib

inductive Role where
  | viewer
  | operator
  | reviewer
  | approver
  | admin
deriving Repr, DecidableEq

def Role.text : Role → String
  | .viewer => "viewer"
  | .operator => "operator"
  | .reviewer => "reviewer"
  | .approver => "approver"
  | .admin => "admin"

/-! ## Assignments -/

inductive Source where
  | manual
  | scim
deriving Repr, DecidableEq

inductive AssignmentStatus where
  | active
  | revoked
deriving Repr, DecidableEq

/-- A row of `principal_role_assignments`. -/
structure Assignment where
  principalSub : String
  role : Role
  source : Source := .manual
  externalId : Option String := none
  idpProvider : Option String := none
  status : AssignmentStatus := .active
  reason : Option String := none
  expiresAt : Option Nat := none
  grantedBy : String
  grantedAt : Nat
  revokedBy : Option String := none
  revokedAt : Option Nat := none
  revokeReason : Option String := none
deriving Repr, DecidableEq

/-- Both are in force for one principal and role. -/
def SameActive (one two : Assignment) : Prop :=
  one.status = .active ∧ two.status = .active ∧ one.principalSub = two.principalSub ∧ one.role = two.role

/-- Both have one external identity. -/
def SameIdentity (one two : Assignment) : Prop :=
  one.idpProvider.isSome ∧ one.externalId.isSome ∧ one.idpProvider = two.idpProvider ∧
    one.externalId = two.externalId

instance (one two : Assignment) : Decidable (SameActive one two) := inferInstanceAs (Decidable (_ ∧ _))

instance (one two : Assignment) : Decidable (SameIdentity one two) := inferInstanceAs (Decidable (_ ∧ _))

/-- The `CHECK` constraints of a row. -/
def Assignment.checked (row : Assignment) : Bool :=
  row.principalSub ≠ "" && row.grantedBy ≠ "" && (row.revokedBy.isNone == row.revokedAt.isNone) &&
    row.expiresAt.all (row.grantedAt < ·)

/-- `uq_active_principal_role_assignment`, `uq_principal_role_assignment_external_identity`
and the checks of the rows. -/
def Admissible (table : Table Nat Assignment) : Prop :=
  (table.rows.Pairwise fun one two => ¬ SameActive one.2 two.2 ∧ ¬ SameIdentity one.2 two.2) ∧
    ∀ entry ∈ table.rows, entry.2.checked = true

instance (table : Table Nat Assignment) : Decidable (Admissible table) := inferInstanceAs (Decidable (_ ∧ _))

/-- The table `principal_role_assignments` of a tenant. -/
structure Assignments where
  table : Table Nat Assignment
  admissible : Admissible table

/-- `resolveActiveRoles`. -/
def resolveActiveRoles (assignments : Assignments) (now : Nat) (principalSub : String) : List Role :=
  (assignments.table.rows.filter fun entry =>
    entry.2.principalSub = principalSub ∧ entry.2.status = .active ∧
      entry.2.expiresAt.all (now < ·)).map fun entry => entry.2.role

/-! ## Requests -/

inductive Refusal where
  /-- `scim_group_role_unmapped`. -/
  | groupsUnmapped (groups : List String)
  /-- `scim_external_id_sub_conflict`. -/
  | externalIdSubConflict
  /-- `scim_sub_external_id_conflict`. -/
  | subExternalIdConflict
  /-- `scim_identity_conflict`. -/
  | identityConflict
  /-- A statement violates a constraint of the assignments. -/
  | assignmentConflict
deriving Repr, DecidableEq

inductive RoleSource where
  | roles (roles : List Role)
  | externalGroups (groups : List String)

structure ScimPrincipalInput where
  idpProvider : String
  externalId : String
  sub : String
  displayName : String
  email : Option String := none
  active : Bool := true
  roleSource : RoleSource

/-- A row of `scim_group_role_mappings`, under its provider and group. -/
structure GroupRoleMapping where
  role : Role
  active : Bool := true

abbrev Mappings := Table (String × String) GroupRoleMapping

def mappedRole (mappings : Mappings) (idpProvider group : String) : Option Role :=
  ((mappings.get (idpProvider, group)).filter GroupRoleMapping.active).map GroupRoleMapping.role

def resolveScimRoles (mappings : Mappings) (input : ScimPrincipalInput) : Except Refusal (List Role) :=
  match input.roleSource with
  | .roles roles => .ok roles
  | .externalGroups groups =>
    let unmapped := groups.filter fun group => (mappedRole mappings input.idpProvider group).isNone
    if unmapped ≠ [] then .error (.groupsUnmapped unmapped)
    else .ok (groups.filterMap (mappedRole mappings input.idpProvider)).eraseDups

/-! ## Principals -/

/-- A row of `principals`, under its `sub`. -/
structure Principal where
  displayName : String
  email : Option String
  externalId : Option String
  idpProvider : Option String

abbrev Principals := Table String Principal

/-- Another principal with the identity of the request. -/
def identityTaken (principals : Principals) (input : ScimPrincipalInput) : Bool :=
  (principals.find? fun sub row => row.idpProvider = some input.idpProvider ∧
    row.externalId = some input.externalId ∧ sub ≠ input.sub).isSome

def assertScimIdentityConflictFree (principals : Principals) (input : ScimPrincipalInput) :
    Except Refusal Unit :=
  if identityTaken principals input then .error .externalIdSubConflict
  else match principals.get input.sub with
    | some row =>
      if (row.idpProvider.isSome ∨ row.externalId.isSome) ∧
          (row.idpProvider ≠ some input.idpProvider ∨ row.externalId ≠ some input.externalId) then
        .error .subExternalIdConflict
      else .ok ()
    | none => .ok ()

/-- The row is inserted or replaced; another principal with its identity is a conflict. -/
def upsertScimPrincipal (principals : Principals) (input : ScimPrincipalInput) : Except Refusal Principals :=
  match assertScimIdentityConflictFree principals input with
  | .error refusal => .error refusal
  | .ok () =>
    if identityTaken principals input then .error .identityConflict
    else .ok (principals.put input.sub
      { displayName := input.displayName, email := input.email
        externalId := some input.externalId, idpProvider := some input.idpProvider })

/-! ## Roles -/

/-- A statement ends when the constraints hold. -/
def enforce (table : Table Nat Assignment) : Except Refusal Assignments :=
  if admissible : Admissible table then .ok ⟨table, admissible⟩ else .error .assignmentConflict

def scimRoleExternalId (externalId : String) (role : Role) : String := s!"{externalId}:{role.text}"

section Roles

variable (now : Nat) (input : ScimPrincipalInput) (actorSub : String)

/-- The principal has an active assignment of the role, expired or not. -/
def hasActive (table : Table Nat Assignment) (role : Role) : Bool :=
  table.rows.any fun entry =>
    entry.2.principalSub = input.sub ∧ entry.2.role = role ∧ entry.2.status = .active

/-- The revoked assignment that the role had through the provider. -/
def revivable (role : Role) (row : Assignment) : Bool :=
  row.principalSub = input.sub ∧ row.role = role ∧ row.source = .scim ∧
    row.idpProvider = some input.idpProvider ∧
    row.externalId = some (scimRoleExternalId input.externalId role) ∧ row.status = .revoked

def revive (role : Role) (row : Assignment) : Assignment :=
  if revivable input role row then
    { row with
      status := .active, revokedBy := none, revokedAt := none, revokeReason := none
      grantedBy := actorSub, grantedAt := now }
  else row

def grantedAnew (role : Role) : Assignment where
  principalSub := input.sub
  role := role
  source := .scim
  externalId := some (scimRoleExternalId input.externalId role)
  idpProvider := some input.idpProvider
  status := .active
  reason := some "scim_sync"
  grantedBy := actorSub
  grantedAt := now

/-- The statement for one role: the revoked assignment is revived, or a new one is
inserted, unless the role has an active one.  All parts read the table as it was. -/
def grantRole (newId : Role → Nat) (assignments : Assignments) (role : Role) : Except Refusal Assignments :=
  if hasActive input assignments.table role then .ok assignments
  else if assignments.table.rows.any fun entry => revivable input role entry.2 then
    enforce (assignments.table.modifyAll fun _ => revive now input actorSub role)
  else match assignments.table.insert? (newId role) (grantedAnew now input actorSub role) with
    | some table => enforce table
    | none => .error .assignmentConflict

/-- An active assignment of the provider to a role it no longer reports. -/
def revocable (roles : List Role) (row : Assignment) : Bool :=
  row.principalSub = input.sub ∧ row.idpProvider = some input.idpProvider ∧ row.source = .scim ∧
    row.status = .active ∧ row.role ∉ roles

def revoke (roles : List Role) (row : Assignment) : Assignment :=
  if revocable input roles row then
    { row with status := .revoked, revokedBy := some actorSub, revokedAt := some now }
  else row

/-- The provider's assignments to other roles are revoked. -/
def revokeOthers (roles : List Role) (assignments : Assignments) : Except Refusal Assignments :=
  enforce (assignments.table.modifyAll fun _ => revoke now input actorSub roles)

def grantRoles (newId : Role → Nat) (assignments : Assignments) : List Role → Except Refusal Assignments
  | [] => .ok assignments
  | role :: rest => do
    let assignments ← grantRole now input actorSub newId assignments role
    grantRoles newId assignments rest

def syncScimRoles (newId : Role → Nat) (roles : List Role) (assignments : Assignments) :
    Except Refusal Assignments := do
  let assignments ← grantRoles now input actorSub newId assignments roles
  revokeOthers now input actorSub roles assignments

end Roles

structure Database where
  mappings : Mappings := .empty
  principals : Principals := .empty
  assignments : Assignments

/-- The body of the answer. -/
structure ScimPrincipalResult where
  sub : String
  active : Bool
  roles : List Role

/-- `POST /v1/scim/principals`; of an inactive principal nothing of the provider stays
active. -/
def syncScimPrincipal (now : Nat) (input : ScimPrincipalInput) (actorSub : String) (newId : Role → Nat)
    (db : Database) : Except Refusal (ScimPrincipalResult × Database) := do
  let roles ← resolveScimRoles db.mappings input
  let principals ← upsertScimPrincipal db.principals input
  let assignments ←
    (if input.active then syncScimRoles now input actorSub newId roles db.assignments
    else revokeOthers now input actorSub [] db.assignments)
  let result :=
    { sub := input.sub, active := input.active, roles := if input.active then roles else [] }
  pure (result, { db with principals, assignments })

end RpaEnterprise.Identity
