/-
  File:      OpenVac/Admin/Roles.lean
  Subject:   Administrator roles, invitations, bans and account deletion: server/api/store.ts,
             server/auth/account-cleanup.ts, and the triggers of the tables.

  * A request carries the role its actor held when it was authenticated (`AuditContext`).
  * `grantAdminRole`, `revokeAdminRole`, `replaceAdminRole`, `setUserBan` -- read the actor's role
    again under the lock.
  * `createAdminInvitation`, `revokeAdminInvitation` -- go by the role of the request.
  * `deleteUser` -- the removal of the row, with what the foreign keys and the triggers do.
  * `Console` -- the machine: each transaction is one step (they share one advisory lock).
-/
import Mathlib.Data.List.Dedup
import OpenVac.Lib.Digest
import OpenVac.Lib.Machine
import OpenVac.Lib.Rows

namespace OpenVac.Admin

open Rows JsString

/-! ## 1. Tables -/

abbrev UserId := Nat

abbrev InvitationId := Nat

inductive AdminRole where
  | owner
  | admin
  | knowledge_editor
  | support
  | analyst
  deriving DecidableEq, Repr

def ADMIN_ROLES : List AdminRole := [.owner, .admin, .knowledge_editor, .support, .analyst]

/-- `AdminRole | "user"`. -/
inductive ActorRole where
  | of (role : AdminRole)
  | user
  deriving DecidableEq, Repr

/-- Instants are milliseconds. -/
structure User where
  id : UserId
  email : Text
  banned : Bool
  banReason : Option Text
  banExpires : Option Int
  deletionRequestedAt : Option Int
  deriving DecidableEq, Repr

structure RoleRow where
  userId : UserId
  role : AdminRole
  createdBy : Option UserId
  createdAt : Int
  deriving DecidableEq, Repr

structure Invitation where
  id : InvitationId
  email : Text
  role : AdminRole
  tokenHash : Text
  createdBy : Option UserId
  acceptedBy : Option UserId
  acceptedAt : Option Int
  revokedAt : Option Int
  createdAt : Int
  expiresAt : Int
  deriving DecidableEq, Repr

structure Database where
  nextId : Nat
  users : List User
  adminRoles : List RoleRow
  adminInvitations : List Invitation
  deriving DecidableEq, Repr

/-- Who acts, with the role the request was authenticated with. -/
structure AuditContext where
  actorId : UserId
  actorRole : ActorRole
  deriving DecidableEq, Repr

inductive StoreError where
  | api (status : Nat) (code : String) (message : String)
  | constraintViolation (message : String)
  deriving DecidableEq, Repr

/-- `if (condition) throw error`. -/
def throwIf (condition : Bool) (error : StoreError) : Except StoreError Unit :=
  if condition then .error error else .ok ()

theorem throwIf_ok {condition : Bool} {error : StoreError} {u : Unit} :
    throwIf condition error = .ok u ↔ condition = false := by
  cases condition <;> simp [throwIf]

/-- `if (condition) check(…)`. -/
def onlyIf (condition : Bool) (check : Except StoreError Unit) : Except StoreError Unit :=
  if condition then check else .ok ()

/-- `banDisposition(user, now) === "block"`. -/
def isEffectiveBan (user : User) (now : Int) : Bool :=
  user.banned && user.banExpires.all fun expires => decide (now < expires)

namespace Database

def user (db : Database) (id : UserId) : Option User := db.users.find? fun u => u.id == id

/-- The roles of a user. -/
def rolesOf (db : Database) (id : UserId) : List AdminRole :=
  (db.adminRoles.filter fun r => r.userId == id).map (·.role)

/-- `count(*) WHERE role = 'owner'`. -/
def ownerCount (db : Database) : Nat := (db.adminRoles.filter fun r => r.role == .owner).length

end Database

/-! ## 2. Guards -/

def forbidden : StoreError := .api 403 "FORBIDDEN" "当前管理员角色无权执行此操作。"

def effectiveAdminRole (results : List AdminRole) : Except StoreError (Option AdminRole) :=
  if 1 < results.dedup.length then
    .error (.api 409 "ADMIN_ROLE_CONFLICT" "该账号存在多个管理员角色，请先完成迁移后再继续。")
  else .ok (ADMIN_ROLES.find? fun role => results.contains role)

def assertInvitationRoleAllowed (actorRole : ActorRole) (invitationRole : AdminRole) :
    Except StoreError Unit := do
  throwIf (actorRole != .of .owner && actorRole != .of .admin) forbidden
  throwIf (actorRole == .of .admin && invitationRole == .owner)
    (.api 403 "OWNER_PROTECTED" "只有 owner 可以邀请 owner 角色。")
  throwIf (actorRole == .of .admin && invitationRole == .admin)
    (.api 403 "ADMIN_PROTECTED" "只有 owner 可以邀请 admin 角色。")

def assertAdminRoleMutationAllowed (actorRole targetRole : AdminRole) : Except StoreError Unit := do
  throwIf (actorRole != .owner && actorRole != .admin) forbidden
  throwIf (targetRole == .owner && actorRole != .owner)
    (.api 403 "OWNER_PROTECTED" "只有 owner 可以管理 owner 角色。")
  throwIf (targetRole == .admin && actorRole != .owner)
    (.api 403 "ADMIN_PROTECTED" "只有 owner 可以管理 admin 角色。")

/-- What `assertUserMutationAllowed` is given. -/
structure UserMutation where
  actorUserId : UserId
  actorRole : Option AdminRole
  targetUserId : UserId
  targetRole : Option AdminRole
  destructive : Bool

def assertUserMutationAllowed (input : UserMutation) : Except StoreError Unit := do
  throwIf (input.actorRole != some .owner && input.actorRole != some .admin) forbidden
  throwIf (input.destructive && input.actorUserId == input.targetUserId)
    (.api 409 "SELF_MANAGEMENT_FORBIDDEN" "不能对当前登录账号执行该操作。")
  throwIf (input.targetRole == some .owner && input.actorRole != some .owner)
    (.api 403 "OWNER_PROTECTED" "只有 owner 可以管理 owner 账号。")
  throwIf (input.targetRole == some .admin && input.actorRole != some .owner)
    (.api 403 "ADMIN_PROTECTED" "只有 owner 可以管理 admin 账号。")

def assertOwnerRoleRevocationAllowed (role : AdminRole) (ownerCount : Nat)
    (targetUserId actorUserId : UserId) : Except StoreError Unit :=
  if role != .owner || decide (1 < ownerCount) then .ok ()
  else if targetUserId = actorUserId then
    .error (.api 409 "LAST_OWNER_SELF_REMOVAL_FORBIDDEN" "不能撤销自己唯一的 owner 角色。")
  else .error (.api 409 "LAST_OWNER_REQUIRED" "系统必须至少保留一个 owner。")

/-- `audit_log_user_deletion_guard`: whom an audit entry names must exist and not be marked for
    deletion. -/
def auditGuard (references : List UserId) (db : Database) : Except StoreError Unit :=
  throwIf (references.any fun id => (db.user id).all fun u => u.deletionRequestedAt.isSome)
    (.constraintViolation "audit log references an unavailable user")

/-- `admin_role_requires_owner`, checked when a transaction that changed the roles commits. -/
def requireOwnerRole (db : Database) : Except StoreError Unit :=
  throwIf (!db.adminRoles.any fun r => r.role == .owner)
    (.constraintViolation "at least one owner role must remain")

/-- The current role of the actor, under the lock. -/
def currentActorRole (db : Database) (audit : AuditContext) : Except StoreError AdminRole := do
  match ← effectiveAdminRole (db.rolesOf audit.actorId) with
  | some role => return role
  | none => throw forbidden

/-! ## 3. Roles -/

/-- `INSERT INTO admin_role … ON CONFLICT DO NOTHING`; a user has one row at most. -/
def insertRole (row : RoleRow) (error : StoreError) (db : Database) :
    Except StoreError Database := do
  throwIf (db.adminRoles.any fun r => r.userId == row.userId) error
  throwIf (db.user row.userId).isNone (.constraintViolation "admin_role_user_id_user_id_fk")
  return { db with adminRoles := db.adminRoles ++ [row] }

def grantAdminRole (userId : UserId) (role : AdminRole) (audit : AuditContext) (now : Int)
    (db : Database) : Except StoreError (Option RoleRow × Database) := do
  let actorRole ← currentActorRole db audit
  assertAdminRoleMutationAllowed actorRole role
  match db.user userId with
  | none => return (none, db)
  | some target =>
      throwIf target.deletionRequestedAt.isSome
        (.api 409 "ACCOUNT_DELETION_IN_PROGRESS" "账号正在删除，不能再授予管理员角色。")
      let row : RoleRow := ⟨userId, role, some audit.actorId, now⟩
      let db ← insertRole row (.api 409 "ADMIN_ROLE_ALREADY_ASSIGNED" "该管理员角色已经授予。") db
      auditGuard [audit.actorId, userId] db
      requireOwnerRole db
      return (some row, db)

def revokeAdminRole (userId : UserId) (role : AdminRole) (audit : AuditContext) (db : Database) :
    Except StoreError (Option RoleRow × Database) := do
  let actorRole ← currentActorRole db audit
  assertAdminRoleMutationAllowed actorRole role
  match db.adminRoles.find? fun r => r.userId == userId && r.role == role with
  | none => return (none, db)
  | some existing =>
      assertOwnerRoleRevocationAllowed role db.ownerCount userId audit.actorId
      let db : Database :=
        { db with
          adminRoles := deleteWhere (fun r => r.userId == userId && r.role == role) db.adminRoles }
      auditGuard [audit.actorId, userId] db
      requireOwnerRole db
      return (some existing, db)

def replaceAdminRole (userId : UserId) (expectedRole role : AdminRole) (audit : AuditContext)
    (now : Int) (db : Database) : Except StoreError (Option RoleRow × Database) := do
  let actorRole ← currentActorRole db audit
  assertAdminRoleMutationAllowed actorRole expectedRole
  assertAdminRoleMutationAllowed actorRole role
  match ← effectiveAdminRole (db.rolesOf userId) with
  | none => return (none, db)
  | some currentTargetRole =>
      throwIf (currentTargetRole != expectedRole)
        (.api 409 "ADMIN_ROLE_CHANGED" "管理员角色已变化，请刷新后重试。")
      onlyIf (expectedRole == .owner && role != .owner)
        (assertOwnerRoleRevocationAllowed expectedRole db.ownerCount userId audit.actorId)
      let row : RoleRow := ⟨userId, role, some audit.actorId, now⟩
      let db : Database :=
        { db with
          adminRoles := updateWhere (fun r => r.userId == userId && r.role == expectedRole)
            (fun _ => row) db.adminRoles }
      auditGuard [audit.actorId, userId] db
      requireOwnerRole db
      return (some row, db)

/-! ## 4. Invitations -/

/-- `toLowerCase()` of the host, and `lower(…)` of the database. -/
class TextCase where
  toLowerCase : Text → Text
  lower : Text → Text

def normalizeInvitationEmail [TextCase] (email : Text) : Text := TextCase.toLowerCase (trim email)

def invitationIsExpired (row : Invitation) (now : Int) : Bool := decide (row.expiresAt ≤ now)

def invitationLifetime : Int := 48 * 60 * 60 * 1000

structure InvitationInput where
  email : Text
  role : AdminRole
  tokenHash : Text

def createAdminInvitation [TextCase] (input : InvitationInput) (audit : AuditContext) (now : Int)
    (db : Database) : Except StoreError (Option Invitation × Database) := do
  assertInvitationRoleAllowed audit.actorRole input.role
  let email := normalizeInvitationEmail input.email
  throwIf (email != TextCase.lower email) (.constraintViolation "admin_invitation_email_normalized")
  throwIf (!isSha256Hex input.tokenHash) (.constraintViolation "admin_invitation_token_hash_sha256")
  throwIf (db.adminInvitations.any fun i => i.tokenHash == input.tokenHash)
    (.api 409 "ADMIN_INVITATION_ALREADY_EXISTS" "该邀请已经存在。")
  let created : Invitation :=
    { id := db.nextId
      email := email
      role := input.role
      tokenHash := input.tokenHash
      createdBy := some audit.actorId
      acceptedBy := none
      acceptedAt := none
      revokedAt := none
      createdAt := now
      expiresAt := now + invitationLifetime }
  let db : Database :=
    { db with nextId := db.nextId + 1, adminInvitations := db.adminInvitations ++ [created] }
  auditGuard [audit.actorId] db
  return (some created, db)

def setInvitation (id : InvitationId) (f : Invitation → Invitation) (db : Database) : Database :=
  { db with adminInvitations := updateWhere (fun i => i.id == id) f db.adminInvitations }

def revokeAdminInvitation (invitationId : InvitationId) (audit : AuditContext) (now : Int)
    (db : Database) : Except StoreError (Option Invitation × Database) := do
  throwIf (audit.actorRole != .of .owner && audit.actorRole != .of .admin) forbidden
  match db.adminInvitations.find? fun i => i.id == invitationId with
  | none => return (none, db)
  | some existing =>
      assertInvitationRoleAllowed audit.actorRole existing.role
      if existing.acceptedAt.isSome || existing.revokedAt.isSome ||
          invitationIsExpired existing now then
        return (none, db)
      else
        let db := setInvitation invitationId (fun i => { i with revokedAt := some now }) db
        auditGuard [audit.actorId] db
        return (some { existing with revokedAt := some now }, db)

structure AcceptInput where
  tokenHash : Text
  userId : UserId
  userEmail : Text
  emailVerified : Bool

def acceptAdminInvitation [TextCase] (input : AcceptInput) (audit : AuditContext) (now : Int)
    (db : Database) : Except StoreError (Option Invitation × Database) := do
  throwIf (!input.emailVerified)
    (.api 403 "EMAIL_NOT_VERIFIED" "邮箱未验证，不能接受管理员邀请。")
  match db.adminInvitations.find? fun i => i.tokenHash == input.tokenHash with
  | none => return (none, db)
  | some invitation =>
      if invitation.acceptedAt.isSome || invitation.revokedAt.isSome ||
          invitationIsExpired invitation now then
        return (none, db)
      else
        throwIf (invitation.email != normalizeInvitationEmail input.userEmail)
          (.api 409 "INVITATION_EMAIL_MISMATCH" "邀请邮箱与当前登录账号不匹配。")
        let assigned : StoreError :=
          .api 409 "ADMIN_ROLE_ALREADY_ASSIGNED" "该账号已经存在管理员角色。"
        throwIf (!(db.rolesOf input.userId).isEmpty) assigned
        let db ← insertRole ⟨input.userId, invitation.role, invitation.createdBy, now⟩ assigned db
        let db := setInvitation invitation.id
          (fun i => { i with acceptedBy := some input.userId, acceptedAt := some now }) db
        auditGuard [audit.actorId] db
        requireOwnerRole db
        return (some { invitation with
          acceptedBy := some input.userId, acceptedAt := some now }, db)

/-! ## 5. Bans and account deletion -/

structure UserBanInput where
  banned : Bool
  reason : Option Text
  expiresAt : Option Int

def applyBan (input : UserBanInput) (u : User) : User :=
  { u with
    banned := input.banned
    banReason := if input.banned then input.reason else none
    banExpires := if input.banned then input.expiresAt else none }

def setUserBan (userId : UserId) (input : UserBanInput) (audit : AuditContext) (db : Database) :
    Except StoreError (Option User × Database) := do
  let actorRole ← effectiveAdminRole (db.rolesOf audit.actorId)
  let targetRole ← effectiveAdminRole (db.rolesOf userId)
  assertUserMutationAllowed ⟨audit.actorId, actorRole, userId, targetRole, input.banned⟩
  match db.user userId with
  | none => return (none, db)
  | some target =>
      let db : Database :=
        { db with users := updateWhere (fun u => u.id == userId) (applyBan input) db.users }
      auditGuard [audit.actorId, userId] db
      return (some (applyBan input target), db)

def assertUserCanSelfDelete (roleAssignments : List AdminRole) : Except StoreError Unit :=
  throwIf (!roleAssignments.isEmpty)
    (.api 409 "ADMIN_ACCOUNT_DELETION_FORBIDDEN"
      "Administrator role assignments must be removed before deletion")

/-- The first step of an account's deletion, as far as the account itself is concerned. -/
def prepareUserDeletion (userId : UserId) (now : Int) (db : Database) :
    Except StoreError (Unit × Database) := do
  match db.user userId with
  | none => return ((), db)
  | some account =>
      assertUserCanSelfDelete (db.rolesOf userId)
      return ((), { db with
        users := updateWhere (fun u => u.id == userId)
          (fun u => { u with deletionRequestedAt := some (account.deletionRequestedAt.getD now) })
          db.users })

/-- `ON DELETE SET NULL`. -/
def forget (userId : UserId) (reference : Option UserId) : Option UserId :=
  if reference = some userId then none else reference

/-- The second step: the row goes, with its roles (`user_reject_admin_delete` allows none), and
    references to it become null, which an accepted invitation does not allow. -/
def deleteUser (userId : UserId) (db : Database) : Except StoreError (Unit × Database) := do
  throwIf (db.adminRoles.any fun r => r.userId == userId)
    (.constraintViolation
      "administrator roles must be transferred and removed before deleting the user")
  throwIf (db.adminInvitations.any fun i => i.acceptedBy == some userId)
    (.constraintViolation "admin_invitation_state_shape_valid")
  onlyIf (db.adminRoles.any fun r => r.createdBy == some userId) (requireOwnerRole db)
  return ((), { db with
    users := deleteWhere (fun u => u.id == userId) db.users
    adminRoles := (deleteWhere (fun r => r.userId == userId) db.adminRoles).map fun r =>
      { r with createdBy := forget userId r.createdBy }
    adminInvitations := db.adminInvitations.map fun i =>
      { i with createdBy := forget userId i.createdBy } })

/-! ## 6. The machine -/

/-- The tables, the clock, and the requests that are authenticated and not yet carried out. -/
structure Console where
  clock : Int
  db : Database
  requests : List AuditContext
  deriving DecidableEq, Repr

inductive Action where
  | tick (ms : Nat)
  /-- An account is registered. -/
  | register (email : Text)
  /-- A request is authenticated, as an administrator's or as a user's. -/
  | authenticate (userId : UserId) (asAdmin : Bool)
  | createAdminInvitation (audit : AuditContext) (input : InvitationInput)
  | revokeAdminInvitation (audit : AuditContext) (invitationId : InvitationId)
  | acceptAdminInvitation (audit : AuditContext) (input : AcceptInput)
  | grantAdminRole (audit : AuditContext) (userId : UserId) (role : AdminRole)
  | revokeAdminRole (audit : AuditContext) (userId : UserId) (role : AdminRole)
  | replaceAdminRole (audit : AuditContext) (userId : UserId) (expectedRole role : AdminRole)
  | setUserBan (audit : AuditContext) (userId : UserId) (input : UserBanInput)
  | prepareUserDeletion (userId : UserId)
  | deleteUser (userId : UserId)

namespace Console

/-- `authenticate` and, for an administrator's request, `requireCapability` of `admins:write` or
    `users:write`, which owners and admins have. -/
def authenticated (s : Console) (userId : UserId) (asAdmin : Bool) : Option AuditContext :=
  match s.db.user userId with
  | none => none
  | some user =>
      if isEffectiveBan user s.clock || user.deletionRequestedAt.isSome then none
      else if asAdmin then
        match effectiveAdminRole (s.db.rolesOf userId) with
        | .ok (some role) =>
            if role = .owner ∨ role = .admin then some ⟨userId, .of role⟩ else none
        | .ok none | .error _ => none
      else some ⟨userId, .user⟩

/-- A request is carried out in one transaction. -/
def transact {β : Type} (s : Console) (audit : AuditContext)
    (tx : Database → Except StoreError (β × Database)) : Console :=
  if s.requests.contains audit then
    { s with db := Machine.commit s.db (tx s.db), requests := s.requests.erase audit }
  else s

variable [TextCase]

def step (s : Console) : Action → Console
  | .tick ms => { s with clock := s.clock + ms }
  | .register email =>
      { s with
        db := { s.db with
          nextId := s.db.nextId + 1
          users := s.db.users ++ [⟨s.db.nextId, email, false, none, none, none⟩] } }
  | .authenticate userId asAdmin =>
      { s with requests := s.requests ++ (s.authenticated userId asAdmin).toList }
  | .createAdminInvitation audit input =>
      s.transact audit (Admin.createAdminInvitation input audit s.clock)
  | .revokeAdminInvitation audit invitationId =>
      s.transact audit (Admin.revokeAdminInvitation invitationId audit s.clock)
  | .acceptAdminInvitation audit input =>
      s.transact audit
        (Admin.acceptAdminInvitation { input with userId := audit.actorId } audit s.clock)
  | .grantAdminRole audit userId role =>
      s.transact audit (Admin.grantAdminRole userId role audit s.clock)
  | .revokeAdminRole audit userId role =>
      s.transact audit (Admin.revokeAdminRole userId role audit)
  | .replaceAdminRole audit userId expectedRole role =>
      s.transact audit (Admin.replaceAdminRole userId expectedRole role audit s.clock)
  | .setUserBan audit userId input => s.transact audit (Admin.setUserBan userId input audit)
  | .prepareUserDeletion userId =>
      { s with db := Machine.commit s.db (Admin.prepareUserDeletion userId s.clock s.db) }
  | .deleteUser userId => { s with db := Machine.commit s.db (Admin.deleteUser userId s.db) }

end Console

/-- Two owners, neither of them banned. -/
def twoOwners : Console :=
  { clock := 0
    db :=
      { nextId := 3
        users := [⟨1, [], false, none, none, none⟩, ⟨2, [], false, none, none, none⟩]
        adminRoles := [⟨1, .owner, some 1, 0⟩, ⟨2, .owner, some 1, 0⟩]
        adminInvitations := [] }
    requests := [] }

end OpenVac.Admin
