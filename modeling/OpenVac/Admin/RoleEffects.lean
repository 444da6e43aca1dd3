/-
  File:      OpenVac/Admin/RoleEffects.lean
  Subject:   The transactions on roles, invitations and bans, taken apart.

  * `Database.Holds` -- a user has a role's row.
  * One inversion lemma for each transaction, `…_ok`: what it found and the tables it leaves.
  * `StepEffect`, `step_effect` -- all that one step of the machine does to the tables.
-/
import OpenVac.Admin.Roles

namespace OpenVac.Admin

open Rows JsString

/-! ## 1. Roles held -/

def Database.Holds (db : Database) (id : UserId) (role : AdminRole) : Prop :=
  ∃ r ∈ db.adminRoles, r.userId = id ∧ r.role = role

instance (db : Database) (id : UserId) (role : AdminRole) : Decidable (db.Holds id role) :=
  inferInstanceAs (Decidable (∃ r ∈ db.adminRoles, r.userId = id ∧ r.role = role))

theorem mem_rolesOf {db : Database} {id : UserId} {role : AdminRole} :
    role ∈ db.rolesOf id ↔ db.Holds id role := by
  simp only [Database.rolesOf, Database.Holds, List.mem_map, List.mem_filter, beq_iff_eq,
    and_assoc]

theorem rolesOf_eq_nil {db : Database} {id : UserId} (h : db.rolesOf id = []) (role : AdminRole) :
    ¬ db.Holds id role := by
  intro hh
  have := mem_rolesOf.mpr hh
  rw [h] at this
  nomatch this

/-- The role a user has is the only one. -/
theorem effectiveAdminRole_some {results : List AdminRole} {role : AdminRole}
    (h : effectiveAdminRole results = .ok (some role)) :
    role ∈ results ∧ ∀ other ∈ results, other = role := by
  unfold effectiveAdminRole at h
  split at h
  · cases h
  · next hone =>
    simp only [Except.ok.injEq] at h
    have hmem : role ∈ results := by
      have := List.find?_some h
      simpa using this
    refine ⟨hmem, ?_⟩
    intro other hother
    have hd : results.dedup.length ≤ 1 := by omega
    have h1 : role ∈ results.dedup := List.mem_dedup.mpr hmem
    have h2 : other ∈ results.dedup := List.mem_dedup.mpr hother
    cases hl : results.dedup with
    | nil =>
      rw [hl] at h1
      nomatch h1
    | cons first rest =>
      cases rest with
      | nil =>
        rw [hl, List.mem_singleton] at h1 h2
        rw [h1, h2]
      | cons second more =>
        rw [hl] at hd
        simp at hd

/-- A user has one role at most: the unique index of the table. -/
def Database.OneRole (db : Database) : Prop := UniqueOn (·.userId) db.adminRoles

/-! ## 2. Guards passed -/

theorem assertInvitationRoleAllowed_ok {actorRole : ActorRole} {role : AdminRole} {u : Unit}
    (h : assertInvitationRoleAllowed actorRole role = .ok u) (hr : role = .owner ∨ role = .admin) :
    actorRole = .of .owner := by
  unfold assertInvitationRoleAllowed at h
  obtain ⟨_, h1, h⟩ := Except.bind_ok_iff.mp h
  obtain ⟨_, h2, h3⟩ := Except.bind_ok_iff.mp h
  rw [throwIf_ok] at h1 h2 h3
  by_cases ho : actorRole = .of .owner
  · exact ho
  · have ha : actorRole = .of .admin := by simpa [ho] using h1
    obtain rfl | rfl := hr
    · simp [ha] at h2
    · simp [ha] at h3

theorem assertAdminRoleMutationAllowed_ok {actorRole role : AdminRole} {u : Unit}
    (h : assertAdminRoleMutationAllowed actorRole role = .ok u)
    (hr : role = .owner ∨ role = .admin) : actorRole = .owner := by
  unfold assertAdminRoleMutationAllowed at h
  obtain ⟨_, _, h⟩ := Except.bind_ok_iff.mp h
  obtain ⟨_, h2, h3⟩ := Except.bind_ok_iff.mp h
  rw [throwIf_ok] at h2 h3
  by_contra ho
  obtain rfl | rfl := hr
  · simp [ho] at h2
  · simp [ho] at h3

theorem currentActorRole_ok {db : Database} {audit : AuditContext} {role : AdminRole}
    (h : currentActorRole db audit = .ok role) : db.Holds audit.actorId role := by
  unfold currentActorRole at h
  obtain ⟨found, hf, h⟩ := Except.bind_ok_iff.mp h
  cases found with
  | none => cases h
  | some current =>
    cases h
    exact mem_rolesOf.mp (effectiveAdminRole_some hf).1

theorem insertRole_ok {row : RoleRow} {error : StoreError} {db db' : Database}
    (h : insertRole row error db = .ok db') :
    (∀ r ∈ db.adminRoles, r.userId ≠ row.userId) ∧
      db' = { db with adminRoles := db.adminRoles ++ [row] } := by
  unfold insertRole at h
  obtain ⟨_, hfree, h⟩ := Except.bind_ok_iff.mp h
  obtain ⟨_, _, h⟩ := Except.bind_ok_iff.mp h
  cases h
  rw [throwIf_ok] at hfree
  refine ⟨?_, rfl⟩
  intro r hr he
  have := List.any_eq_false.mp hfree r hr
  simp [he] at this

/-! ## 3. Roles -/

section Roles

variable {db db' : Database} {audit : AuditContext} {userId : UserId} {role : AdminRole} {now : Int}

/-- A row is appended for a user without a role; only owners make owners and admins. -/
theorem grantAdminRole_ok {result : Option RoleRow}
    (h : grantAdminRole userId role audit now db = .ok (result, db')) :
    db' = db ∨
      (((role = .owner ∨ role = .admin) → db.Holds audit.actorId .owner) ∧
        (∀ r ∈ db.adminRoles, r.userId ≠ userId) ∧
        db' = { db with
          adminRoles := db.adminRoles ++ [⟨userId, role, some audit.actorId, now⟩] }) := by
  unfold grantAdminRole at h
  obtain ⟨actorRole, hactor, h⟩ := Except.bind_ok_iff.mp h
  obtain ⟨_, hallowed, h⟩ := Except.bind_ok_iff.mp h
  cases htarget : db.user userId with
  | none =>
    simp only [htarget] at h
    cases h
    exact Or.inl rfl
  | some target =>
    simp only [htarget] at h
    obtain ⟨_, _, h⟩ := Except.bind_ok_iff.mp h
    obtain ⟨db₁, hinsert, h⟩ := Except.bind_ok_iff.mp h
    obtain ⟨_, _, h⟩ := Except.bind_ok_iff.mp h
    obtain ⟨_, _, h⟩ := Except.bind_ok_iff.mp h
    cases h
    obtain ⟨hfree, rfl⟩ := insertRole_ok hinsert
    refine Or.inr ⟨?_, hfree, rfl⟩
    intro hr
    have howner := assertAdminRoleMutationAllowed_ok hallowed hr
    exact howner ▸ currentActorRole_ok hactor

/-- The rows of a user and a role go. -/
theorem revokeAdminRole_ok {result : Option RoleRow}
    (h : revokeAdminRole userId role audit db = .ok (result, db')) :
    db' = db ∨
      (db.Holds userId role ∧
        db' = { db with
          adminRoles := deleteWhere (fun r => r.userId == userId && r.role == role)
            db.adminRoles }) := by
  unfold revokeAdminRole at h
  obtain ⟨actorRole, hactor, h⟩ := Except.bind_ok_iff.mp h
  obtain ⟨_, hallowed, h⟩ := Except.bind_ok_iff.mp h
  cases hfind : db.adminRoles.find? fun r => r.userId == userId && r.role == role with
  | none =>
    simp only [hfind] at h
    cases h
    exact Or.inl rfl
  | some existing =>
    simp only [hfind] at h
    obtain ⟨_, _, h⟩ := Except.bind_ok_iff.mp h
    obtain ⟨_, _, h⟩ := Except.bind_ok_iff.mp h
    obtain ⟨_, _, h⟩ := Except.bind_ok_iff.mp h
    cases h
    have hkey := List.find?_some hfind
    simp only [Bool.and_eq_true, beq_iff_eq] at hkey
    exact Or.inr ⟨⟨existing, List.mem_of_find?_eq_some hfind, hkey.1, hkey.2⟩, rfl⟩

/-- The row of a user that has the expected role gets another; only owners make owners and
    admins. -/
theorem replaceAdminRole_ok {expectedRole : AdminRole} {result : Option RoleRow}
    (h : replaceAdminRole userId expectedRole role audit now db = .ok (result, db')) :
    db' = db ∨
      (((role = .owner ∨ role = .admin) → db.Holds audit.actorId .owner) ∧
        db.Holds userId expectedRole ∧
        db' = { db with
          adminRoles := updateWhere (fun r => r.userId == userId && r.role == expectedRole)
            (fun _ => ⟨userId, role, some audit.actorId, now⟩) db.adminRoles }) := by
  unfold replaceAdminRole at h
  obtain ⟨actorRole, hactor, h⟩ := Except.bind_ok_iff.mp h
  obtain ⟨_, _, h⟩ := Except.bind_ok_iff.mp h
  obtain ⟨_, hallowed, h⟩ := Except.bind_ok_iff.mp h
  obtain ⟨found, hfound, h⟩ := Except.bind_ok_iff.mp h
  cases found with
  | none =>
    cases h
    exact Or.inl rfl
  | some current =>
    obtain ⟨_, hcurrent, h⟩ := Except.bind_ok_iff.mp h
    obtain ⟨_, _, h⟩ := Except.bind_ok_iff.mp h
    obtain ⟨_, _, h⟩ := Except.bind_ok_iff.mp h
    obtain ⟨_, _, h⟩ := Except.bind_ok_iff.mp h
    cases h
    have hexpected : current = expectedRole := by simpa [throwIf_ok] using hcurrent
    refine Or.inr ⟨?_, ?_, rfl⟩
    · intro hr
      have howner := assertAdminRoleMutationAllowed_ok hallowed hr
      exact howner ▸ currentActorRole_ok hactor
    · exact mem_rolesOf.mp (hexpected ▸ (effectiveAdminRole_some hfound).1)

end Roles

/-! ## 4. Invitations -/

section Invitations

variable [TextCase] {db db' : Database} {audit : AuditContext} {now : Int}

/-- An invitation is appended; one for an owner or admin by a request of an owner. -/
theorem createAdminInvitation_ok {input : InvitationInput} {result : Option Invitation}
    (h : createAdminInvitation input audit now db = .ok (result, db')) :
    ∃ created : Invitation,
      created.id = db.nextId ∧ created.role = input.role ∧
      created.createdBy = some audit.actorId ∧ created.acceptedAt = none ∧
      ((input.role = .owner ∨ input.role = .admin) → audit.actorRole = .of .owner) ∧
      db' = { db with
        nextId := db.nextId + 1
        adminInvitations := db.adminInvitations ++ [created] } := by
  unfold createAdminInvitation at h
  obtain ⟨_, hallowed, h⟩ := Except.bind_ok_iff.mp h
  obtain ⟨_, _, h⟩ := Except.bind_ok_iff.mp h
  obtain ⟨_, _, h⟩ := Except.bind_ok_iff.mp h
  obtain ⟨_, _, h⟩ := Except.bind_ok_iff.mp h
  obtain ⟨_, _, h⟩ := Except.bind_ok_iff.mp h
  cases h
  exact ⟨_, rfl, rfl, rfl, rfl, assertInvitationRoleAllowed_ok hallowed, rfl⟩

omit [TextCase] in
/-- A pending invitation is revoked; one for an owner or admin by a request of an owner. -/
theorem revokeAdminInvitation_ok {invitationId : InvitationId} {result : Option Invitation}
    (h : revokeAdminInvitation invitationId audit now db = .ok (result, db')) :
    db' = db ∨
      ∃ existing ∈ db.adminInvitations, existing.id = invitationId ∧
        ((existing.role = .owner ∨ existing.role = .admin) → audit.actorRole = .of .owner) ∧
        db' = setInvitation invitationId (fun i => { i with revokedAt := some now }) db := by
  unfold revokeAdminInvitation at h
  obtain ⟨_, _, h⟩ := Except.bind_ok_iff.mp h
  cases hfind : db.adminInvitations.find? fun i => i.id == invitationId with
  | none =>
    simp only [hfind] at h
    cases h
    exact Or.inl rfl
  | some existing =>
    simp only [hfind] at h
    obtain ⟨_, hallowed, h⟩ := Except.bind_ok_iff.mp h
    split at h
    · cases h
      exact Or.inl rfl
    · obtain ⟨_, _, h⟩ := Except.bind_ok_iff.mp h
      cases h
      have hid : existing.id = invitationId := by simpa using List.find?_some hfind
      exact Or.inr ⟨existing, List.mem_of_find?_eq_some hfind, hid,
        assertInvitationRoleAllowed_ok hallowed, rfl⟩

/-- A pending invitation is accepted: its role goes to a user without one. -/
theorem acceptAdminInvitation_ok {input : AcceptInput} {result : Option Invitation}
    (h : acceptAdminInvitation input audit now db = .ok (result, db')) :
    db' = db ∨
      ∃ invitation ∈ db.adminInvitations,
        (∀ r ∈ db.adminRoles, r.userId ≠ input.userId) ∧
        db' = setInvitation invitation.id
          (fun i => { i with acceptedBy := some input.userId, acceptedAt := some now })
          { db with
            adminRoles := db.adminRoles ++
              [⟨input.userId, invitation.role, invitation.createdBy, now⟩] } := by
  unfold acceptAdminInvitation at h
  obtain ⟨_, _, h⟩ := Except.bind_ok_iff.mp h
  cases hfind : db.adminInvitations.find? fun i => i.tokenHash == input.tokenHash with
  | none =>
    simp only [hfind] at h
    cases h
    exact Or.inl rfl
  | some invitation =>
    simp only [hfind] at h
    split at h
    · cases h
      exact Or.inl rfl
    · obtain ⟨_, _, h⟩ := Except.bind_ok_iff.mp h
      obtain ⟨_, _, h⟩ := Except.bind_ok_iff.mp h
      obtain ⟨db₁, hinsert, h⟩ := Except.bind_ok_iff.mp h
      obtain ⟨_, _, h⟩ := Except.bind_ok_iff.mp h
      obtain ⟨_, _, h⟩ := Except.bind_ok_iff.mp h
      cases h
      obtain ⟨hfree, rfl⟩ := insertRole_ok hinsert
      exact Or.inr ⟨invitation, List.mem_of_find?_eq_some hfind, hfree, rfl⟩

end Invitations

/-! ## 5. Bans and account deletion -/

theorem setUserBan_ok {userId : UserId} {input : UserBanInput} {audit : AuditContext}
    {db db' : Database} {result : Option User}
    (h : setUserBan userId input audit db = .ok (result, db')) :
    db' = db ∨
      db' = { db with
        users := updateWhere (fun u => u.id == userId) (applyBan input) db.users } := by
  unfold setUserBan at h
  obtain ⟨_, _, h⟩ := Except.bind_ok_iff.mp h
  obtain ⟨_, _, h⟩ := Except.bind_ok_iff.mp h
  obtain ⟨_, _, h⟩ := Except.bind_ok_iff.mp h
  cases htarget : db.user userId with
  | none =>
    simp only [htarget] at h
    cases h
    exact Or.inl rfl
  | some target =>
    simp only [htarget] at h
    obtain ⟨_, _, h⟩ := Except.bind_ok_iff.mp h
    cases h
    exact Or.inr rfl

/-- Only a user without a role is marked for deletion. -/
theorem prepareUserDeletion_ok {userId : UserId} {now : Int} {db db' : Database} {u : Unit}
    (h : prepareUserDeletion userId now db = .ok (u, db')) :
    db' = db ∨
      (∀ role, ¬ db.Holds userId role) ∧
        ∃ instant, db' = { db with
          users := updateWhere (fun u => u.id == userId)
            (fun u => { u with deletionRequestedAt := some instant }) db.users } := by
  unfold prepareUserDeletion at h
  cases haccount : db.user userId with
  | none =>
    simp only [haccount] at h
    cases h
    exact Or.inl rfl
  | some account =>
    simp only [haccount] at h
    obtain ⟨_, hroles, h⟩ := Except.bind_ok_iff.mp h
    cases h
    refine Or.inr ⟨rolesOf_eq_nil ?_, _, rfl⟩
    simpa [assertUserCanSelfDelete, throwIf_ok] using hroles

def forgetGrantor (userId : UserId) (r : RoleRow) : RoleRow :=
  { r with createdBy := forget userId r.createdBy }

def forgetInviter (userId : UserId) (i : Invitation) : Invitation :=
  { i with createdBy := forget userId i.createdBy }

/-- Only a user without a role is removed. -/
theorem deleteUser_ok {userId : UserId} {db db' : Database} {u : Unit}
    (h : deleteUser userId db = .ok (u, db')) :
    (∀ r ∈ db.adminRoles, r.userId ≠ userId) ∧
      db'.users = deleteWhere (fun u => u.id == userId) db.users ∧
      db'.nextId = db.nextId ∧
      db'.adminRoles = db.adminRoles.map (forgetGrantor userId) ∧
      db'.adminInvitations = db.adminInvitations.map (forgetInviter userId) := by
  unfold deleteUser at h
  obtain ⟨_, hfree, h⟩ := Except.bind_ok_iff.mp h
  obtain ⟨_, _, h⟩ := Except.bind_ok_iff.mp h
  obtain ⟨_, _, h⟩ := Except.bind_ok_iff.mp h
  cases h
  have hrows : ∀ r ∈ db.adminRoles, r.userId ≠ userId := by
    rw [throwIf_ok] at hfree
    intro r hr he
    have := List.any_eq_false.mp hfree r hr
    simp [he] at this
  have hkeep : deleteWhere (fun r => r.userId == userId) db.adminRoles = db.adminRoles := by
    refine List.filter_eq_self.mpr ?_
    intro r hr
    simp [hrows r hr]
  exact ⟨hrows, rfl, rfl, by rw [hkeep]; rfl, rfl⟩

/-! ## 6. One step -/

/-- **What one step does to the tables.** -/
inductive StepEffect (s : Console) : Action → Database → Prop where
  | same (a : Action) : StepEffect s a s.db
  | registered (email : Text) :
      StepEffect s (.register email) { s.db with
        nextId := s.db.nextId + 1
        users := s.db.users ++ [⟨s.db.nextId, email, false, none, none, none⟩] }
  | granted (audit : AuditContext) (userId : UserId) (role : AdminRole)
      (allowed : (role = .owner ∨ role = .admin) → s.db.Holds audit.actorId .owner)
      (free : ∀ r ∈ s.db.adminRoles, r.userId ≠ userId) :
      StepEffect s (.grantAdminRole audit userId role) { s.db with
        adminRoles := s.db.adminRoles ++ [⟨userId, role, some audit.actorId, s.clock⟩] }
  | roleRevoked (audit : AuditContext) (userId : UserId) (role : AdminRole)
      (held : s.db.Holds userId role) :
      StepEffect s (.revokeAdminRole audit userId role) { s.db with
        adminRoles := deleteWhere (fun r => r.userId == userId && r.role == role)
          s.db.adminRoles }
  | replaced (audit : AuditContext) (userId : UserId) (expectedRole role : AdminRole)
      (allowed : (role = .owner ∨ role = .admin) → s.db.Holds audit.actorId .owner)
      (held : s.db.Holds userId expectedRole) :
      StepEffect s (.replaceAdminRole audit userId expectedRole role) { s.db with
        adminRoles := updateWhere (fun r => r.userId == userId && r.role == expectedRole)
          (fun _ => ⟨userId, role, some audit.actorId, s.clock⟩) s.db.adminRoles }
  | created (audit : AuditContext) (input : InvitationInput) (created : Invitation)
      (isNext : created.id = s.db.nextId) (isRole : created.role = input.role)
      (inviter : created.createdBy = some audit.actorId) (pending : created.acceptedAt = none)
      (allowed : (input.role = .owner ∨ input.role = .admin) → audit.actorRole = .of .owner) :
      StepEffect s (.createAdminInvitation audit input) { s.db with
        nextId := s.db.nextId + 1
        adminInvitations := s.db.adminInvitations ++ [created] }
  | revoked (audit : AuditContext) (existing : Invitation)
      (mem : existing ∈ s.db.adminInvitations)
      (allowed : (existing.role = .owner ∨ existing.role = .admin) →
        audit.actorRole = .of .owner) :
      StepEffect s (.revokeAdminInvitation audit existing.id)
        (setInvitation existing.id (fun i => { i with revokedAt := some s.clock }) s.db)
  | accepted (audit : AuditContext) (input : AcceptInput) (invitation : Invitation)
      (mem : invitation ∈ s.db.adminInvitations)
      (free : ∀ r ∈ s.db.adminRoles, r.userId ≠ audit.actorId) :
      StepEffect s (.acceptAdminInvitation audit input)
        (setInvitation invitation.id
          (fun i => { i with acceptedBy := some audit.actorId, acceptedAt := some s.clock })
          { s.db with
            adminRoles := s.db.adminRoles ++
              [⟨audit.actorId, invitation.role, invitation.createdBy, s.clock⟩] })
  | banned (audit : AuditContext) (userId : UserId) (input : UserBanInput) :
      StepEffect s (.setUserBan audit userId input) { s.db with
        users := updateWhere (fun u => u.id == userId) (applyBan input) s.db.users }
  | marked (userId : UserId) (instant : Int) (free : ∀ role, ¬ s.db.Holds userId role) :
      StepEffect s (.prepareUserDeletion userId) { s.db with
        users := updateWhere (fun u => u.id == userId)
          (fun u => { u with deletionRequestedAt := some instant }) s.db.users }
  | deleted (userId : UserId) (free : ∀ r ∈ s.db.adminRoles, r.userId ≠ userId) :
      StepEffect s (.deleteUser userId) { s.db with
        users := deleteWhere (fun u => u.id == userId) s.db.users
        adminRoles := s.db.adminRoles.map (forgetGrantor userId)
        adminInvitations := s.db.adminInvitations.map (forgetInviter userId) }

/-- A request's transaction is refused or commits. -/
theorem transact_effect {β : Type} {s : Console} {a : Action} {audit : AuditContext}
    {tx : Database → Except StoreError (β × Database)}
    (h : ∀ result db', tx s.db = .ok (result, db') → StepEffect s a db') :
    StepEffect s a (s.transact audit tx).db := by
  unfold Console.transact
  split
  · show StepEffect s a (Machine.commit s.db (tx s.db))
    obtain hc | ⟨result, db', htx, hc⟩ := Machine.commit_cases s.db (tx s.db)
    · rw [hc]
      exact .same a
    · rw [hc]
      exact h result db' htx
  · exact .same a

theorem clock_le_step [TextCase] (s : Console) (a : Action) : s.clock ≤ (s.step a).clock := by
  have htransact {β : Type} (audit : AuditContext)
      (tx : Database → Except StoreError (β × Database)) :
      (s.transact audit tx).clock = s.clock := by
    unfold Console.transact
    split <;> rfl
  cases a with
  | tick ms =>
    have : s.clock ≤ s.clock + ms := by omega
    exact this
  | register email => exact Int.le_refl _
  | authenticate userId asAdmin => exact Int.le_refl _
  | prepareUserDeletion userId => exact Int.le_refl _
  | deleteUser userId => exact Int.le_refl _
  | createAdminInvitation audit input => exact Int.le_of_eq (htransact audit _).symm
  | revokeAdminInvitation audit id => exact Int.le_of_eq (htransact audit _).symm
  | acceptAdminInvitation audit input => exact Int.le_of_eq (htransact audit _).symm
  | grantAdminRole audit userId role => exact Int.le_of_eq (htransact audit _).symm
  | revokeAdminRole audit userId role => exact Int.le_of_eq (htransact audit _).symm
  | replaceAdminRole audit userId expected role => exact Int.le_of_eq (htransact audit _).symm
  | setUserBan audit userId input => exact Int.le_of_eq (htransact audit _).symm

/-- **Every step has one of these effects.** -/
theorem step_effect [TextCase] (s : Console) (a : Action) : StepEffect s a (s.step a).db := by
  cases a with
  | tick ms => exact .same _
  | authenticate userId asAdmin => exact .same _
  | register email => exact .registered email
  | grantAdminRole audit userId role =>
    refine transact_effect fun result db' h => ?_
    obtain rfl | ⟨hallowed, hfree, rfl⟩ := grantAdminRole_ok h
    · exact .same _
    · exact .granted audit userId role hallowed hfree
  | revokeAdminRole audit userId role =>
    refine transact_effect fun result db' h => ?_
    obtain rfl | ⟨hheld, rfl⟩ := revokeAdminRole_ok h
    · exact .same _
    · exact .roleRevoked audit userId role hheld
  | replaceAdminRole audit userId expectedRole role =>
    refine transact_effect fun result db' h => ?_
    obtain rfl | ⟨hallowed, hheld, rfl⟩ := replaceAdminRole_ok h
    · exact .same _
    · exact .replaced audit userId expectedRole role hallowed hheld
  | createAdminInvitation audit input =>
    refine transact_effect fun result db' h => ?_
    obtain ⟨created, hid, hrole, hby, hpending, hallowed, rfl⟩ := createAdminInvitation_ok h
    exact .created audit input created hid hrole hby hpending hallowed
  | revokeAdminInvitation audit invitationId =>
    refine transact_effect fun result db' h => ?_
    obtain rfl | ⟨existing, hmem, rfl, hallowed, rfl⟩ := revokeAdminInvitation_ok h
    · exact .same _
    · exact .revoked audit existing hmem hallowed
  | acceptAdminInvitation audit input =>
    refine transact_effect fun result db' h => ?_
    obtain rfl | ⟨invitation, hmem, hfree, rfl⟩ := acceptAdminInvitation_ok h
    · exact .same _
    · exact .accepted audit input invitation hmem hfree
  | setUserBan audit userId input =>
    refine transact_effect fun result db' h => ?_
    obtain rfl | rfl := setUserBan_ok h
    · exact .same _
    · exact .banned audit userId input
  | prepareUserDeletion userId =>
    show StepEffect s _ (Machine.commit s.db (prepareUserDeletion userId s.clock s.db))
    obtain hc | ⟨result, db', htx, hc⟩ :=
      Machine.commit_cases s.db (prepareUserDeletion userId s.clock s.db)
    · rw [hc]
      exact .same _
    · rw [hc]
      obtain rfl | ⟨hfree, instant, rfl⟩ := prepareUserDeletion_ok htx
      · exact .same _
      · exact .marked userId instant hfree
  | deleteUser userId =>
    show StepEffect s _ (Machine.commit s.db (deleteUser userId s.db))
    obtain hc | ⟨result, db', htx, hc⟩ := Machine.commit_cases s.db (deleteUser userId s.db)
    · rw [hc]
      exact .same _
    · rw [hc]
      obtain ⟨hfree, husers, hnext, hroles, hinvitations⟩ := deleteUser_ok htx
      obtain ⟨nextId, users, adminRoles, adminInvitations⟩ := db'
      cases husers
      cases hnext
      cases hroles
      cases hinvitations
      exact .deleted userId hfree

end OpenVac.Admin
