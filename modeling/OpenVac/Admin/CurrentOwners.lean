/-
  File:      OpenVac/Admin/CurrentOwners.lean
  Subject:   Who makes owners and admins: only those who hold the owner role at that moment.

  * Roles are given and changed by the role that is read again under the lock; invitations are
    created and revoked by the role of the request, which may be out of date.
  * `RoleStillCurrent` -- at the creation or revocation of an invitation for an owner or admin,
    the owner of the request is still one.
  * `only_current_owners` -- in every run whose steps meet it, each such change is made by a
    current owner, and each accepted invitation was made by one.
-/
import OpenVac.Admin.RoleEffects

namespace OpenVac.Admin

open Rows

/-! ## 1. What only owners may do -/

/-- The roles only owners give. -/
def AdminRole.Protected (role : AdminRole) : Prop := role = .owner ∨ role = .admin

instance (role : AdminRole) : Decidable role.Protected :=
  inferInstanceAs (Decidable (role = .owner ∨ role = .admin))

/-- Whose request a step carries out. -/
def Action.audit : Action → Option AuditContext
  | .createAdminInvitation audit _ | .revokeAdminInvitation audit _
  | .acceptAdminInvitation audit _ | .grantAdminRole audit _ _ | .revokeAdminRole audit _ _
  | .replaceAdminRole audit _ _ _ | .setUserBan audit _ _ => some audit
  | .tick _ | .register _ | .authenticate _ _ | .prepareUserDeletion _ | .deleteUser _ => none

/-- The acting administrator holds the owner role. -/
def ActsAsOwner (s : Console) (a : Action) : Prop :=
  ∃ audit ∈ a.audit, s.db.Holds audit.actorId .owner

instance (s : Console) (a : Action) : Decidable (ActsAsOwner s a) :=
  inferInstanceAs (Decidable (∃ audit ∈ a.audit, s.db.Holds audit.actorId .owner))

/-- The protected changes of a step are an owner's: roles that are gained otherwise than by an
    invitation, invitations that appear, and invitations that are revoked. -/
structure OwnersOnly (s : Console) (a : Action) (db' : Database) : Prop where
  gained : ∀ id role, role.Protected → db'.Holds id role → ¬ s.db.Holds id role →
    (∀ audit input, a ≠ .acceptAdminInvitation audit input) → ActsAsOwner s a
  created : ∀ i ∈ db'.adminInvitations, i.role.Protected →
    (∀ known ∈ s.db.adminInvitations, known.id ≠ i.id) → ActsAsOwner s a
  revoked : ∀ i ∈ s.db.adminInvitations, i.role.Protected → i.revokedAt = none →
    ∀ i' ∈ db'.adminInvitations, i'.id = i.id → i'.revokedAt ≠ none → ActsAsOwner s a

/-- The owner whose request creates or revokes an invitation for an owner or admin is still an
    owner. -/
def RoleStillCurrent (s : Console) : Action → Prop
  | .createAdminInvitation audit input =>
      input.role.Protected → audit.actorRole = .of .owner → s.db.Holds audit.actorId .owner
  | .revokeAdminInvitation audit invitationId =>
      (∃ i ∈ s.db.adminInvitations, i.id = invitationId ∧ i.role.Protected) →
        audit.actorRole = .of .owner → s.db.Holds audit.actorId .owner
  | _ => True

/-! ## 2. One step -/

/-- A known invitation after a step: the same, with its creator or none. -/
def SameInvitation (i i' : Invitation) : Prop :=
  i'.id = i.id ∧ i'.role = i.role ∧ (i'.createdBy = i.createdBy ∨ i'.createdBy = none)

theorem setInvitation_known {id : InvitationId} {f : Invitation → Invitation} {db : Database}
    {i' : Invitation} (h : i' ∈ (setInvitation id f db).adminInvitations) :
    ∃ i ∈ db.adminInvitations, i' = i ∨ i.id = id ∧ i' = f i := by
  obtain ⟨i, hi, rfl⟩ := mem_updateWhere.mp h
  refine ⟨i, hi, ?_⟩
  split
  · next hid => exact Or.inr ⟨by simpa using hid, rfl⟩
  · exact Or.inl rfl

/-- Every invitation after a step was known before, but for the one a creation adds. -/
theorem StepEffect.invitation {s : Console} {a : Action} {db' : Database} (he : StepEffect s a db')
    {i' : Invitation} (h : i' ∈ db'.adminInvitations) :
    (∃ i ∈ s.db.adminInvitations, SameInvitation i i') ∨
      ∃ audit input, a = .createAdminInvitation audit input ∧ i'.id = s.db.nextId ∧
        i'.role = input.role ∧ i'.createdBy = some audit.actorId ∧
        (input.role.Protected → audit.actorRole = .of .owner) := by
  have hsame {i : Invitation} (hi : i ∈ s.db.adminInvitations) :
      ∃ i₀ ∈ s.db.adminInvitations, SameInvitation i₀ i := ⟨i, hi, rfl, rfl, Or.inl rfl⟩
  cases he with
  | same | registered | granted | roleRevoked | replaced | banned | marked =>
    exact Or.inl (hsame h)
  | created audit input created isNext isRole inviter pending allowed =>
    rw [List.mem_append, List.mem_singleton] at h
    obtain h | rfl := h
    · exact Or.inl (hsame h)
    · exact Or.inr ⟨audit, input, rfl, isNext, isRole, inviter, allowed⟩
  | revoked audit existing mem allowed =>
    obtain ⟨i, hi, rfl | ⟨_, rfl⟩⟩ := setInvitation_known h
    · exact Or.inl (hsame hi)
    · exact Or.inl ⟨i, hi, rfl, rfl, Or.inl rfl⟩
  | accepted audit input invitation mem free =>
    obtain ⟨i, hi, rfl | ⟨_, rfl⟩⟩ := setInvitation_known h
    · exact Or.inl (hsame hi)
    · exact Or.inl ⟨i, hi, rfl, rfl, Or.inl rfl⟩
  | deleted userId free =>
    obtain ⟨i, hi, rfl⟩ := List.mem_map.mp h
    refine Or.inl ⟨i, hi, rfl, rfl, ?_⟩
    unfold forgetInviter forget
    split
    · exact Or.inr rfl
    · exact Or.inl rfl

/-- A role gained otherwise than by an invitation is given by an owner, if it is protected. -/
theorem StepEffect.gained {s : Console} {a : Action} {db' : Database} (he : StepEffect s a db')
    {id : UserId} {role : AdminRole} (hp : role.Protected) (h : db'.Holds id role)
    (hnew : ¬ s.db.Holds id role) (ha : ∀ audit input, a ≠ .acceptAdminInvitation audit input) :
    ActsAsOwner s a := by
  obtain ⟨r, hr, rfl, rfl⟩ := h
  cases he with
  | same | registered | created | revoked | banned | marked => exact absurd ⟨r, hr, rfl, rfl⟩ hnew
  | accepted audit input invitation mem free => exact absurd rfl (ha audit input)
  | granted audit userId role allowed free =>
    rw [List.mem_append, List.mem_singleton] at hr
    obtain hr | rfl := hr
    · exact absurd ⟨r, hr, rfl, rfl⟩ hnew
    · exact ⟨audit, rfl, allowed hp⟩
  | roleRevoked audit userId role held =>
    exact absurd ⟨r, (mem_deleteWhere.mp hr).1, rfl, rfl⟩ hnew
  | replaced audit userId expectedRole role allowed held =>
    obtain ⟨r₀, hr₀, rfl⟩ := mem_updateWhere.mp hr
    by_cases hk : (r₀.userId == userId && r₀.role == expectedRole) = true
    · rw [if_pos hk] at hp
      exact ⟨audit, rfl, allowed hp⟩
    · rw [if_neg hk] at hnew
      exact absurd ⟨r₀, hr₀, rfl, rfl⟩ hnew
  | deleted userId free =>
    obtain ⟨r₀, hr₀, rfl⟩ := List.mem_map.mp hr
    exact absurd ⟨r₀, hr₀, rfl, rfl⟩ hnew

/-- A role gained by an invitation is the role of one that is known. -/
theorem StepEffect.gained_accepting {s : Console} {audit : AuditContext} {input : AcceptInput}
    {db' : Database} (he : StepEffect s (.acceptAdminInvitation audit input) db') {id : UserId}
    {role : AdminRole} (h : db'.Holds id role) (hnew : ¬ s.db.Holds id role) :
    ∃ i ∈ s.db.adminInvitations, i.role = role := by
  obtain ⟨r, hr, rfl, rfl⟩ := h
  cases he with
  | same => exact absurd ⟨r, hr, rfl, rfl⟩ hnew
  | accepted _ _ invitation mem free =>
    have hr : r ∈ s.db.adminRoles ++
        [⟨audit.actorId, invitation.role, invitation.createdBy, s.clock⟩] := hr
    rw [List.mem_append, List.mem_singleton] at hr
    obtain hr | rfl := hr
    · exact absurd ⟨r, hr, rfl, rfl⟩ hnew
    · exact ⟨invitation, mem, rfl⟩

/-- Ids of invitations are unique, and the next one is new. -/
structure Identified (db : Database) : Prop where
  unique : UniqueOn (·.id) db.adminInvitations
  below : ∀ i ∈ db.adminInvitations, i.id < db.nextId

theorem StepEffect.identified {s : Console} {a : Action} {db' : Database}
    (he : StepEffect s a db') (h : Identified s.db) : Identified db' := by
  obtain ⟨hunique, hbelow⟩ := h
  have hset (id : InvitationId) (f : Invitation → Invitation) (hf : ∀ i, (f i).id = i.id) :
      UniqueOn (·.id) (updateWhere (fun i => i.id == id) f s.db.adminInvitations) ∧
        ∀ i ∈ updateWhere (fun i => i.id == id) f s.db.adminInvitations, i.id < s.db.nextId := by
    refine ⟨hunique.updateWhere hf, ?_⟩
    intro i' hi'
    obtain ⟨i, hi, hid⟩ := mem_updateWhere_stem hf hi'
    rw [hid]
    exact hbelow i hi
  cases he with
  | same | granted | roleRevoked | replaced | banned | marked => exact ⟨hunique, hbelow⟩
  | registered email => exact ⟨hunique, fun i hi => Nat.lt_succ_of_lt (hbelow i hi)⟩
  | created audit input created isNext isRole inviter pending allowed =>
    refine ⟨hunique.append_one ?_, ?_⟩
    · intro i hi
      show i.id ≠ created.id
      rw [isNext]
      exact Nat.ne_of_lt (hbelow i hi)
    · intro i hi
      rw [List.mem_append, List.mem_singleton] at hi
      obtain hi | rfl := hi
      · exact Nat.lt_succ_of_lt (hbelow i hi)
      · rw [isNext]
        exact Nat.lt_succ_self _
  | revoked audit existing mem allowed =>
    have hkeep := hset existing.id (fun i => { i with revokedAt := some s.clock }) fun _ => rfl
    exact ⟨hkeep.1, hkeep.2⟩
  | accepted audit input invitation mem free =>
    have hkeep := hset invitation.id
      (fun i => { i with acceptedBy := some audit.actorId, acceptedAt := some s.clock })
      fun _ => rfl
    exact ⟨hkeep.1, hkeep.2⟩
  | deleted userId free =>
    have hids : (s.db.adminInvitations.map (forgetInviter userId)).map (·.id) =
        s.db.adminInvitations.map (·.id) := by
      rw [List.map_map]
      rfl
    refine ⟨?_, ?_⟩
    · show ((s.db.adminInvitations.map (forgetInviter userId)).map (·.id)).Nodup
      rw [hids]
      exact hunique
    · intro i' hi'
      obtain ⟨i, hi, rfl⟩ := List.mem_map.mp hi'
      exact hbelow i hi

/-- A protected invitation that a step revokes is revoked by an owner. -/
theorem StepEffect.revoked_allowed {s : Console} {a : Action} {db' : Database}
    (he : StepEffect s a db') (hk : Identified s.db) (hc : RoleStillCurrent s a)
    {i i' : Invitation} (hi : i ∈ s.db.adminInvitations) (hp : i.role.Protected)
    (hpending : i.revokedAt = none) (hi' : i' ∈ db'.adminInvitations) (hid : i'.id = i.id)
    (hrevoked : i'.revokedAt ≠ none) : ActsAsOwner s a := by
  have hsame (h : i' ∈ s.db.adminInvitations) : i' = i := hk.unique.eq h hi hid
  have hstill (h : i' ∈ s.db.adminInvitations) : ActsAsOwner s a := by
    have := hsame h
    subst this
    exact absurd hpending hrevoked
  cases he with
  | same | registered | granted | roleRevoked | replaced | banned | marked => exact hstill hi'
  | created audit input created isNext isRole inviter pending allowed =>
    rw [List.mem_append, List.mem_singleton] at hi'
    obtain hi' | rfl := hi'
    · exact hstill hi'
    · exact absurd (hid.symm.trans isNext) (Nat.ne_of_lt (hk.below i hi))
  | revoked audit existing mem allowed =>
    obtain ⟨i₀, hi₀, rfl | ⟨hid₀, rfl⟩⟩ := setInvitation_known hi'
    · exact hstill hi₀
    · have hi₀' : i₀ = i := hk.unique.eq hi₀ hi hid
      have he : existing = i := hk.unique.eq mem hi (by rw [← hid₀, hi₀'])
      subst he
      exact ⟨audit, rfl, hc ⟨existing, mem, rfl, hp⟩ (allowed hp)⟩
  | accepted audit input invitation mem free =>
    obtain ⟨i₀, hi₀, rfl | ⟨hid₀, rfl⟩⟩ := setInvitation_known hi'
    · exact hstill hi₀
    · have hi₀' : i₀ = i := hk.unique.eq hi₀ hi hid
      subst hi₀'
      exact absurd hpending hrevoked
  | deleted userId free =>
    obtain ⟨i₀, hi₀, rfl⟩ := List.mem_map.mp hi'
    have hi₀' : i₀ = i := hk.unique.eq hi₀ hi hid
    subst hi₀'
    exact absurd hpending hrevoked

/-- **A step meets the rule when the role of its request is current.** -/
theorem StepEffect.ownersOnly {s : Console} {a : Action} {db' : Database}
    (he : StepEffect s a db') (hk : Identified s.db) (hc : RoleStillCurrent s a) :
    OwnersOnly s a db' where
  gained _ _ hp h hnew ha := he.gained hp h hnew ha
  created i hi hp hnew := by
    obtain ⟨i₀, hi₀, hid, _⟩ | ⟨audit, input, rfl, _, hrole, _, hallowed⟩ := he.invitation hi
    · exact absurd hid.symm (hnew i₀ hi₀)
    · rw [hrole] at hp
      exact ⟨audit, rfl, hc hp (hallowed hp)⟩
  revoked i hi hp hpending i' hi' hid hrevoked :=
    he.revoked_allowed hk hc hi hp hpending hi' hid hrevoked

/-! ## 3. Runs -/

variable [TextCase]

/-- An invitation was created in a run, by someone who was an owner then. -/
def MadeByOwner (s : Console) (acts : List Action) (i : Invitation) : Prop :=
  ∃ before audit input after, acts = before ++ .createAdminInvitation audit input :: after ∧
    i.id = (Machine.run Console.step s before).db.nextId ∧ i.role = input.role ∧
    (i.createdBy = some audit.actorId ∨ i.createdBy = none) ∧
    (Machine.run Console.step s before).db.Holds audit.actorId .owner

theorem MadeByOwner.later {s : Console} {acts : List Action} {i i' : Invitation}
    (h : MadeByOwner s acts i) (hs : SameInvitation i i') (a : Action) :
    MadeByOwner s (acts ++ [a]) i' := by
  obtain ⟨before, audit, input, after, rfl, hid, hrole, hby, howner⟩ := h
  obtain ⟨hid', hrole', hby'⟩ := hs
  refine ⟨before, audit, input, after ++ [a], by simp, hid'.trans hid, hrole'.trans hrole, ?_,
    howner⟩
  obtain hby' | hby' := hby'
  · rw [hby']
    exact hby
  · exact Or.inr hby'

/-- **Every protected invitation of a run was made by an owner.** -/
theorem made_by_owner {s : Console} (h0 : s.db.adminInvitations = []) (acts : List Action)
    (hc : Machine.Along Console.step RoleStillCurrent s acts) :
    Identified (Machine.run Console.step s acts).db ∧
      ∀ i ∈ (Machine.run Console.step s acts).db.adminInvitations, i.role.Protected →
        MadeByOwner s acts i := by
  induction acts using List.reverseRecOn with
  | nil =>
    refine ⟨⟨?_, ?_⟩, ?_⟩
    · simp [Machine.run, h0, UniqueOn]
    · simp [Machine.run, h0]
    · simp [Machine.run, h0]
  | append_singleton acts a ih =>
    rw [Machine.along_append] at hc
    obtain ⟨hbefore, hlast, _⟩ := hc
    obtain ⟨hk, hmade⟩ := ih hbefore
    rw [Machine.run_append]
    have he := step_effect (Machine.run Console.step s acts) a
    refine ⟨he.identified hk, ?_⟩
    intro i' hi' hp
    obtain ⟨i, hi, hs⟩ | ⟨audit, input, rfl, hid, hrole, hby, hallowed⟩ := he.invitation hi'
    · exact (hmade i hi (hs.2.1 ▸ hp)).later hs a
    · rw [hrole] at hp
      exact ⟨acts, audit, input, [], rfl, hid, hrole, Or.inl hby, hlast hp (hallowed hp)⟩

/-- **Only current owners make owners and admins**, in every run in which the role of each
    request that creates or revokes a protected invitation is still current: at every step the
    protected changes are those of a current owner, every protected invitation was made by one,
    and a protected role that is gained by accepting is that of such an invitation. -/
theorem only_current_owners {s : Console} (h0 : s.db.adminInvitations = []) (acts : List Action)
    (hc : Machine.Along Console.step RoleStillCurrent s acts) (before : List Action) (a : Action)
    (after : List Action) (hsplit : acts = before ++ a :: after) :
    OwnersOnly (Machine.run Console.step s before) a
        (Machine.run Console.step s (before ++ [a])).db ∧
      (∀ i ∈ (Machine.run Console.step s before).db.adminInvitations, i.role.Protected →
        MadeByOwner s before i) ∧
      ∀ audit input, a = .acceptAdminInvitation audit input → ∀ id role, role.Protected →
        (Machine.run Console.step s (before ++ [a])).db.Holds id role →
        ¬ (Machine.run Console.step s before).db.Holds id role →
        ∃ i ∈ (Machine.run Console.step s before).db.adminInvitations,
          i.role = role ∧ MadeByOwner s before i := by
  subst hsplit
  rw [Machine.along_append] at hc
  obtain ⟨hbefore, hstep, _⟩ := hc
  obtain ⟨hk, hmade⟩ := made_by_owner h0 before hbefore
  rw [Machine.run_append]
  have he := step_effect (Machine.run Console.step s before) a
  refine ⟨he.ownersOnly hk hstep, hmade, ?_⟩
  rintro audit input rfl id role hp h hnew
  obtain ⟨i, hi, rfl⟩ := he.gained_accepting h hnew
  exact ⟨i, hi, rfl, hmade i hi hp⟩

/-! ## 4. An owner who no longer is one -/

def ownerInvitation : InvitationInput := ⟨"c@example.com".toList, .owner, List.replicate 64 'a'⟩

/-- Both are authenticated; the second demotes the first. -/
def demotion : List Action :=
  [.authenticate 1 true, .authenticate 2 true,
    .replaceAdminRole ⟨2, .of .owner⟩ 1 .owner .analyst]

/-- Then the first one's request invites an owner. -/
def invitation : Action := .createAdminInvitation ⟨1, .of .owner⟩ ownerInvitation

omit [TextCase] in
theorem only_current_owners_invite :
    let _ : TextCase := ⟨id, id⟩
    OwnersOnly (Machine.run Console.step twoOwners [.authenticate 1 true]) invitation
      (Machine.run Console.step twoOwners ([.authenticate 1 true] ++ [invitation])).db := by
  intro _
  exact (only_current_owners (s := twoOwners) rfl [.authenticate 1 true, invitation]
    ⟨True.intro, (fun _ _ => by decide +kernel), True.intro⟩ [.authenticate 1 true] invitation []
    rfl).1

omit [TextCase] in
/-- An invitation for an owner appears that no owner made. -/
theorem demoted_owner_invites :
    ¬ ∀ [TextCase] (s : Console), s.db.adminInvitations = [] →
      ∀ (before : List Action) (a : Action), OwnersOnly (Machine.run Console.step s before) a
        (Machine.run Console.step s (before ++ [a])).db := by
  intro h
  let _ : TextCase := ⟨id, id⟩
  have hcreated := (h twoOwners rfl demotion invitation).created
  revert hcreated
  decide +kernel

end OpenVac.Admin
