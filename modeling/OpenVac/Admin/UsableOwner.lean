/-
  File:      OpenVac/Admin/UsableOwner.lean
  Subject:   Whether the system keeps an owner who can act.

  * `UsableOwner` -- someone holds the owner role who is neither banned nor marked for deletion.
  * `SparesOwner` -- a step that bans an owner or takes the owner role leaves another such owner.
    The store counts the rows of owners, banned or not, so it does not see to this itself.
  * `usable_owner_remains` -- in every run whose steps spare one, one remains; a committed step
    that does not leaves none.
-/
import OpenVac.Admin.RoleEffects

namespace OpenVac.Admin

open Rows

/-! ## 1. Owners who can act -/

/-- The account exists, its ban (if any) is over, and it is not marked for deletion. -/
def Available (db : Database) (now : Int) (id : UserId) : Prop :=
  ∃ u ∈ db.users, u.id = id ∧ isEffectiveBan u now = false ∧ u.deletionRequestedAt = none

def IsUsableOwner (db : Database) (now : Int) (r : RoleRow) : Prop :=
  r.role = .owner ∧ Available db now r.userId

def UsableOwner (db : Database) (now : Int) : Prop :=
  ∃ r ∈ db.adminRoles, IsUsableOwner db now r

def OtherUsableOwner (db : Database) (now : Int) (target : UserId) : Prop :=
  ∃ r ∈ db.adminRoles, r.userId ≠ target ∧ IsUsableOwner db now r

instance (db : Database) (now : Int) (id : UserId) : Decidable (Available db now id) :=
  inferInstanceAs (Decidable (∃ u ∈ db.users,
    u.id = id ∧ isEffectiveBan u now = false ∧ u.deletionRequestedAt = none))

instance (db : Database) (now : Int) (r : RoleRow) : Decidable (IsUsableOwner db now r) :=
  inferInstanceAs (Decidable (r.role = .owner ∧ Available db now r.userId))

instance (db : Database) (now : Int) : Decidable (UsableOwner db now) :=
  inferInstanceAs (Decidable (∃ r ∈ db.adminRoles, IsUsableOwner db now r))

instance (db : Database) (now : Int) (target : UserId) :
    Decidable (OtherUsableOwner db now target) :=
  inferInstanceAs (Decidable (∃ r ∈ db.adminRoles, r.userId ≠ target ∧ IsUsableOwner db now r))

instance (db : Database) : Decidable db.OneRole :=
  inferInstanceAs (Decidable (db.adminRoles.map (·.userId)).Nodup)

/-- The ban that is set is in force at the moment. -/
def UserBanInput.inForce (input : UserBanInput) (now : Int) : Bool :=
  input.banned && input.expiresAt.all fun expires => decide (now < expires)

/-- A step that bans an owner, or takes the owner role from a user, leaves another usable owner. -/
def SparesOwner (s : Console) : Action → Prop
  | .setUserBan _ userId input =>
      input.inForce s.clock = true → s.db.Holds userId .owner →
        OtherUsableOwner s.db s.clock userId
  | .revokeAdminRole _ userId role => role = .owner → OtherUsableOwner s.db s.clock userId
  | .replaceAdminRole _ userId expectedRole role =>
      expectedRole = .owner → role ≠ .owner → OtherUsableOwner s.db s.clock userId
  | _ => True

/-! ## 2. One step -/

theorem isEffectiveBan_mono {u : User} {now later : Int} (h : now ≤ later)
    (hu : isEffectiveBan u now = false) : isEffectiveBan u later = false := by
  unfold isEffectiveBan at hu ⊢
  cases hb : u.banned with
  | false => simp
  | true =>
    cases he : u.banExpires with
    | none => simp [hb, he] at hu
    | some expires =>
      have hover : expires ≤ now := by simpa [hb, he] using hu
      have : ¬ later < expires := by omega
      simp [this]

/-- Whom a ban in force is set for is banned. -/
theorem isEffectiveBan_applyBan (input : UserBanInput) (u : User) (now : Int) :
    isEffectiveBan (applyBan input u) now = input.inForce now := by
  cases hb : input.banned with
  | false => simp [isEffectiveBan, applyBan, UserBanInput.inForce, hb]
  | true => simp [isEffectiveBan, applyBan, UserBanInput.inForce, hb]

theorem Available.mono {db : Database} {now later : Int} {id : UserId} (h : now ≤ later)
    (ha : Available db now id) : Available db later id := by
  obtain ⟨u, hu, hid, hban, hdel⟩ := ha
  exact ⟨u, hu, hid, isEffectiveBan_mono h hban, hdel⟩

theorem UsableOwner.mono {db : Database} {now later : Int} (h : now ≤ later)
    (ho : UsableOwner db now) : UsableOwner db later := by
  obtain ⟨r, hr, hrole, ha⟩ := ho
  exact ⟨r, hr, hrole, ha.mono h⟩

/-- An update of one account leaves the others available. -/
theorem Available.updateWhere {db : Database} {now : Int} {id target : UserId} {f : User → User}
    (hne : id ≠ target) (ha : Available db now id) :
    Available { db with users := updateWhere (fun u => u.id == target) f db.users } now id := by
  obtain ⟨u, hu, hid, hrest⟩ := ha
  refine ⟨u, ?_, hid, hrest⟩
  have hother : (u.id == target) = false := by simp [hid, hne]
  exact mem_updateWhere.mpr ⟨u, hu, by rw [hother]; rfl⟩

/-- Rows that stay keep their owners. -/
theorem UsableOwner.of_rows {db db' : Database} {now : Int} (hu : db'.users = db.users)
    {r r' : RoleRow} (hr : r' ∈ db'.adminRoles) (hid : r'.userId = r.userId)
    (hrole : r'.role = .owner) (ha : Available db now r.userId) : UsableOwner db' now := by
  refine ⟨r', hr, hrole, ?_⟩
  rw [hid]
  unfold Available
  rw [hu]
  exact ha

/-- **A step that spares an owner leaves a usable one.** -/
theorem StepEffect.usable {s : Console} {a : Action} {db' : Database} (he : StepEffect s a db')
    (hc : SparesOwner s a) (h : UsableOwner s.db s.clock) : UsableOwner db' s.clock := by
  obtain ⟨r, hr, hrole, ha⟩ := h
  cases he with
  | same => exact ⟨r, hr, hrole, ha⟩
  | registered email =>
    obtain ⟨u, hu, hrest⟩ := ha
    exact ⟨r, hr, hrole, u, List.mem_append_left _ hu, hrest⟩
  | granted audit userId role allowed free =>
    exact .of_rows rfl (List.mem_append_left _ hr) rfl hrole ha
  | roleRevoked audit userId role held =>
    by_cases howner : role = .owner
    · obtain ⟨r', hr', hne, hrole', ha'⟩ := hc howner
      refine .of_rows rfl (mem_deleteWhere.mpr ⟨hr', ?_⟩) rfl hrole' ha'
      simp [hne]
    · refine .of_rows rfl (mem_deleteWhere.mpr ⟨hr, ?_⟩) rfl hrole ha
      simp [hrole, Ne.symm howner]
  | replaced audit userId expectedRole role allowed held =>
    by_cases hkeep : r.userId = userId ∧ r.role = expectedRole
    · by_cases howner : role = .owner
      · have hmem : (⟨userId, role, some audit.actorId, s.clock⟩ : RoleRow) ∈
            updateWhere (fun r => r.userId == userId && r.role == expectedRole)
              (fun _ => ⟨userId, role, some audit.actorId, s.clock⟩) s.db.adminRoles :=
          mem_updateWhere.mpr ⟨r, hr, by simp [hkeep.1, hkeep.2]⟩
        exact .of_rows rfl hmem hkeep.1.symm howner ha
      · obtain ⟨r', hr', hne, hrole', ha'⟩ := hc (hkeep.2.symm.trans hrole) howner
        refine .of_rows rfl (mem_updateWhere.mpr ⟨r', hr', ?_⟩) rfl hrole' ha'
        simp [hne]
    · refine .of_rows rfl (mem_updateWhere.mpr ⟨r, hr, ?_⟩) rfl hrole ha
      have : (r.userId == userId && r.role == expectedRole) = false := by
        simpa [Bool.and_eq_true] using hkeep
      rw [this]
      rfl
  | created audit input created isNext isRole inviter pending allowed =>
    exact ⟨r, hr, hrole, ha⟩
  | revoked audit existing mem allowed => exact ⟨r, hr, hrole, ha⟩
  | accepted audit input invitation mem free =>
    exact .of_rows rfl (List.mem_append_left _ hr) rfl hrole ha
  | banned audit userId input =>
    by_cases htarget : r.userId = userId
    · by_cases hforce : input.inForce s.clock = true
      · obtain ⟨r', hr', hne, hrole', ha'⟩ := hc hforce ⟨r, hr, htarget, hrole⟩
        exact ⟨r', hr', hrole', ha'.updateWhere hne⟩
      · -- an unban, or a ban that is over already
        obtain ⟨u, hu, hid, hban, hdel⟩ := ha
        refine ⟨r, hr, hrole, applyBan input u, mem_updateWhere.mpr ⟨u, hu, ?_⟩, hid, ?_, hdel⟩
        · simp [hid, htarget]
        · rw [isEffectiveBan_applyBan]
          simpa using hforce
    · exact ⟨r, hr, hrole, ha.updateWhere htarget⟩
  | marked userId instant free =>
    have hne : r.userId ≠ userId := fun e => free .owner ⟨r, hr, e, hrole⟩
    exact ⟨r, hr, hrole, ha.updateWhere hne⟩
  | deleted userId free =>
    obtain ⟨u, hu, hid, hrest⟩ := ha
    have hne : u.id ≠ userId := fun e => free r hr (hid.symm.trans e)
    refine ⟨forgetGrantor userId r, List.mem_map_of_mem hr, hrole, u, ?_, hid, hrest⟩
    exact mem_deleteWhere.mpr ⟨hu, by simp [hne]⟩

/-- **The unique index: one step leaves each user at most one role.** -/
theorem StepEffect.oneRole {s : Console} {a : Action} {db' : Database} (he : StepEffect s a db')
    (h : s.db.OneRole) : db'.OneRole := by
  cases he with
  | same | registered | created | revoked | banned | marked => exact h
  | granted audit userId role allowed free => exact UniqueOn.append_one h free
  | accepted audit input invitation mem free => exact UniqueOn.append_one h free
  | roleRevoked audit userId role held => exact UniqueOn.deleteWhere h _
  | replaced audit userId expectedRole role allowed held =>
    have hkeys : (updateWhere (fun r => r.userId == userId && r.role == expectedRole)
        (fun _ => (⟨userId, role, some audit.actorId, s.clock⟩ : RoleRow)) s.db.adminRoles).map
          (·.userId) = s.db.adminRoles.map (·.userId) := by
      unfold updateWhere
      rw [List.map_map]
      refine List.map_congr_left fun r _ => ?_
      simp only [Function.comp]
      split
      · next hp =>
        simp only [Bool.and_eq_true, beq_iff_eq] at hp
        exact hp.1.symm
      · rfl
    show ((updateWhere _ _ s.db.adminRoles).map (·.userId)).Nodup
    rw [hkeys]
    exact h
  | deleted userId free =>
    show ((s.db.adminRoles.map (forgetGrantor userId)).map (·.userId)).Nodup
    rw [List.map_map]
    exact h

/-- **A step that changes the tables without sparing an owner leaves none.** -/
theorem StepEffect.none_usable {s : Console} {a : Action} {db' : Database}
    (he : StepEffect s a db') (hchange : db' ≠ s.db) (hc : ¬ SparesOwner s a) :
    ¬ UsableOwner db' s.clock := by
  rintro ⟨r, hr, hrole, ha⟩
  cases he with
  | same => exact hchange rfl
  | registered | granted | created | revoked | accepted | marked | deleted => exact hc True.intro
  | roleRevoked audit userId role held =>
    obtain ⟨howner, hother⟩ := Classical.not_imp.mp hc
    obtain ⟨hr, hkeep⟩ := mem_deleteWhere.mp hr
    have hne : r.userId ≠ userId := by
      intro e
      simp [e, hrole, howner] at hkeep
    exact hother ⟨r, hr, hne, hrole, ha⟩
  | replaced audit userId expectedRole role allowed held =>
    obtain ⟨hexpected, hc⟩ := Classical.not_imp.mp hc
    obtain ⟨hnew, hother⟩ := Classical.not_imp.mp hc
    obtain ⟨r₀, hr₀, rfl⟩ := mem_updateWhere.mp hr
    by_cases hp : (r₀.userId == userId && r₀.role == expectedRole) = true
    · rw [if_pos hp] at hrole
      exact hnew hrole
    · rw [if_neg hp] at hrole ha
      have hne : r₀.userId ≠ userId := by
        intro e
        simp [e, hrole, hexpected] at hp
      exact hother ⟨r₀, hr₀, hne, hrole, ha⟩
  | banned audit userId input =>
    obtain ⟨hforce, hc⟩ := Classical.not_imp.mp hc
    obtain ⟨hholds, hother⟩ := Classical.not_imp.mp hc
    obtain ⟨u, hu, hid, hban, hdel⟩ := ha
    obtain ⟨u₀, hu₀, rfl⟩ := mem_updateWhere.mp hu
    by_cases hp : (u₀.id == userId) = true
    · rw [if_pos hp, isEffectiveBan_applyBan, hforce] at hban
      nomatch hban
    · rw [if_neg hp] at hid hban hdel
      have hne : r.userId ≠ userId := by
        rw [← hid]
        simpa using hp
      exact hother ⟨r, hr, hne, hrole, u₀, hu₀, hid, hban, hdel⟩

/-! ## 3. Runs -/

variable [TextCase]

/-- **In every run whose steps spare an owner, a usable owner remains, and each user has one role
    at most. A step that commits without sparing one leaves none.** -/
theorem usable_owner_remains :
    (∀ (s : Console) (acts : List Action), s.db.OneRole → UsableOwner s.db s.clock →
      Machine.Along Console.step SparesOwner s acts →
      (Machine.run Console.step s acts).db.OneRole ∧
        UsableOwner (Machine.run Console.step s acts).db
          (Machine.run Console.step s acts).clock) ∧
    ∀ (s : Console) (a : Action), ¬ SparesOwner s a → (s.step a).db ≠ s.db →
      ¬ UsableOwner (s.step a).db s.clock := by
  refine ⟨?_, ?_⟩
  · intro s acts hone husable halong
    refine @Machine.run_invariant_along _ _ _ SparesOwner
      (fun s => s.db.OneRole ∧ UsableOwner s.db s.clock) _ ⟨hone, husable⟩ ?_ acts halong
    intro s a hc h
    have he := step_effect s a
    exact ⟨he.oneRole h.1, (he.usable hc h.2).mono (clock_le_step s a)⟩
  · intro s a hc hchange
    exact (step_effect s a).none_usable hchange hc

/-! ## 4. The last usable owner steps down -/

/-- One of two owners gives up the role. -/
def givesUp : List Action := [.authenticate 1 true, .revokeAdminRole ⟨1, .of .owner⟩ 1 .owner]

omit [TextCase] in
theorem usable_owner_remains_one :
    let _ : TextCase := ⟨id, id⟩
    UsableOwner (Machine.run Console.step twoOwners givesUp).db
      (Machine.run Console.step twoOwners givesUp).clock := by
  intro _
  exact (usable_owner_remains.1 twoOwners givesUp (by decide) (by decide)
    ⟨True.intro, (fun _ => by decide +kernel), True.intro⟩).2

/-- One owner bans the other for good and then gives up the role: the count of owners is two. -/
def stepsDown : List Action :=
  [.authenticate 1 true, .setUserBan ⟨1, .of .owner⟩ 2 ⟨true, some "reason".toList, none⟩,
    .authenticate 1 true, .revokeAdminRole ⟨1, .of .owner⟩ 1 .owner]

omit [TextCase] in
theorem last_usable_owner_lost :
    ¬ ∀ [TextCase] (s : Console) (acts : List Action), s.db.OneRole → UsableOwner s.db s.clock →
      (Machine.run Console.step s acts).db.OneRole ∧
        UsableOwner (Machine.run Console.step s acts).db
          (Machine.run Console.step s acts).clock := by
  intro h
  let _ : TextCase := ⟨id, id⟩
  have hlost := (h twoOwners stepsDown (by decide) (by decide)).2
  revert hlost
  decide +kernel

end OpenVac.Admin
