/-
  File:      OpenVac/Quota/Invariant.lean
  Subject:   The quota store over whole runs: the accounts balance in every reachable state, a
             lease moves as one, and a settled row never moves again.

  * `settleRows_ok` -- the loop of a transition: exactly the selected reserved rows move.
  * `reserve_ok`, `transition_ok`, `prepareUserDeletion_ok` -- what each transaction does to
    the ledger, the only summary the later arguments use.
  * `Sound db` -- the invariant; `sound_step`, `sound_run`.
  * `settled_run` -- a row that left `reserved` keeps its status for as long as it exists.
  * `quota_store_invariant` -- the result over every run.
-/
import OpenVac.Quota.Accounts

namespace OpenVac.Quota

open Rows

/-! ## 1. The settling loop -/

/-- Settling one more row after `ids` is settling `row.id :: ids` at once. -/
theorem updateWhere_settle_cons {ledger : List LedgerRow} (hu : UniqueOn (·.id) ledger)
    {target : QuotaTarget} {reason : String} {row : LedgerRow} (hr : row ∈ ledger)
    (hs : row.status = .reserved) (ids : List Nat) :
    updateWhere (fun r => r.status == .reserved && ids.contains r.id)
        (LedgerRow.settle target reason)
        (updateWhere (fun r => r.id == row.id) (LedgerRow.settle target reason) ledger) =
      updateWhere (fun r => r.status == .reserved && (row.id :: ids).contains r.id)
        (LedgerRow.settle target reason) ledger := by
  unfold updateWhere
  rw [List.map_map]
  refine List.map_congr_left fun r hm => ?_
  by_cases e : r.id = row.id
  · have hrr : r = row := hu.eq hm hr e
    simp [hrr, hs, LedgerRow.settle]
  · simp [e]

/-- **What the loop over the selected rows does**: the accounts stay balanced, and the rows of
    the loop that were reserved, and no others, are settled. -/
theorem settleRows_ok {target : QuotaTarget} {reason : String} {rows : List LedgerRow}
    {db db' : QuotaDb} (h : Accounts db) (hm : ∀ r ∈ rows, r ∈ db.ledger)
    (hn : UniqueOn (·.id) rows) (hok : rows.foldlM (settleRow target reason) db = .ok db') :
    Accounts db' ∧ db'.users = db.users ∧ db'.nextId = db.nextId ∧
      db'.ledger =
        updateWhere (fun r => r.status == .reserved && (rows.map (·.id)).contains r.id)
          (LedgerRow.settle target reason) db.ledger := by
  induction rows generalizing db with
  | nil =>
    injection hok with e
    subst e
    refine ⟨h, rfl, rfl, ?_⟩
    simp [updateWhere]
  | cons row rows ih =>
    rw [List.foldlM_cons] at hok
    obtain ⟨db₁, h1, h2⟩ := Except.bind_ok_iff.mp hok
    obtain ⟨hnew, hn'⟩ := List.nodup_cons.mp hn
    have hrow : row ∈ db.ledger := hm row List.mem_cons_self
    have hacc : Accounts db₁ := accounts_settleRow h hrow h1
    rcases settleRow_ok h1 with ⟨hs, rfl⟩ | ⟨hs, _, rfl⟩
    · obtain ⟨ha, hu, hid, hl⟩ := ih h (fun r hr => hm r (List.mem_cons_of_mem _ hr)) hn' h2
      refine ⟨ha, hu, hid, ?_⟩
      rw [hl]
      unfold updateWhere
      refine List.map_congr_left fun r hr => ?_
      -- the row itself is not reserved, so adding its id selects nothing more
      by_cases e : r.id = row.id
      · have hrr : r = row := h.ledgerIds.eq hr hrow e
        simp [hrr, hs]
      · simp [e]
    · have hkeep : ∀ r ∈ rows, r ∈ updateWhere (fun r => r.id == row.id)
          (LedgerRow.settle target reason) db.ledger := fun r hr => by
        have hne : (r.id == row.id) = false :=
          beq_false_of_ne fun e => hnew (List.mem_map.mpr ⟨r, hr, e⟩)
        have := mem_updateWhere_of_mem (p := fun r => r.id == row.id)
          (f := LedgerRow.settle target reason) (hm r (List.mem_cons_of_mem _ hr))
        rw [if_neg (by rw [hne]; exact Bool.false_ne_true)] at this
        exact this
      obtain ⟨ha, hu, hid, hl⟩ := ih hacc hkeep hn' h2
      refine ⟨ha, hu, hid, ?_⟩
      rw [hl]
      exact updateWhere_settle_cons h.ledgerIds hrow hs _

section Ordered

variable [Collation]

theorem orderByScope_perm (rows : List LedgerRow) : (orderByScope rows).Perm rows :=
  List.perm_insertionSort _ rows

theorem sortByScope_perm {ρ : Type} (scope : ρ → QuotaScopeType × String) (rows : List ρ) :
    (sortByScope scope rows).Perm rows :=
  List.perm_insertionSort _ rows

/-- The rows a transition works on: those its predicates select, in the order of the locks. -/
def transitionRows (input : TransitionInput) (ledger : List LedgerRow) : List LedgerRow :=
  sortByScope LedgerRow.scope (orderByScope (ledger.filter input.selects))

theorem mem_transitionRows {input : TransitionInput} {ledger : List LedgerRow} {r : LedgerRow} :
    r ∈ transitionRows input ledger ↔ r ∈ ledger ∧ input.selects r = true := by
  unfold transitionRows
  rw [(sortByScope_perm _ _).mem_iff, (orderByScope_perm _).mem_iff, List.mem_filter]

/-- **What a successful transition does**: its selected rows that were reserved are settled, the
    rest of the ledger, the users and the id counter stay, and its answer is read from the
    tables it leaves. -/
theorem transition_ok {db db' : QuotaDb} (h : Accounts db) {input : TransitionInput}
    {target : QuotaTarget} {res : QuotaReservation}
    (hok : transitionQuotaReservation db input target = .ok (res, db')) :
    Accounts db' ∧ db'.users = db.users ∧ db'.nextId = db.nextId ∧
      db'.ledger =
        updateWhere (fun r => r.status == .reserved && input.selects r)
          (LedgerRow.settle target (input.reason.getD "operation_failed")) db.ledger ∧
      reservationFromRows db' (transitionRows input db'.ledger) true = .ok res := by
  unfold transitionQuotaReservation at hok
  simp only at hok
  split at hok
  · cases hok
  · obtain ⟨db₁, h1, h2⟩ := Except.bind_ok_iff.mp hok
    obtain ⟨res', h3, h4⟩ := Except.bind_ok_iff.mp h2
    injection h4 with e
    obtain ⟨rfl, rfl⟩ := Prod.mk.inj e
    have hmem : ∀ r ∈ transitionRows input db.ledger, r ∈ db.ledger :=
      fun r hr => (mem_transitionRows.mp hr).1
    have hids : UniqueOn (·.id) (transitionRows input db.ledger) := by
      have hp := ((sortByScope_perm LedgerRow.scope _).trans
        (orderByScope_perm (db.ledger.filter input.selects))).map LedgerRow.id
      exact hp.nodup_iff.mpr (List.Nodup.sublist (List.Sublist.map _ List.filter_sublist) h.ledgerIds)
    obtain ⟨ha, hu, hn, hl⟩ := settleRows_ok h hmem hids h1
    refine ⟨ha, hu, hn, ?_, h3⟩
    rw [hl]
    unfold updateWhere
    refine List.map_congr_left fun r hr => ?_
    have hc : ((transitionRows input db.ledger).map (·.id)).contains r.id = input.selects r := by
      rw [Bool.eq_iff_iff, List.contains_iff_mem, List.mem_map]
      constructor
      · rintro ⟨r', hr', e⟩
        obtain ⟨hr', hsel⟩ := mem_transitionRows.mp hr'
        rw [← h.ledgerIds.eq hr' hr e]
        exact hsel
      · exact fun hsel => ⟨r, mem_transitionRows.mpr ⟨hr, hsel⟩, rfl⟩
    simp only [hc]

end Ordered

/-! ## 2. The other two transactions -/

/-- What the loop of `reserve` has built after some of its scopes. -/
structure Reserving (db : QuotaDb) (input : ReserveInput) (now : Int)
    (acc : QuotaDb × List LedgerRow) : Prop where
  accounts : Accounts acc.1
  users : acc.1.users = db.users
  ledger : acc.1.ledger = db.ledger ++ acc.2
  nextId : db.nextId < acc.1.nextId
  rows : ∀ r ∈ acc.2, db.nextId < r.id ∧ r.leaseId = db.nextId ∧ r.status = .reserved ∧
    r.actorUserId = input.actorUserId ∧ r.resource = input.resource ∧
    r.clientRequestId = input.clientRequestId ∧ r.reservedAt = now

/-- Before its first scope. -/
theorem Accounts.reserving {db : QuotaDb} (h : Accounts db) (input : ReserveInput) (now : Int) :
    Reserving db input now ({ db with nextId := db.nextId + 1 }, []) where
  accounts := h.congr rfl rfl (Nat.le_succ _)
  users := rfl
  ledger := (List.append_nil _).symm
  nextId := Nat.lt_succ_self _
  rows := fun _ hr => nomatch hr

/-- One scope of a reservation. -/
theorem reserving_reserveScope {db : QuotaDb} {input : ReserveInput} {now : Int}
    {acc acc' : QuotaDb × List LedgerRow} {scope : QuotaScopePolicy}
    (h : Reserving db input now acc)
    (hok : reserveScope now input db.nextId acc scope = .ok acc') :
    Reserving db input now acc' := by
  unfold reserveScope at hok
  obtain ⟨db₁, h1, h2⟩ := Except.bind_ok_iff.mp hok
  have hacc₁ := accounts_insertBucket h.accounts h1
  have hsame : db₁.users = acc.1.users ∧ db₁.ledger = acc.1.ledger ∧ acc.1.nextId ≤ db₁.nextId := by
    rcases insertBucket_ok h1 with e | ⟨row, _, _, _, _, e⟩
    · rw [e]
      exact ⟨rfl, rfl, Nat.le_refl _⟩
    · rw [e]
      exact ⟨rfl, rfl, Nat.le_succ _⟩
  split at h2
  · cases h2
  · next existing hfind =>
      obtain ⟨⟨bucket, db₂⟩, h3, h4⟩ := Except.bind_ok_iff.mp h2
      obtain ⟨db₃, h5, h6⟩ := Except.bind_ok_iff.mp h4
      obtain ⟨db₄, h7, h8⟩ := Except.bind_ok_iff.mp h6
      injection h8 with e
      subst e
      obtain ⟨hacc₂, hb, hu₂, hl₂, hn₂⟩ :=
        accounts_reconcileBucket hacc₁ (List.mem_of_find?_eq_some hfind) h3
      obtain ⟨hacc₄, hu₄, hn₃, hn₄, hl₄⟩ := accounts_debit hacc₂ hb h5 h7
      have hfresh : db.nextId < db₃.nextId := by
        have h9 := h.nextId
        have h10 := hsame.2.2
        omega
      constructor
      · exact hacc₄
      · exact hu₄.trans (hu₂.trans (hsame.1.trans h.users))
      · simp only
        rw [hl₄, hl₂, hsame.2.1, h.ledger, List.append_assoc]
      · simp only
        omega
      · intro r hr
        rcases List.mem_append.mp hr with hr | hr
        · exact h.rows r hr
        · rw [List.mem_singleton.mp hr]
          exact ⟨hfresh, rfl, rfl, rfl, rfl, rfl, rfl⟩

section Ordered

variable [Collation]

omit [Collation] in
/-- What an answer says of the rows it was read from. -/
theorem reservationFromRows_ok {db : QuotaDb} {rows : List LedgerRow} {idempotent : Bool}
    {res : QuotaReservation} (h : reservationFromRows db rows idempotent = .ok res) :
    res.idempotent = idempotent ∧ res.status = aggregateStatus rows ∧
      ∃ first ∈ rows, res.leaseId = first.leaseId := by
  unfold reservationFromRows at h
  split at h
  · cases h
  · next first rest =>
      injection h with e
      rw [← e]
      exact ⟨rfl, rfl, first, List.mem_cons_self, rfl⟩

/-- **What a successful reservation does**: nothing at all, and it says so (the request was seen
    before), or new reserved rows under one fresh lease. -/
theorem reserveInTransaction_ok {db db' : QuotaDb} (h : Accounts db) {now : Int}
    {input : ReserveInput} {res : QuotaReservation}
    (hok : reserveInTransaction db now input = .ok (res, db')) :
    (db' = db ∧ res.idempotent = true) ∨ ∃ rows, rows ≠ [] ∧
      Reserving db input now (db', rows) ∧ reservationFromRows db' rows false = .ok res := by
  unfold reserveInTransaction at hok
  obtain ⟨_, _, h1⟩ := Except.bind_ok_iff.mp hok
  simp only at h1
  split at h1
  · obtain ⟨_, hread, h2⟩ := Except.bind_ok_iff.mp h1
    injection h2 with e
    obtain ⟨rfl, rfl⟩ := Prod.mk.inj e
    exact Or.inl ⟨rfl, (reservationFromRows_ok hread).1⟩
  · obtain ⟨⟨db₁, rows⟩, h2, h3⟩ := Except.bind_ok_iff.mp h1
    obtain ⟨res', h4, h5⟩ := Except.bind_ok_iff.mp h3
    injection h5 with e
    obtain ⟨rfl, rfl⟩ := Prod.mk.inj e
    refine Or.inr ⟨rows, ?_, ?_, h4⟩
    · rintro rfl
      cases h4
    · exact Except.foldlM_invariant (h.reserving input now)
        (fun acc scope acc' _ hi hs => reserving_reserveScope hi hs) h2

/-- The same for `reserve`: the answer after a unique violation changes nothing. -/
theorem reserve_ok {db db' : QuotaDb} (h : Accounts db) {now : Int} {input : ReserveInput}
    {res : QuotaReservation} (hok : reserve db now input = .ok (res, db')) :
    (db' = db ∧ res.idempotent = true) ∨ ∃ rows, rows ≠ [] ∧
      Reserving db input now (db', rows) ∧ reservationFromRows db' rows false = .ok res := by
  unfold reserve at hok
  split at hok
  · simp only at hok
    split at hok
    · obtain ⟨_, hread, h2⟩ := Except.bind_ok_iff.mp hok
      injection h2 with e
      obtain ⟨rfl, rfl⟩ := Prod.mk.inj e
      exact Or.inl ⟨rfl, (reservationFromRows_ok hread).1⟩
    · cases hok
  · exact reserveInTransaction_ok h hok

end Ordered

/-- **What the preparation of a user's deletion does to the ledger**: the user's reserved rows
    are released, then some rows go with their buckets. -/
theorem prepareUserDeletion_ok {db db' : QuotaDb} (h : Accounts db) {userId : String}
    {roles : List String} {now : Int}
    (hok : prepareUserDeletion db userId roles now = .ok ((), db')) :
    Accounts db' ∧ db'.nextId = db.nextId ∧
      (db' = db ∨ ∃ gone : LedgerRow → Bool, db'.ledger =
        deleteWhere gone
          (updateWhere (fun r => r.status == .reserved && r.actorUserId == userId)
            (LedgerRow.settle .released "account_deleted") db.ledger)) := by
  unfold prepareUserDeletion at hok
  split at hok
  · injection hok with e
    obtain ⟨_, rfl⟩ := Prod.mk.inj e
    exact ⟨h, rfl, Or.inl rfl⟩
  · next account _ =>
      obtain ⟨_, _, h1⟩ := Except.bind_ok_iff.mp hok
      obtain ⟨db₁, h2, h3⟩ := Except.bind_ok_iff.mp h1
      injection h3 with e
      obtain ⟨_, rfl⟩ := Prod.mk.inj e
      have hloop := fun hacc hm hn => settleRows_ok hacc hm hn h2
      obtain ⟨ha, _, hn, hl⟩ := hloop (h.congr rfl rfl (Nat.le_refl _))
        (fun r hr => (List.mem_filter.mp hr).1)
        (List.Nodup.sublist (List.Sublist.map _ List.filter_sublist) h.ledgerIds)
      have hl' : db₁.ledger =
          updateWhere (fun r => r.status == .reserved && r.actorUserId == userId)
            (LedgerRow.settle .released "account_deleted") db.ledger := by
        rw [hl]
        unfold updateWhere
        refine List.map_congr_left fun r hr => ?_
        have hc : (r.status == .reserved && ((db.ledger.filter fun r =>
            r.actorUserId == userId && r.status == .reserved).map (·.id)).contains r.id) =
            (r.status == .reserved && r.actorUserId == userId) := by
          rw [Bool.eq_iff_iff, Bool.and_eq_true, Bool.and_eq_true, List.contains_iff_mem,
            List.mem_map]
          constructor
          · rintro ⟨hs, r', hr', e⟩
            obtain ⟨hr', hsel⟩ := List.mem_filter.mp hr'
            rw [h.ledgerIds.eq hr' hr e, Bool.and_eq_true] at hsel
            exact ⟨hs, hsel.1⟩
          · rintro ⟨hs, hu⟩
            exact ⟨hs, r, List.mem_filter.mpr ⟨hr, by rw [hs, hu]; rfl⟩, rfl⟩
        simp only [hc]
      exact ⟨accounts_deleteBuckets ha _, hn, Or.inr ⟨_, congrArg (deleteWhere _) hl'⟩⟩

/-! ## 3. The invariant -/

/-- **The invariant of the quota tables**: balanced accounts, and leases that move as one. -/
structure Sound (db : QuotaDb) : Prop where
  accounts : Accounts db
  leaseOld : ∀ r ∈ db.ledger, r.leaseId < db.nextId
  lease : ∀ r ∈ db.ledger, ∀ r' ∈ db.ledger, r.leaseId = r'.leaseId →
    r.actorUserId = r'.actorUserId ∧ r.resource = r'.resource ∧ r.status = r'.status

theorem sound_initial (users : List UserRow) : Sound (initial users) where
  accounts := accounts_initial users
  leaseOld _ h := absurd h List.not_mem_nil
  lease _ h := absurd h List.not_mem_nil

/-- Settling keeps leases whole when the selection looks only at the lease and its actor. -/
theorem Sound.settle {db db' : QuotaDb} (h : Sound db) (ha : Accounts db')
    (hn : db'.nextId = db.nextId) {q : LedgerRow → Bool}
    (hq : ∀ r r' : LedgerRow, r.leaseId = r'.leaseId → r.actorUserId = r'.actorUserId →
      q r = q r') {target : QuotaTarget} {reason : String}
    (hl : ∀ r ∈ db'.ledger, r ∈ updateWhere (fun r => r.status == .reserved && q r)
      (LedgerRow.settle target reason) db.ledger) : Sound db' := by
  refine ⟨ha, fun r hr => ?_, fun r hr r' hr' e => ?_⟩
  · have hf : ∀ r, (LedgerRow.settle target reason r).leaseId = r.leaseId := fun _ => rfl
    obtain ⟨r₀, hr₀, e⟩ := mem_updateWhere_stem hf (hl r hr)
    rw [e, hn]
    exact h.leaseOld r₀ hr₀
  · obtain ⟨r₀, hr₀, e₀⟩ := mem_updateWhere.mp (hl r hr)
    obtain ⟨r₁, hr₁, e₁⟩ := mem_updateWhere.mp (hl r' hr')
    have hlease : r₀.leaseId = r₁.leaseId := by
      have h0 : r.leaseId = r₀.leaseId := by rw [e₀]; split <;> rfl
      have h1 : r'.leaseId = r₁.leaseId := by rw [e₁]; split <;> rfl
      rw [← h0, ← h1, e]
    obtain ⟨hactor, hres, hstatus⟩ := h.lease r₀ hr₀ r₁ hr₁ hlease
    -- both rows are selected or neither is
    rw [hstatus, hq r₀ r₁ hlease hactor] at e₀
    rw [e₀, e₁]
    split
    · exact ⟨hactor, hres, rfl⟩
    · exact ⟨hactor, hres, hstatus⟩

/-- New rows under one fresh lease keep every lease whole. -/
theorem Sound.reserving {db db' : QuotaDb} (h : Sound db) {now : Int} {input : ReserveInput}
    {rows : List LedgerRow} (hr : Reserving db input now (db', rows)) : Sound db' := by
  have hl : db'.ledger = db.ledger ++ rows := hr.ledger
  have hn : db.nextId < db'.nextId := hr.nextId
  refine ⟨hr.accounts, fun r hm => ?_, fun r hm r' hm' e => ?_⟩
  · rw [hl] at hm
    rcases List.mem_append.mp hm with hm | hm
    · exact Nat.lt_trans (h.leaseOld r hm) hn
    · rw [(hr.rows r hm).2.1]
      exact hn
  · rw [hl] at hm hm'
    rcases List.mem_append.mp hm with hm | hm <;> rcases List.mem_append.mp hm' with hm' | hm'
    · exact h.lease r hm r' hm' e
    · have h1 := h.leaseOld r hm
      have h2 := (hr.rows r' hm').2.1
      omega
    · have h1 := h.leaseOld r' hm'
      have h2 := (hr.rows r hm).2.1
      omega
    · obtain ⟨_, _, s1, a1, q1, _⟩ := hr.rows r hm
      obtain ⟨_, _, s2, a2, q2, _⟩ := hr.rows r' hm'
      exact ⟨a1.trans a2.symm, q1.trans q2.symm, s1.trans s2.symm⟩

theorem TransitionInput.selects_congr (input : TransitionInput) {r r' : LedgerRow}
    (hl : r.leaseId = r'.leaseId) (ha : r.actorUserId = r'.actorUserId) :
    input.selects r = input.selects r' := by
  unfold TransitionInput.selects
  rw [hl, ha]

section Ordered

variable [Collation]

theorem Sound.transition {db db' : QuotaDb} (h : Sound db) {input : TransitionInput}
    {target : QuotaTarget} {res : QuotaReservation}
    (hok : transitionQuotaReservation db input target = .ok (res, db')) : Sound db' := by
  obtain ⟨ha, _, hn, hl, _⟩ := transition_ok h.accounts hok
  exact h.settle ha hn (fun r r' => input.selects_congr) (fun r hr => hl ▸ hr)

/-- **One transaction preserves the invariant.** -/
theorem sound_step (db : QuotaDb) (a : QuotaAction) (h : Sound db) : Sound (step db a) := by
  cases a with
  | reserve now input =>
    refine Machine.commit_preserves h fun res db' hok => ?_
    rcases reserve_ok h.accounts hok with ⟨rfl, _⟩ | ⟨rows, _, hr, _⟩
    · exact h
    · exact h.reserving hr
  | commit input => exact Machine.commit_preserves h fun res db' hok => h.transition hok
  | release input => exact Machine.commit_preserves h fun res db' hok => h.transition hok
  | prepareUserDeletion userId roles now =>
    refine Machine.commit_preserves h fun _ db' hok => ?_
    obtain ⟨ha, hn, rfl | ⟨gone, hl⟩⟩ := prepareUserDeletion_ok h.accounts hok
    · exact h
    · have hq : ∀ r r' : LedgerRow, r.leaseId = r'.leaseId → r.actorUserId = r'.actorUserId →
          (r.actorUserId == userId) = (r'.actorUserId == userId) := fun r r' _ e => by rw [e]
      have hmem : ∀ r ∈ db'.ledger, r ∈ updateWhere
          (fun r => r.status == .reserved && r.actorUserId == userId)
          (LedgerRow.settle .released "account_deleted") db.ledger := fun r hr => by
        rw [hl] at hr
        exact (mem_deleteWhere.mp hr).1
      exact h.settle ha hn hq hmem

/-- **The invariant holds in every reachable state.** -/
theorem sound_run (users : List UserRow) (ops : List QuotaAction) :
    Sound (Machine.run step (initial users) ops) :=
  Machine.run_invariant (sound_initial users) sound_step ops

end Ordered

/-! ## 4. Settled rows -/

/-- What a row of the ledger may come from: an old row that kept its keys, and its status
    unless that was `reserved`; or a row inserted since. -/
def LedgerRow.Follows (db : QuotaDb) (r' : LedgerRow) : Prop :=
  (∃ r ∈ db.ledger, r'.id = r.id ∧ r'.leaseId = r.leaseId ∧
    (r.status = .reserved ∨ r'.status = r.status)) ∨
  (db.nextId ≤ r'.id ∧ db.nextId ≤ r'.leaseId)

/-- A row of a settled ledger follows its old row: only reserved rows moved. -/
theorem LedgerRow.Follows.of_settle {db : QuotaDb} {q : LedgerRow → Bool} {target : QuotaTarget}
    {reason : String} {r' : LedgerRow}
    (h : r' ∈ updateWhere (fun r => r.status == .reserved && q r)
      (LedgerRow.settle target reason) db.ledger) : r'.Follows db := by
  obtain ⟨r, hr, rfl⟩ := mem_updateWhere.mp h
  refine Or.inl ⟨r, hr, ?_⟩
  split
  · next hs =>
      rw [Bool.and_eq_true, beq_iff_eq] at hs
      exact ⟨rfl, rfl, Or.inl hs.1⟩
  · exact ⟨rfl, rfl, Or.inr rfl⟩

/-- The tables one transaction can lead to: every row follows the ledger before it, and ids are
    not reused. -/
def Successor (db db' : QuotaDb) : Prop :=
  db.nextId ≤ db'.nextId ∧ ∀ r' ∈ db'.ledger, r'.Follows db

theorem Successor.refl (db : QuotaDb) : Successor db db :=
  ⟨Nat.le_refl _, fun r' hr' => Or.inl ⟨r', hr', rfl, rfl, Or.inr rfl⟩⟩

/-- The loop of a transition writes nothing when no selected row is reserved. -/
theorem settleRows_settled (target : QuotaTarget) (reason : String) (db : QuotaDb)
    {rows : List LedgerRow} (h : ∀ r ∈ rows, r.status ≠ .reserved) :
    rows.foldlM (settleRow target reason) db = .ok db := by
  induction rows with
  | nil => rfl
  | cons r rows ih =>
    have h1 : settleRow target reason db r = .ok db := by
      unfold settleRow
      rw [if_pos (h r List.mem_cons_self)]
    rw [List.foldlM_cons, h1]
    exact ih fun r' hr' => h r' (List.mem_cons_of_mem _ hr')

section Ordered

variable [Collation]

theorem successor_transition {db db' : QuotaDb} (h : Accounts db) {input : TransitionInput}
    {target : QuotaTarget} {res : QuotaReservation}
    (hok : transitionQuotaReservation db input target = .ok (res, db')) : Successor db db' := by
  obtain ⟨_, _, hn, hl, _⟩ := transition_ok h hok
  refine ⟨Nat.le_of_eq hn.symm, fun r' hr' => ?_⟩
  rw [hl] at hr'
  exact LedgerRow.Follows.of_settle hr'

theorem successor_step {db : QuotaDb} (h : Sound db) (a : QuotaAction) :
    Successor db (step db a) := by
  cases a with
  | reserve now input =>
    refine Machine.commit_preserves (Successor.refl db) fun res db' hok => ?_
    rcases reserve_ok h.accounts hok with ⟨rfl, _⟩ | ⟨rows, _, hr, _⟩
    · exact Successor.refl _
    · refine ⟨Nat.le_of_lt hr.nextId, fun r' hr' => ?_⟩
      have hl : db'.ledger = db.ledger ++ rows := hr.ledger
      rw [hl] at hr'
      rcases List.mem_append.mp hr' with hr' | hr'
      · exact Or.inl ⟨r', hr', rfl, rfl, Or.inr rfl⟩
      · obtain ⟨hid, hlease, _⟩ := hr.rows r' hr'
        exact Or.inr ⟨Nat.le_of_lt hid, Nat.le_of_eq hlease.symm⟩
  | commit input =>
    exact Machine.commit_preserves (Successor.refl db)
      fun res db' hok => successor_transition h.accounts hok
  | release input =>
    exact Machine.commit_preserves (Successor.refl db)
      fun res db' hok => successor_transition h.accounts hok
  | prepareUserDeletion userId roles now =>
    refine Machine.commit_preserves (Successor.refl db) fun _ db' hok => ?_
    obtain ⟨_, hn, rfl | ⟨gone, hl⟩⟩ := prepareUserDeletion_ok h.accounts hok
    · exact Successor.refl _
    · refine ⟨Nat.le_of_eq hn.symm, fun r' hr' => ?_⟩
      rw [hl] at hr'
      exact LedgerRow.Follows.of_settle (mem_deleteWhere.mp hr').1

/-- **A settled row never changes status again**, for as long as it exists. -/
theorem settled_run {db : QuotaDb} (h : Sound db) {r : LedgerRow} (hr : r ∈ db.ledger)
    (hs : r.status ≠ .reserved) (more : List QuotaAction) :
    ∀ r' ∈ (Machine.run step db more).ledger, r'.id = r.id → r'.status = r.status := by
  have hq : r.id < db.nextId ∧ ∀ r' ∈ db.ledger, r'.id = r.id → r'.status = r.status :=
    ⟨h.accounts.rowOld r hr, fun r' hr' e => by rw [h.accounts.ledgerIds.eq hr' hr e]⟩
  refine (Machine.run_stable (Q := fun db : QuotaDb => r.id < db.nextId ∧
    ∀ r' ∈ db.ledger, r'.id = r.id → r'.status = r.status) h hq sound_step ?_ more).2
  intro db a h hq
  obtain ⟨hn, hf⟩ := successor_step h a
  refine ⟨Nat.lt_of_lt_of_le hq.1 hn, fun r' hr' e => ?_⟩
  rcases hf r' hr' with ⟨r₀, hr₀, e₀, _, hs₀⟩ | ⟨hnew, _⟩
  · have hst := hq.2 r₀ hr₀ (e₀ ▸ e)
    rcases hs₀ with hs₀ | hs₀
    · exact absurd (hst.symm.trans hs₀) hs
    · exact hs₀.trans hst
  · have := hq.1
    omega

/-- **A settled lease stays settled.** -/
theorem settledLease_run {db : QuotaDb} (h : Sound db) {leaseId : Nat} (hn : leaseId < db.nextId)
    (hs : ∀ r ∈ db.ledger, r.leaseId = leaseId → r.status ≠ .reserved)
    (more : List QuotaAction) :
    ∀ r ∈ (Machine.run step db more).ledger, r.leaseId = leaseId → r.status ≠ .reserved := by
  refine (Machine.run_stable (Q := fun db : QuotaDb => leaseId < db.nextId ∧
    ∀ r ∈ db.ledger, r.leaseId = leaseId → r.status ≠ .reserved) h ⟨hn, hs⟩ sound_step ?_ more).2
  intro db a h hq
  obtain ⟨hn, hf⟩ := successor_step h a
  refine ⟨Nat.lt_of_lt_of_le hq.1 hn, fun r' hr' e => ?_⟩
  rcases hf r' hr' with ⟨r₀, hr₀, _, e₀, hs₀⟩ | ⟨_, hnew⟩
  · have hst := hq.2 r₀ hr₀ (e₀ ▸ e)
    rcases hs₀ with hs₀ | hs₀
    · exact absurd hs₀ hst
    · rw [hs₀]
      exact hst
  · have := hq.1
    omega

/-- **A transition of a settled lease writes nothing**, and answers from the tables as they
    are. -/
theorem transition_settled {db : QuotaDb} {input : TransitionInput}
    (hs : ∀ r ∈ db.ledger, input.selects r = true → r.status ≠ .reserved) (target : QuotaTarget) :
    transitionQuotaReservation db input target =
      if (transitionRows input db.ledger).length = 0 then
        .error (.reservationNotFound input.leaseId)
      else
        (reservationFromRows db (transitionRows input db.ledger) true).map fun res => (res, db) := by
  have hrows : ∀ r ∈ transitionRows input db.ledger, r.status ≠ .reserved := fun r hr =>
    hs r (mem_transitionRows.mp hr).1 (mem_transitionRows.mp hr).2
  have hloop := settleRows_settled target (input.reason.getD "operation_failed") db hrows
  show (if (transitionRows input db.ledger).length = 0 then _
    else (transitionRows input db.ledger).foldlM (settleRow target _) db >>= _) = _
  rw [hloop]
  split
  · rfl
  · show (reservationFromRows db (transitionRows input db.ledger) true >>= fun res =>
      Except.ok (res, db)) = _
    cases reservationFromRows db (transitionRows input db.ledger) true <;> rfl

/-! ## 5. The result -/

/-- Every row a transition selected is settled in the tables it leaves. -/
theorem transition_settles {db db' : QuotaDb} (h : Accounts db) {input : TransitionInput}
    {target : QuotaTarget} {res : QuotaReservation}
    (hok : transitionQuotaReservation db input target = .ok (res, db')) :
    ∀ r ∈ db'.ledger, input.selects r = true → r.status ≠ .reserved := by
  intro r hr hsel
  obtain ⟨_, _, _, hl, _⟩ := transition_ok h hok
  rw [hl] at hr
  obtain ⟨r₀, _, rfl⟩ := mem_updateWhere.mp hr
  split
  · cases target <;> exact fun e => QuotaReservationStatus.noConfusion e
  · next hs =>
      rw [if_neg hs] at hsel
      intro e
      rw [e, hsel] at hs
      exact hs rfl

/-- **A second transition of a lease answers as the first and writes nothing**, whatever the two
    targets and reasons are. -/
theorem transition_again {db db' : QuotaDb} (h : Accounts db) {input : TransitionInput}
    {target : QuotaTarget} {res : QuotaReservation}
    (hok : transitionQuotaReservation db input target = .ok (res, db'))
    (target' : QuotaTarget) (reason' : Option String) :
    transitionQuotaReservation db' { input with reason := reason' } target' = .ok (res, db') := by
  have hs := transition_settles h hok
  have hs' : ∀ r ∈ db'.ledger,
      ({ input with reason := reason' } : TransitionInput).selects r = true → r.status ≠ .reserved :=
    hs
  obtain ⟨_, _, _, _, hres⟩ := transition_ok h hok
  have hne : ¬ (transitionRows input db'.ledger).length = 0 := by
    intro e
    rw [List.length_eq_zero_iff.mp e] at hres
    cases hres
  have hsame : ∀ ledger,
      transitionRows { input with reason := reason' } ledger = transitionRows input ledger :=
    fun _ => rfl
  rw [transition_settled hs', hsame, if_neg hne, hres]
  rfl

/-- All rows of a lease a transition reached are settled, also those its actor did not match:
    a lease has one actor. -/
theorem transition_settles_lease {db db' : QuotaDb} (h : Sound db) {input : TransitionInput}
    {target : QuotaTarget} {res : QuotaReservation}
    (hok : transitionQuotaReservation db input target = .ok (res, db')) :
    input.leaseId < db'.nextId ∧
      ∀ r ∈ db'.ledger, r.leaseId = input.leaseId → r.status ≠ .reserved := by
  have h' := h.transition hok
  have hs := transition_settles h.accounts hok
  obtain ⟨_, _, _, _, hres⟩ := transition_ok h.accounts hok
  -- the answer came from some selected row of the lease
  obtain ⟨r₀, hr₀⟩ : ∃ r₀, r₀ ∈ transitionRows input db'.ledger := by
    cases hrows : transitionRows input db'.ledger with
    | nil => rw [hrows] at hres; cases hres
    | cons r rows => exact ⟨r, List.mem_cons_self⟩
  obtain ⟨hm, hsel⟩ := mem_transitionRows.mp hr₀
  have hlease : r₀.leaseId = input.leaseId := by
    unfold TransitionInput.selects at hsel
    exact beq_iff_eq.mp (Bool.and_eq_true _ _ ▸ hsel).1
  refine ⟨hlease ▸ h'.leaseOld r₀ hm, fun r hr e => ?_⟩
  rw [(h'.lease r hr r₀ hm (e.trans hlease.symm)).2.2]
  exact hs r₀ hm hsel

/-- **The quota store invariant**, in every state reachable by complete transactions over any
    users, resources, windows, request ids and limits:

    * each bucket's counters are the sums its ledger rows record, non-negative and within its
      limit, and the rows of one lease have one status;
    * a row that is committed or released keeps that status whatever follows;
    * repeating a settled transition, in any order of targets, answers the same at once, and at
      any later time leaves the tables as they are. -/
theorem quota_store_invariant (users : List UserRow) (ops : List QuotaAction) :
    let db := Machine.run step (initial users) ops
    (∀ b ∈ db.buckets,
      b.reservedUnits = ((db.ledger.filter fun r =>
        r.bucketId == b.id && r.status == .reserved).map (·.units)).sum ∧
      b.committedUnits = ((db.ledger.filter fun r =>
        r.bucketId == b.id && r.status == .committed).map (·.units)).sum ∧
      0 ≤ b.reservedUnits ∧ 0 ≤ b.committedUnits ∧
      b.reservedUnits + b.committedUnits ≤ b.limitValue) ∧
    (∀ r ∈ db.ledger, ∀ r' ∈ db.ledger, r.leaseId = r'.leaseId → r.status = r'.status) ∧
    (∀ r ∈ db.ledger, r.status ≠ .reserved → ∀ more : List QuotaAction,
      ∀ r' ∈ (Machine.run step db more).ledger, r'.id = r.id → r'.status = r.status) ∧
    (∀ (input : TransitionInput) (target : QuotaTarget) (res : QuotaReservation) (db' : QuotaDb),
      transitionQuotaReservation db input target = .ok (res, db') →
      (∀ (target' : QuotaTarget) (reason' : Option String),
        transitionQuotaReservation db' { input with reason := reason' } target' = .ok (res, db')) ∧
      ∀ (more : List QuotaAction) (again : TransitionInput) (target' : QuotaTarget),
        again.leaseId = input.leaseId →
        Machine.commit (Machine.run step db' more)
          (transitionQuotaReservation (Machine.run step db' more) again target') =
            Machine.run step db' more) := by
  intro db
  have h : Sound db := sound_run users ops
  refine ⟨fun b hb => ?_, fun r hr r' hr' e => (h.lease r hr r' hr' e).2.2,
    fun r hr hs more => settled_run h hr hs more, fun input target res db' hok => ⟨?_, ?_⟩⟩
  · obtain ⟨_, _, h1, h2, h3⟩ := BucketRow.check_iff.mp (h.accounts.checks b hb)
    exact ⟨h.accounts.reserved b hb, h.accounts.committed b hb, h1, h2, h3⟩
  · exact transition_again h.accounts hok
  · intro more again target' e
    obtain ⟨hn, hs⟩ := transition_settles_lease h hok
    have hlater := settledLease_run (h.transition hok) hn hs more
    have hsel : ∀ r ∈ (Machine.run step db' more).ledger, again.selects r = true →
        r.status ≠ .reserved := fun r hr hsel => by
      refine hlater r hr ?_
      unfold TransitionInput.selects at hsel
      rw [← e]
      exact beq_iff_eq.mp (Bool.and_eq_true _ _ ▸ hsel).1
    rw [transition_settled hsel]
    refine Machine.commit_eq fun res' db'' hok' => ?_
    split at hok'
    · cases hok'
    · cases hread : reservationFromRows (Machine.run step db' more)
        (transitionRows again (Machine.run step db' more).ledger) true with
      | error e => rw [hread] at hok'; cases hok'
      | ok res'' =>
        rw [hread] at hok'
        injection hok' with e'
        exact (Prod.mk.inj e').2.symm

end Ordered

end OpenVac.Quota
