/-
  File:      OpenVac/Quota/Lease.lean
  Subject:   The quota store as the other stores use it: one lease, and how it may move.

  * `LeaseIs db leaseId s` -- the lease exists and every ledger row of it has status `s`.
  * `Advance db db'` -- what `reserve`, `commit` and `release` (and nothing that deletes rows)
    do to the tables as a whole.
  * `leaseIs_advance` -- a settled lease stays as it is under every advance.
  * `leaseIs_transition` -- a transition that answers with a settled status has settled the
    whole lease.
  * `transition_succeeds` -- a transition of a reserved lease never fails: the counters cover
    every reserved row; `leases_settle`.
-/
import OpenVac.Quota.Invariant

namespace OpenVac.Quota

open Rows

/-- The lease exists, and all of its ledger rows have status `s`. -/
def LeaseIs (db : QuotaDb) (leaseId : Nat) (s : QuotaReservationStatus) : Prop :=
  (∃ r ∈ db.ledger, r.leaseId = leaseId) ∧ ∀ r ∈ db.ledger, r.leaseId = leaseId → r.status = s

/-- A move of the quota tables that keeps the invariant and drops no lease. -/
structure Advance (db db' : QuotaDb) : Prop where
  sound : Sound db'
  successor : Successor db db'
  keeps : ∀ r ∈ db.ledger, ∃ r' ∈ db'.ledger, r'.leaseId = r.leaseId

theorem Advance.refl {db : QuotaDb} (h : Sound db) : Advance db db :=
  ⟨h, Successor.refl db, fun r hr => ⟨r, hr, rfl⟩⟩

/-- **A settled lease stays as it is.** -/
theorem leaseIs_advance {db db' : QuotaDb} (h : Sound db) {leaseId : Nat}
    {s : QuotaReservationStatus} (hs : s ≠ .reserved) (hl : LeaseIs db leaseId s)
    (ha : Advance db db') : LeaseIs db' leaseId s := by
  obtain ⟨⟨r₀, hr₀, e₀⟩, hall⟩ := hl
  constructor
  · obtain ⟨r', hr', e'⟩ := ha.keeps r₀ hr₀
    exact ⟨r', hr', e'.trans e₀⟩
  · intro r' hr' e
    rcases ha.successor.2 r' hr' with ⟨r, hr, _, el, hst⟩ | ⟨_, hnew⟩
    · have hrs := hall r hr (el ▸ e)
      rcases hst with hst | hst
      · exact absurd (hrs.symm.trans hst) hs
      · exact hst.trans hrs
    · -- a lease that exists is older than every row inserted since
      have := h.leaseOld r₀ hr₀
      omega

theorem aggregateStatus_settled {rows : List LedgerRow} {s : QuotaReservationStatus}
    (hs : s ≠ .reserved) (h : aggregateStatus rows = s) : ∀ r ∈ rows, r.status = s := by
  unfold aggregateStatus at h
  split at h
  · next hall =>
      subst h
      exact fun r hr => beq_iff_eq.mp (List.all_eq_true.mp hall r hr)
  · split at h
    · next hall =>
        subst h
        exact fun r hr => beq_iff_eq.mp (List.all_eq_true.mp hall r hr)
    · exact absurd h.symm hs

section Ordered

variable [Collation]

theorem advance_transition {db db' : QuotaDb} (h : Sound db) {input : TransitionInput}
    {target : QuotaTarget} {res : QuotaReservation}
    (hok : transitionQuotaReservation db input target = .ok (res, db')) : Advance db db' := by
  refine ⟨h.transition hok, successor_transition h.accounts hok, fun r hr => ?_⟩
  obtain ⟨_, _, _, hl, _⟩ := transition_ok h.accounts hok
  rw [hl]
  refine ⟨_, mem_updateWhere_of_mem hr, ?_⟩
  split <;> rfl

/-- The actions of the store that delete nothing. -/
def QuotaAction.keepsLedger : QuotaAction → Bool
  | .reserve .. | .commit _ | .release _ => true
  | .prepareUserDeletion .. => false

theorem advance_step {db : QuotaDb} (h : Sound db) {a : QuotaAction} (ha : a.keepsLedger = true) :
    Advance db (step db a) := by
  cases a with
  | reserve now input =>
    refine ⟨sound_step db _ h, successor_step h _, fun r hr => ?_⟩
    refine ⟨r, ?_, rfl⟩
    show r ∈ (Machine.commit db (reserve db now input)).ledger
    rcases Machine.commit_cases db (reserve db now input) with e | ⟨res, db', hok, e⟩
    · rw [e]
      exact hr
    · rw [e]
      rcases reserve_ok h.accounts hok with ⟨rfl, _⟩ | ⟨rows, _, hres, _⟩
      · exact hr
      · have hl : db'.ledger = db.ledger ++ rows := hres.ledger
        rw [hl]
        exact List.mem_append_left _ hr
  | commit input =>
    exact Machine.commit_preserves (Advance.refl h) fun res db' hok => advance_transition h hok
  | release input =>
    exact Machine.commit_preserves (Advance.refl h) fun res db' hok => advance_transition h hok
  | prepareUserDeletion userId roles now => cases ha

/-- **A transition that answers `s` has left the whole lease at `s`.** -/
theorem leaseIs_transition {db db' : QuotaDb} (h : Sound db) {input : TransitionInput}
    {target : QuotaTarget} {res : QuotaReservation}
    (hok : transitionQuotaReservation db input target = .ok (res, db')) {s : QuotaReservationStatus}
    (hs : s ≠ .reserved) (hres : res.status = s) : LeaseIs db' input.leaseId s := by
  have h' := h.transition hok
  obtain ⟨_, _, _, _, hread⟩ := transition_ok h.accounts hok
  cases hrows : transitionRows input db'.ledger with
  | nil => rw [hrows] at hread; cases hread
  | cons r₀ rows =>
    rw [hrows] at hread
    injection hread with e
    have hagg : aggregateStatus (r₀ :: rows) = s := by rw [← hres, ← e]
    have hr₀ : r₀ ∈ transitionRows input db'.ledger := by
      rw [hrows]
      exact List.mem_cons_self
    obtain ⟨hm, hsel⟩ := mem_transitionRows.mp hr₀
    have hlease : r₀.leaseId = input.leaseId := by
      unfold TransitionInput.selects at hsel
      exact beq_iff_eq.mp (Bool.and_eq_true _ _ ▸ hsel).1
    refine ⟨⟨r₀, hm, hlease⟩, fun r hr e => ?_⟩
    rw [(h'.lease r hr r₀ hm (e.trans hlease.symm)).2.2]
    exact aggregateStatus_settled hs hagg r₀ List.mem_cons_self

end Ordered

/-! ## A reserved lease can be settled -/

/-- **A row of the ledger can be settled**: its bucket's counters cover its units. -/
theorem settleRow_succeeds {db : QuotaDb} (h : Accounts db) (target : QuotaTarget)
    (reason : String) {row : LedgerRow} (hr : row ∈ db.ledger) :
    ∃ db', settleRow target reason db row = .ok db' := by
  unfold settleRow
  by_cases hs : row.status = .reserved
  · have hcheck : ((db.buckets.filter fun b => b.id == row.bucketId).all fun b =>
        ({ b with
            reservedUnits := b.reservedUnits - row.units
            committedUnits :=
              if target = .committed then b.committedUnits + row.units else b.committedUnits } :
          BucketRow).check) = true := by
      refine List.all_eq_true.mpr fun b hb => ?_
      obtain ⟨hb, hid⟩ := List.mem_filter.mp hb
      rw [beq_iff_eq] at hid
      obtain ⟨hint, hlimit, hres, hcom, hsum⟩ := BucketRow.check_iff.mp (h.checks b hb)
      have hcover : row.units ≤ b.reservedUnits := by
        rw [h.reserved b hb]
        refine le_sumWhere (fun r hr => (h.units r hr).le) hr ?_
        rw [hs, hid]
        simp
      have hpos := h.units row hr
      refine BucketRow.check_iff.mpr ⟨hint, hlimit, ?_, ?_, ?_⟩
      · simp only
        omega
      · simp only
        split <;> omega
      · simp only
        split <;> omega
    rw [if_neg (not_not.mpr hs)]
    unfold QuotaDb.updateBucket
    rw [if_pos hcheck]
    exact ⟨_, rfl⟩
  · rw [if_pos hs]
    exact ⟨db, rfl⟩

/-- Settling one row keeps the rows with another id. -/
theorem settleRow_keeps {db db' : QuotaDb} {target : QuotaTarget} {reason : String}
    {row r : LedgerRow} (h : settleRow target reason db row = .ok db') (hr : r ∈ db.ledger)
    (hne : r.id ≠ row.id) : r ∈ db'.ledger := by
  rcases settleRow_ok h with ⟨_, rfl⟩ | ⟨_, _, rfl⟩
  · exact hr
  · have hmem := mem_updateWhere_of_mem (p := fun r => r.id == row.id)
      (f := LedgerRow.settle target reason) hr
    rw [if_neg (by simpa using hne)] at hmem
    exact hmem

/-- So can the rows of a transition, one after the other. -/
theorem settleRows_succeed {db : QuotaDb} (h : Accounts db) (target : QuotaTarget)
    (reason : String) {rows : List LedgerRow} (hm : ∀ r ∈ rows, r ∈ db.ledger)
    (hn : UniqueOn (·.id) rows) : ∃ db', rows.foldlM (settleRow target reason) db = .ok db' := by
  induction rows generalizing db with
  | nil => exact ⟨db, rfl⟩
  | cons row rows ih =>
    obtain ⟨hnew, hn'⟩ := List.nodup_cons.mp hn
    have hrow : row ∈ db.ledger := hm row List.mem_cons_self
    obtain ⟨db₁, h1⟩ := settleRow_succeeds h target reason hrow
    have hkeep : ∀ r ∈ rows, r ∈ db₁.ledger := fun r hr =>
      settleRow_keeps h1 (hm r (List.mem_cons_of_mem _ hr))
        fun e => hnew (List.mem_map.mpr ⟨r, hr, e⟩)
    obtain ⟨db', h2⟩ := ih (accounts_settleRow h hrow h1) hkeep hn'
    refine ⟨db', ?_⟩
    rw [List.foldlM_cons]
    exact Except.bind_ok_iff.mpr ⟨db₁, h1, h2⟩

theorem aggregateStatus_eq {rows : List LedgerRow} (hne : rows ≠ []) {target : QuotaTarget}
    (h : ∀ r ∈ rows, r.status = target.status) : aggregateStatus rows = target.status := by
  unfold aggregateStatus
  cases target with
  | committed =>
    rw [if_pos (List.all_eq_true.mpr fun r hr => by rw [h r hr]; rfl)]
    rfl
  | released =>
    obtain ⟨r, hr⟩ := List.exists_mem_of_ne_nil rows hne
    have hnot : ¬ (rows.all fun row => row.status == .committed) = true := by
      intro hall
      have hr' := List.all_eq_true.mp hall r hr
      rw [h r hr] at hr'
      exact absurd hr' (by decide)
    rw [if_neg hnot, if_pos (List.all_eq_true.mpr fun r hr => by rw [h r hr]; rfl)]
    rfl

section Succeeds

variable [Collation]

theorem transitionRows_unique {db : QuotaDb} (h : Accounts db) (input : TransitionInput) :
    UniqueOn (·.id) (transitionRows input db.ledger) := by
  have hp := ((sortByScope_perm LedgerRow.scope _).trans
    (orderByScope_perm (db.ledger.filter input.selects))).map LedgerRow.id
  exact hp.nodup_iff.mpr
    (List.Nodup.sublist (List.Sublist.map _ List.filter_sublist) h.ledgerIds)

omit [Collation] in
theorem TransitionInput.selects_lease {input : TransitionInput} {r : LedgerRow}
    (h : input.selects r = true) : r.leaseId = input.leaseId := by
  unfold TransitionInput.selects at h
  exact beq_iff_eq.mp (Bool.and_eq_true _ _ ▸ h).1

/-- What a settling leaves of a ledger row, seen from after it. -/
theorem transition_stem {db db' : QuotaDb} (h : Accounts db) {input : TransitionInput}
    {target : QuotaTarget} {res : QuotaReservation}
    (hok : transitionQuotaReservation db input target = .ok (res, db')) :
    ∀ r' ∈ db'.ledger, ∃ r ∈ db.ledger, r'.leaseId = r.leaseId ∧ r'.resource = r.resource ∧
      r'.actorUserId = r.actorUserId ∧ (r'.status = .reserved → r.status = .reserved) ∧
      (r.status = .reserved → input.selects r = true → r'.status = target.status) := by
  intro r' hr'
  obtain ⟨_, _, _, hl, _⟩ := transition_ok h hok
  rw [hl] at hr'
  obtain ⟨r, hr, rfl⟩ := mem_updateWhere.mp hr'
  refine ⟨r, hr, ?_⟩
  split
  · next hsel =>
      rw [Bool.and_eq_true, beq_iff_eq] at hsel
      exact ⟨rfl, rfl, rfl, fun _ => hsel.1, fun _ _ => rfl⟩
  · next hsel =>
      refine ⟨rfl, rfl, rfl, fun hs => hs, fun hs hin => ?_⟩
      rw [hs, hin] at hsel
      exact absurd rfl hsel

/-- The rows a transition leaves reserved are untouched, and so are the other leases. -/
theorem transition_rest {db db' : QuotaDb} (h : Accounts db) {input : TransitionInput}
    {target : QuotaTarget} {res : QuotaReservation}
    (hok : transitionQuotaReservation db input target = .ok (res, db')) :
    (∀ r ∈ db'.ledger, r.status = .reserved → r ∈ db.ledger) ∧
      ∀ r ∈ db.ledger, r.leaseId ≠ input.leaseId → r ∈ db'.ledger := by
  obtain ⟨-, -, -, hledger, -⟩ := transition_ok h hok
  rw [hledger]
  constructor
  · intro r hr hs
    obtain ⟨r₀, hr₀, e⟩ := mem_updateWhere.mp hr
    split at e
    · rw [e] at hs
      cases target <;> nomatch hs
    · rw [e]
      exact hr₀
  · intro r hr hne
    refine mem_updateWhere.mpr ⟨r, hr, (if_neg fun hsel => hne ?_).symm⟩
    rw [Bool.and_eq_true] at hsel
    exact TransitionInput.selects_lease hsel.2

/-- **A transition of a reserved lease succeeds**, and answers with the target. -/
theorem transition_succeeds {db : QuotaDb} (h : Sound db) {input : TransitionInput}
    (target : QuotaTarget) {q : LedgerRow} (hq : q ∈ db.ledger) (hsel : input.selects q = true)
    (hs : q.status = .reserved) :
    ∃ res db', transitionQuotaReservation db input target = .ok (res, db') ∧
      res.resource = q.resource ∧ res.status = target.status := by
  have hrows : q ∈ transitionRows input db.ledger := mem_transitionRows.mpr ⟨hq, hsel⟩
  obtain ⟨db', hfold⟩ := settleRows_succeed h.accounts target
    (input.reason.getD "operation_failed")
    (fun r hr => (mem_transitionRows.mp hr).1) (transitionRows_unique h.accounts input)
  obtain ⟨-, -, -, hl⟩ := settleRows_ok h.accounts (fun r hr => (mem_transitionRows.mp hr).1)
    (transitionRows_unique h.accounts input) hfold
  -- the row is selected again afterwards, so there is something to answer from
  have hafter : transitionRows input db'.ledger ≠ [] := by
    have hmem : (if (q.status == .reserved &&
        ((transitionRows input db.ledger).map (·.id)).contains q.id) = true
        then LedgerRow.settle target (input.reason.getD "operation_failed") q else q) ∈
          db'.ledger := by
      rw [hl]
      exact mem_updateWhere_of_mem hq
    refine List.ne_nil_of_mem (mem_transitionRows.mpr ⟨hmem, ?_⟩)
    split <;> exact hsel
  obtain ⟨first, rest, hcons⟩ := List.exists_cons_of_ne_nil hafter
  obtain ⟨res, hread, hres, hstatus⟩ : ∃ res,
      reservationFromRows db' (transitionRows input db'.ledger) true = .ok res ∧
        res.resource = first.resource ∧
        res.status = aggregateStatus (transitionRows input db'.ledger) := by
    rw [hcons]
    exact ⟨_, rfl, rfl, rfl⟩
  have hok : transitionQuotaReservation db input target = .ok (res, db') := by
    unfold transitionQuotaReservation
    rw [if_neg (by
      show ¬ (transitionRows input db.ledger).length = 0
      exact fun e => List.ne_nil_of_mem hrows (List.length_eq_zero_iff.mp e))]
    exact Except.bind_ok_iff.mpr ⟨db', hfold, Except.bind_ok_iff.mpr ⟨res, hread, rfl⟩⟩
  have hfirst : first ∈ transitionRows input db'.ledger := by
    rw [hcons]
    exact List.mem_cons_self
  refine ⟨res, db', hok, ?_, ?_⟩
  · obtain ⟨r, hr, e1, e2, -⟩ := transition_stem h.accounts hok first
      (mem_transitionRows.mp hfirst).1
    have hlease : r.leaseId = q.leaseId := by
      rw [← e1, TransitionInput.selects_lease (mem_transitionRows.mp hfirst).2,
        TransitionInput.selects_lease hsel]
    rw [hres, e2]
    exact (h.lease r hr q hq hlease).2.1
  · rw [hstatus]
    refine aggregateStatus_eq hafter fun r' hr' => ?_
    obtain ⟨hmem, hsel'⟩ := mem_transitionRows.mp hr'
    obtain ⟨r, hr, e1, -, e3, -, e5⟩ := transition_stem h.accounts hok r' hmem
    have hlease : r.leaseId = q.leaseId := by
      rw [← e1, TransitionInput.selects_lease hsel', TransitionInput.selects_lease hsel]
    obtain ⟨hactor, -, hsame⟩ := h.lease r hr q hq hlease
    refine e5 (hsame.trans hs) ?_
    rw [input.selects_congr hlease hactor]
    exact hsel

/-- **A reserved lease can be committed and released**, as a whole, in every reachable state; a
    transition leaves the other leases as they are. -/
theorem leases_settle (users : List UserRow) (ops : List QuotaAction) (input : TransitionInput)
    (target : QuotaTarget) :
    let db := Machine.run step (initial users) ops
    (∀ q ∈ db.ledger, input.selects q = true → q.status = .reserved →
      ∃ res db', transitionQuotaReservation db input target = .ok (res, db') ∧
        res.status = target.status ∧ LeaseIs db' input.leaseId target.status) ∧
    ∀ res db', transitionQuotaReservation db input target = .ok (res, db') →
      ∀ r ∈ db.ledger, r.leaseId ≠ input.leaseId → r ∈ db'.ledger := by
  intro db
  have h : Sound db := sound_run users ops
  refine ⟨fun q hq hsel hs => ?_, fun res db' hok => (transition_rest h.accounts hok).2⟩
  obtain ⟨res, db', hok, -, hstatus⟩ := transition_succeeds h target hq hsel hs
  exact ⟨res, db', hok, hstatus,
    leaseIs_transition h hok (by cases target <;> simp) hstatus⟩

end Succeeds

end OpenVac.Quota
