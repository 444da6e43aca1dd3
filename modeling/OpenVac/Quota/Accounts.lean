/-
  File:      OpenVac/Quota/Accounts.lean
  Subject:   What one statement pair of the quota store does to its accounts.

  * `Accounts db` -- the invariant of the tables row by row: keys, foreign key, CHECKs, and the
    two counters of every bucket as sums over its ledger rows.
  * `accounts_insertBucket`, `accounts_reconcileBucket`, `accounts_debit`, `accounts_settleRow`
    -- each step of `reserve` and of a transition keeps it, in the pairs the source writes them
    in (bucket first, then ledger row).
  * `accounts_deleteBuckets` -- the cascade of `prepareUserDeletion` keeps it.
-/
import OpenVac.Quota.Repository

namespace OpenVac.Quota

open Rows

/-- The reserved units a ledger records for a bucket. -/
def reservedIn (ledger : List LedgerRow) (bucketId : Nat) : Int :=
  sumWhere (fun r => r.bucketId == bucketId && r.status == .reserved) (·.units) ledger

/-- The committed units a ledger records for a bucket. -/
def committedIn (ledger : List LedgerRow) (bucketId : Nat) : Int :=
  sumWhere (fun r => r.bucketId == bucketId && r.status == .committed) (·.units) ledger

/-- **The accounts**: keys, foreign key, CHECK constraints, and counters that are sums. -/
structure Accounts (db : QuotaDb) : Prop where
  bucketIds : UniqueOn (·.id) db.buckets
  ledgerIds : UniqueOn (·.id) db.ledger
  bucketOld : ∀ b ∈ db.buckets, b.id < db.nextId
  rowOld : ∀ r ∈ db.ledger, r.id < db.nextId
  foreignKey : ∀ r ∈ db.ledger, ∃ b ∈ db.buckets, b.id = r.bucketId
  checks : ∀ b ∈ db.buckets, b.check = true
  units : ∀ r ∈ db.ledger, 0 < r.units
  reserved : ∀ b ∈ db.buckets, b.reservedUnits = reservedIn db.ledger b.id
  committed : ∀ b ∈ db.buckets, b.committedUnits = committedIn db.ledger b.id

theorem BucketRow.check_iff {b : BucketRow} : b.check = true ↔
    isInt4 b.limitValue = true ∧ 0 < b.limitValue ∧ 0 ≤ b.reservedUnits ∧
      0 ≤ b.committedUnits ∧ b.reservedUnits + b.committedUnits ≤ b.limitValue := by
  simp only [BucketRow.check, Bool.and_eq_true, decide_eq_true_eq, and_assoc]

theorem accounts_initial (users : List UserRow) : Accounts (initial users) where
  bucketIds := UniqueOn.nil _
  ledgerIds := UniqueOn.nil _
  bucketOld _ h := absurd h List.not_mem_nil
  rowOld _ h := absurd h List.not_mem_nil
  foreignKey _ h := absurd h List.not_mem_nil
  checks _ h := absurd h List.not_mem_nil
  units _ h := absurd h List.not_mem_nil
  reserved _ h := absurd h List.not_mem_nil
  committed _ h := absurd h List.not_mem_nil

/-- The user table and a larger id counter do not matter to the accounts. -/
theorem Accounts.congr {db db' : QuotaDb} (h : Accounts db) (hb : db'.buckets = db.buckets)
    (hl : db'.ledger = db.ledger) (hn : db.nextId ≤ db'.nextId) : Accounts db' where
  bucketIds := by rw [hb]; exact h.bucketIds
  ledgerIds := by rw [hl]; exact h.ledgerIds
  bucketOld b hm := Nat.lt_of_lt_of_le (h.bucketOld b (hb ▸ hm)) hn
  rowOld r hm := Nat.lt_of_lt_of_le (h.rowOld r (hl ▸ hm)) hn
  foreignKey := by rw [hb, hl]; exact h.foreignKey
  checks := by rw [hb]; exact h.checks
  units := by rw [hl]; exact h.units
  reserved := by rw [hb, hl]; exact h.reserved
  committed := by rw [hb, hl]; exact h.committed

/-! ## 1. The statements -/

/-- **What a successful bucket update does**, and that every row it wrote met its CHECK. -/
theorem updateBucket_ok {db db' : QuotaDb} {id : Nat} {f : BucketRow → BucketRow}
    (h : db.updateBucket id f = .ok db') :
    db' = { db with buckets := updateWhere (fun b => b.id == id) f db.buckets } ∧
      ∀ b ∈ db.buckets, b.id = id → (f b).check = true := by
  unfold QuotaDb.updateBucket at h
  split at h
  · next hall =>
      injection h with h
      refine ⟨h.symm, fun b hb e => ?_⟩
      rw [List.all_eq_true] at hall
      exact hall b (List.mem_filter.mpr ⟨hb, by rw [e]; exact beq_self_eq_true id⟩)
  · cases h

/-- **What a successful bucket insert does**: nothing, or a new bucket with empty counters. -/
theorem insertBucket_ok {db db' : QuotaDb} {input : ReserveInput} {scope : QuotaScopePolicy}
    (h : db.insertBucket input scope = .ok db') :
    db' = db ∨ ∃ row : BucketRow, row.id = db.nextId ∧ row.reservedUnits = 0 ∧
      row.committedUnits = 0 ∧ row.check = true ∧
      db' = { db with buckets := db.buckets ++ [row], nextId := db.nextId + 1 } := by
  unfold QuotaDb.insertBucket at h
  simp only at h
  split at h
  · next hc =>
      split at h
      · injection h with h
        exact Or.inl h.symm
      · injection h with h
        exact Or.inr ⟨_, rfl, rfl, rfl, hc, h.symm⟩
  · cases h

/-- **What a successful ledger insert does.** -/
theorem insertLedgerRow_ok {db db' : QuotaDb} {row : LedgerRow}
    (h : db.insertLedgerRow row = .ok db') :
    db' = { db with ledger := db.ledger ++ [row], nextId := db.nextId + 1 } ∧ 0 < row.units := by
  unfold QuotaDb.insertLedgerRow at h
  split at h
  · next hc =>
      split at h
      · cases h
      · injection h with h
        refine ⟨h.symm, ?_⟩
        simp only [LedgerRow.check, Bool.and_eq_true, decide_eq_true_eq] at hc
        exact hc.2
  · cases h

/-! ## 2. `reserve` -/

/-- A new bucket has no ledger rows, so its empty counters are right. -/
theorem accounts_insertBucket {db db' : QuotaDb} (h : Accounts db) {input : ReserveInput}
    {scope : QuotaScopePolicy} (hi : db.insertBucket input scope = .ok db') : Accounts db' := by
  rcases insertBucket_ok hi with rfl | ⟨row, hid, hr, hc, hcheck, rfl⟩
  · exact h
  · have hnone : ∀ r ∈ db.ledger, (r.bucketId == row.id) = false := fun r hr' => by
      obtain ⟨b, hb, e⟩ := h.foreignKey r hr'
      have hlt := h.bucketOld b hb
      refine beq_false_of_ne fun e' => ?_
      omega
    have hsum : ∀ (s : QuotaReservationStatus), sumWhere
        (fun r : LedgerRow => r.bucketId == row.id && r.status == s) (·.units) db.ledger = 0 :=
      fun s => sumWhere_eq_zero fun r hr' => by rw [hnone r hr']; rfl
    constructor
    · exact h.bucketIds.append_one fun b hb e => by
        have := h.bucketOld b hb
        omega
    · exact h.ledgerIds
    · intro b hb
      rcases List.mem_append.mp hb with hb | hb
      · exact Nat.lt_succ_of_lt (h.bucketOld b hb)
      · rw [List.mem_singleton.mp hb, hid]
        exact Nat.lt_succ_self _
    · exact fun r hr' => Nat.lt_succ_of_lt (h.rowOld r hr')
    · intro r hr'
      obtain ⟨b, hb, e⟩ := h.foreignKey r hr'
      exact ⟨b, List.mem_append_left _ hb, e⟩
    · intro b hb
      rcases List.mem_append.mp hb with hb | hb
      · exact h.checks b hb
      · rw [List.mem_singleton.mp hb]
        exact hcheck
    · exact h.units
    · intro b hb
      rcases List.mem_append.mp hb with hb | hb
      · exact h.reserved b hb
      · rw [List.mem_singleton.mp hb, hr]
        exact (hsum _).symm
    · intro b hb
      rcases List.mem_append.mp hb with hb | hb
      · exact h.committed b hb
      · rw [List.mem_singleton.mp hb, hc]
        exact (hsum _).symm

/-- **A bucket update paired with a ledger change keeps the accounts** when the keys stay, the
    rows keep their bucket and their (positive) units, and every bucket's counters move as the
    sums over the new ledger do. -/
theorem accounts_update {db : QuotaDb} (h : Accounts db) {id : Nat} {f : BucketRow → BucketRow}
    {ledger : List LedgerRow} {nextId : Nat} (hf : ∀ b, (f b).id = b.id)
    (hcheck : ∀ b ∈ db.buckets, b.id = id → (f b).check = true)
    (hids : UniqueOn (·.id) ledger) (hold : ∀ r ∈ ledger, r.id < nextId)
    (hle : db.nextId ≤ nextId)
    (hrows : ∀ r ∈ ledger, 0 < r.units ∧ ∃ b ∈ db.buckets, b.id = r.bucketId)
    (hother : ∀ b ∈ db.buckets, b.id ≠ id →
      reservedIn ledger b.id = reservedIn db.ledger b.id ∧
        committedIn ledger b.id = committedIn db.ledger b.id)
    (hthis : ∀ b ∈ db.buckets, b.id = id →
      (f b).reservedUnits = reservedIn ledger b.id ∧
        (f b).committedUnits = committedIn ledger b.id) :
    Accounts { db with
      buckets := updateWhere (fun b => b.id == id) f db.buckets, ledger, nextId } := by
  -- the rows of the new bucket table, case by case
  have hcase : ∀ b ∈ updateWhere (fun b : BucketRow => b.id == id) f db.buckets,
      (b ∈ db.buckets ∧ b.id ≠ id) ∨ ∃ b₀ ∈ db.buckets, b₀.id = id ∧ b = f b₀ := by
    intro b hb
    obtain ⟨b₀, hb₀, rfl⟩ := mem_updateWhere.mp hb
    by_cases e : b₀.id = id
    · exact Or.inr ⟨b₀, hb₀, e, by rw [if_pos (by rw [e]; exact beq_self_eq_true id)]⟩
    · left
      rw [if_neg (by simpa using e)]
      exact ⟨hb₀, e⟩
  constructor
  · exact h.bucketIds.updateWhere hf
  · exact hids
  · intro b hb
    rcases hcase b hb with ⟨hb, _⟩ | ⟨b₀, hb₀, _, rfl⟩
    · exact Nat.lt_of_lt_of_le (h.bucketOld b hb) hle
    · rw [hf]
      exact Nat.lt_of_lt_of_le (h.bucketOld b₀ hb₀) hle
  · exact hold
  · intro r hr
    obtain ⟨b, hb, e⟩ := (hrows r hr).2
    refine ⟨_, mem_updateWhere_of_mem hb, ?_⟩
    rw [← e]
    split
    · exact hf b
    · rfl
  · intro b hb
    rcases hcase b hb with ⟨hb, _⟩ | ⟨b₀, hb₀, e, rfl⟩
    · exact h.checks b hb
    · exact hcheck b₀ hb₀ e
  · exact fun r hr => (hrows r hr).1
  · intro b hb
    rcases hcase b hb with ⟨hb, e⟩ | ⟨b₀, hb₀, e, rfl⟩
    · exact (h.reserved b hb).trans (hother b hb e).1.symm
    · rw [hf]
      exact (hthis b₀ hb₀ e).1
  · intro b hb
    rcases hcase b hb with ⟨hb, e⟩ | ⟨b₀, hb₀, e, rfl⟩
    · exact (h.committed b hb).trans (hother b hb e).2.symm
    · rw [hf]
      exact (hthis b₀ hb₀ e).2

/-- Moving a limit leaves every counter and every ledger row alone. -/
theorem accounts_reconcileBucket {db db' : QuotaDb} (h : Accounts db) {scope : QuotaScopePolicy}
    {existing bucket : BucketRow} (he : existing ∈ db.buckets)
    (hr : reconcileBucket db scope existing = .ok (bucket, db')) :
    Accounts db' ∧ bucket ∈ db'.buckets ∧ db'.users = db.users ∧ db'.ledger = db.ledger ∧
      db'.nextId = db.nextId := by
  unfold reconcileBucket at hr
  simp only at hr
  split at hr
  · obtain ⟨db₁, hu, e⟩ := Except.bind_ok_iff.mp hr
    injection e with e
    obtain ⟨rfl, rfl⟩ := Prod.mk.inj e
    obtain ⟨rfl, hcheck⟩ := updateBucket_ok hu
    refine ⟨?_, ?_, rfl, rfl, rfl⟩
    · exact accounts_update h (fun _ => rfl) hcheck h.ledgerIds h.rowOld (Nat.le_refl _)
        (fun r hr => ⟨h.units r hr, h.foreignKey r hr⟩) (fun _ _ _ => ⟨rfl, rfl⟩)
        (fun b hb _ => ⟨h.reserved b hb, h.committed b hb⟩)
    · refine mem_updateWhere.mpr ⟨existing, he, ?_⟩
      rw [if_pos (beq_self_eq_true existing.id)]
  · injection hr with e
    obtain ⟨rfl, rfl⟩ := Prod.mk.inj e
    exact ⟨h, he, rfl, rfl, rfl⟩

/-- **A debit and its ledger row**: the bucket's reserved counter and the row carry the same
    units. -/
theorem accounts_debit {db db₁ db' : QuotaDb} (h : Accounts db) {now : Int} {input : ReserveInput}
    {leaseId : Nat} {scope : QuotaScopePolicy} {bucket : BucketRow} (hb : bucket ∈ db.buckets)
    (hd : debitBucket db input scope bucket = .ok db₁)
    (hl : db₁.insertLedgerRow (ledgerRowFor now input leaseId scope db₁.nextId bucket.id) =
      .ok db') :
    Accounts db' ∧ db'.users = db.users ∧ db₁.nextId = db.nextId ∧ db'.nextId = db.nextId + 1 ∧
      db'.ledger = db.ledger ++ [ledgerRowFor now input leaseId scope db₁.nextId bucket.id] := by
  unfold debitBucket at hd
  simp only at hd
  split at hd
  · split at hd
    · obtain ⟨rfl, hcheck⟩ := updateBucket_ok hd
      obtain ⟨rfl, hpos⟩ := insertLedgerRow_ok hl
      refine ⟨?_, rfl, rfl, rfl, rfl⟩
      refine accounts_update h (fun _ => rfl) hcheck ?_ ?_ (Nat.le_succ _) ?_ ?_ ?_
      · exact h.ledgerIds.append_one fun r hr e => by
          have h1 := h.rowOld r hr
          have h2 : r.id = db.nextId := e
          omega
      · intro r hr
        rcases List.mem_append.mp hr with hr | hr
        · exact Nat.lt_succ_of_lt (h.rowOld r hr)
        · rw [List.mem_singleton.mp hr]
          exact Nat.lt_succ_self db.nextId
      · intro r hr
        rcases List.mem_append.mp hr with hr | hr
        · exact ⟨h.units r hr, h.foreignKey r hr⟩
        · rw [List.mem_singleton.mp hr]
          exact ⟨hpos, bucket, hb, rfl⟩
      · intro b _ e
        have e' : (bucket.id == b.id) = false := beq_false_of_ne fun e' => e e'.symm
        constructor <;>
        · simp only [reservedIn, committedIn]
          rw [sumWhere_append_one]
          simp only [ledgerRowFor, e', Bool.false_and, Bool.false_eq_true, if_false, add_zero]
      · intro b hb' e
        have e' : (bucket.id == b.id) = true := by rw [e]; exact beq_self_eq_true _
        constructor
        · have h1 := h.reserved b hb'
          simp only [reservedIn] at h1 ⊢
          rw [sumWhere_append_one, ← h1]
          simp only [ledgerRowFor, e', Bool.true_and, beq_self_eq_true, if_true]
        · have h1 := h.committed b hb'
          simp only [committedIn] at h1 ⊢
          rw [sumWhere_append_one, ← h1]
          simp [ledgerRowFor]
    · cases hd
  · cases hd

/-! ## 3. Transitions -/

/-- The status and the reason a transition writes into a row. -/
def LedgerRow.settle (target : QuotaTarget) (reason : String) (r : LedgerRow) : LedgerRow :=
  { r with
    status := target.status
    releaseReason := if target = .released then some reason else none }

/-- **What settling one row does.** A row that is not reserved is left alone; for a reserved one
    its bucket loses the reserved units (and gains them as committed), and its status moves. -/
theorem settleRow_ok {target : QuotaTarget} {reason : String} {db db' : QuotaDb}
    {row : LedgerRow} (h : settleRow target reason db row = .ok db') :
    (row.status ≠ .reserved ∧ db' = db) ∨
    (row.status = .reserved ∧
      (∀ b ∈ db.buckets, b.id = row.bucketId →
        ({ b with
            reservedUnits := b.reservedUnits - row.units
            committedUnits :=
              if target = .committed then b.committedUnits + row.units else b.committedUnits } :
          BucketRow).check = true) ∧
      db' =
        { db with
          buckets := updateWhere (fun b => b.id == row.bucketId)
            (fun b =>
              { b with
                reservedUnits := b.reservedUnits - row.units
                committedUnits :=
                  if target = .committed then b.committedUnits + row.units
                  else b.committedUnits })
            db.buckets
          ledger := updateWhere (fun r => r.id == row.id) (LedgerRow.settle target reason)
            db.ledger }) := by
  unfold settleRow at h
  split at h
  · next hs =>
      injection h with h
      exact Or.inl ⟨hs, h.symm⟩
  · next hs =>
      obtain ⟨db₁, hu, e⟩ := Except.bind_ok_iff.mp h
      obtain ⟨rfl, hcheck⟩ := updateBucket_ok hu
      injection e with e
      exact Or.inr ⟨not_not.mp hs, hcheck, e.symm⟩

/-- How the sum over one status moves when a row's status does. -/
theorem sum_settle {db : QuotaDb} (h : Accounts db) {target : QuotaTarget} {reason : String}
    {row : LedgerRow} (hr : row ∈ db.ledger) (hs : row.status = .reserved) (bucketId : Nat)
    (s : QuotaReservationStatus) :
    sumWhere (fun r => r.bucketId == bucketId && r.status == s) (·.units)
        (updateWhere (fun r => r.id == row.id) (LedgerRow.settle target reason) db.ledger) =
      sumWhere (fun r => r.bucketId == bucketId && r.status == s) (·.units) db.ledger -
        (if row.bucketId = bucketId ∧ s = .reserved then row.units else 0) +
        if row.bucketId = bucketId ∧ s = target.status then row.units else 0 := by
  rw [sumWhere_updateWhere_key h.ledgerIds hr]
  have e1 : (row.bucketId == bucketId && row.status == s) = true ↔
      row.bucketId = bucketId ∧ s = .reserved := by
    rw [hs, Bool.and_eq_true, beq_iff_eq, beq_iff_eq, eq_comm (a := QuotaReservationStatus.reserved)]
  have e2 : ((row.settle target reason).bucketId == bucketId &&
      (row.settle target reason).status == s) = true ↔
      row.bucketId = bucketId ∧ s = target.status := by
    simp only [LedgerRow.settle, Bool.and_eq_true, beq_iff_eq,
      eq_comm (a := QuotaTarget.status target)]
  simp only [e1, e2]
  rfl

/-- **Settling a row of the ledger keeps the accounts**: what the bucket loses as reserved is
    what the ledger stops counting as reserved. -/
theorem accounts_settleRow {db db' : QuotaDb} (h : Accounts db) {target : QuotaTarget}
    {reason : String} {row : LedgerRow} (hr : row ∈ db.ledger)
    (hs : settleRow target reason db row = .ok db') : Accounts db' := by
  rcases settleRow_ok hs with ⟨_, rfl⟩ | ⟨hres, hcheck, rfl⟩
  · exact h
  · refine accounts_update h (fun _ => rfl) hcheck (h.ledgerIds.updateWhere fun _ => rfl)
      ?_ (Nat.le_refl _) ?_ ?_ ?_
    · intro r hr'
      have hf : ∀ r, (LedgerRow.settle target reason r).id = r.id := fun _ => rfl
      obtain ⟨r₀, hr₀, e⟩ := mem_updateWhere_stem hf hr'
      rw [e]
      exact h.rowOld r₀ hr₀
    · intro r hr'
      have hu : ∀ r, (LedgerRow.settle target reason r).units = r.units := fun _ => rfl
      have hb : ∀ r, (LedgerRow.settle target reason r).bucketId = r.bucketId := fun _ => rfl
      obtain ⟨r₀, hr₀, e⟩ := mem_updateWhere_stem₂ hu hb hr'
      rw [e.1, e.2]
      exact ⟨h.units r₀ hr₀, h.foreignKey r₀ hr₀⟩
    · intro b _ e
      have e' : row.bucketId ≠ b.id := fun e' => e e'.symm
      constructor <;>
      · simp only [reservedIn, committedIn]
        rw [sum_settle h hr hres]
        simp [e']
    · intro b hb e
      have h1 := h.reserved b hb
      have h2 := h.committed b hb
      simp only [reservedIn, committedIn] at h1 h2 ⊢
      rw [sum_settle h hr hres, sum_settle h hr hres, ← h1, ← h2]
      cases target <;> simp [e]

/-! ## 4. The cascade -/

/-- **Deleting buckets with their ledger rows keeps the accounts**: the surviving buckets'
    rows all survive. -/
theorem accounts_deleteBuckets {db : QuotaDb} (h : Accounts db) (doomed : BucketRow → Bool) :
    Accounts { db with
      buckets := deleteWhere doomed db.buckets
      ledger := deleteWhere
        (fun r => ((db.buckets.filter doomed).map (·.id)).contains r.bucketId) db.ledger } := by
  -- a surviving bucket is not among the deleted ids
  have hsurv : ∀ b ∈ db.buckets, doomed b = false →
      ((db.buckets.filter doomed).map (·.id)).contains b.id = false := by
    intro b hb hd
    rw [← Bool.not_eq_true, List.contains_iff_mem]
    intro hm
    obtain ⟨b', hb', e⟩ := List.mem_map.mp hm
    obtain ⟨hb', hd'⟩ := List.mem_filter.mp hb'
    rw [h.bucketIds.eq hb' hb e, hd] at hd'
    cases hd'
  have hsum : ∀ b ∈ db.buckets, doomed b = false → ∀ s : QuotaReservationStatus,
      sumWhere (fun r => r.bucketId == b.id && r.status == s) (·.units)
          (deleteWhere
            (fun r => ((db.buckets.filter doomed).map (·.id)).contains r.bucketId) db.ledger) =
        sumWhere (fun r => r.bucketId == b.id && r.status == s) (·.units) db.ledger := by
    intro b hb hd s
    refine sumWhere_deleteWhere_same fun r _ e => ?_
    rw [Bool.and_eq_true, beq_iff_eq] at e
    rw [e.1]
    exact hsurv b hb hd
  constructor
  · exact h.bucketIds.deleteWhere _
  · exact h.ledgerIds.deleteWhere _
  · exact fun b hb => h.bucketOld b (mem_deleteWhere.mp hb).1
  · exact fun r hr => h.rowOld r (mem_deleteWhere.mp hr).1
  · intro r hr
    obtain ⟨hr, hd⟩ := mem_deleteWhere.mp hr
    obtain ⟨b, hb, e⟩ := h.foreignKey r hr
    refine ⟨b, mem_deleteWhere.mpr ⟨hb, ?_⟩, e⟩
    cases hdb : doomed b with
    | false => rfl
    | true =>
      have hm : ((db.buckets.filter doomed).map (·.id)).contains r.bucketId = true := by
        rw [List.contains_iff_mem, ← e]
        exact List.mem_map_of_mem (List.mem_filter.mpr ⟨hb, hdb⟩)
      rw [hm] at hd
      cases hd
  · exact fun b hb => h.checks b (mem_deleteWhere.mp hb).1
  · exact fun r hr => h.units r (mem_deleteWhere.mp hr).1
  · intro b hb
    obtain ⟨hb, hd⟩ := mem_deleteWhere.mp hb
    exact (h.reserved b hb).trans (hsum b hb hd .reserved).symm
  · intro b hb
    obtain ⟨hb, hd⟩ := mem_deleteWhere.mp hb
    exact (h.committed b hb).trans (hsum b hb hd .committed).symm

end OpenVac.Quota
