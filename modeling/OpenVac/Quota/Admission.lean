/-
  File:      OpenVac/Quota/Admission.lean
  Subject:   When `reserve` grants a lease, and what a granted lease debits
             (server/quota/repository.ts, service.ts).

  * `bucketFor`, `reservedFor`, `committedFor` -- a scope's bucket in the request's window and its
    counters, none where there is no bucket yet.
  * `Fits` -- the scope has room for the units under the limit now in force, whatever limit the
    bucket was created under.
  * `reserveScope_ok`, `reserveScope_succeeds` -- one round of the loop; `reserveScopes_iff` -- the
    loop: all scopes fit, and then each is debited once (`Debited`).
  * `Known` -- the ledger knows the request, or its actor cannot reserve any more; it stays so.
  * `reserve_admission` -- the three together, from every reachable state.
-/
import OpenVac.Quota.Invariant
import OpenVac.Quota.Service

namespace OpenVac.Quota

open Rows

/-! ## 1. The bucket of a scope -/

/-- The bucket of a scope in the request's window. -/
def bucketFor (db : QuotaDb) (input : ReserveInput) (scope : QuotaScopePolicy) :
    Option BucketRow := db.buckets.find? (BucketRow.isFor input scope)

def reservedFor (db : QuotaDb) (input : ReserveInput) (scope : QuotaScopePolicy) : Int :=
  ((bucketFor db input scope).map (·.reservedUnits)).getD 0

def committedFor (db : QuotaDb) (input : ReserveInput) (scope : QuotaScopePolicy) : Int :=
  ((bucketFor db input scope).map (·.committedUnits)).getD 0

/-- **The scope has room under the limit now in force.** -/
def Fits (db : QuotaDb) (input : ReserveInput) (scope : QuotaScopePolicy) : Prop :=
  reservedFor db input scope + committedFor db input scope + input.units ≤ scope.limit

instance (db : QuotaDb) (input : ReserveInput) (scope : QuotaScopePolicy) :
    Decidable (Fits db input scope) := inferInstanceAs (Decidable (_ ≤ _))

/-- The largest limit the column holds. -/
def largestLimit : Int := 2147483647

theorem reservedFor_nonneg {db : QuotaDb} (h : Accounts db) (input : ReserveInput)
    (scope : QuotaScopePolicy) :
    0 ≤ reservedFor db input scope ∧ 0 ≤ committedFor db input scope := by
  unfold reservedFor committedFor
  cases hb : bucketFor db input scope with
  | none => exact ⟨Int.le_refl 0, Int.le_refl 0⟩
  | some b =>
    have hcheck := BucketRow.check_iff.mp (h.checks b (List.mem_of_find?_eq_some hb))
    exact ⟨hcheck.2.2.1, hcheck.2.2.2.1⟩

/-- What a scope's debit does to the buckets. -/
structure ScopeDebited (input : ReserveInput) (scope : QuotaScopePolicy) (db db' : QuotaDb) :
    Prop where
  here : ∃ b, bucketFor db' input scope = some b ∧
    b.reservedUnits = reservedFor db input scope + input.units ∧
    b.committedUnits = committedFor db input scope
  elsewhere : db'.buckets.filter (fun b => !b.isFor input scope) =
    db.buckets.filter fun b => !b.isFor input scope

/-- Two scopes have no bucket in common. -/
theorem isFor_other {input : ReserveInput} {scope other : QuotaScopePolicy}
    (hne : (scope.scopeType, scope.scopeKey) ≠ (other.scopeType, other.scopeKey)) {b : BucketRow}
    (hb : b.isFor input other = true) : b.isFor input scope = false := by
  unfold BucketRow.isFor at hb ⊢
  simp only [Bool.and_eq_true, beq_iff_eq] at hb
  obtain ⟨⟨⟨-, htype⟩, hkey⟩, -⟩ := hb
  cases hs : (b.resource == input.resource && b.scopeType == scope.scopeType &&
    b.scopeKey == scope.scopeKey && b.windowKey == input.window.key) with
  | false => rfl
  | true =>
    simp only [Bool.and_eq_true, beq_iff_eq] at hs
    obtain ⟨⟨⟨-, htype'⟩, hkey'⟩, -⟩ := hs
    exact absurd (by rw [← htype', ← hkey', htype, hkey]) hne

/-- What is left alone outside a class is left alone in each part outside it. -/
theorem filter_of_elsewhere {rows rows' : List BucketRow} {p q : BucketRow → Bool}
    (h : rows'.filter (fun b => !p b) = rows.filter fun b => !p b)
    (hq : ∀ b, q b = true → p b = false) : rows'.filter q = rows.filter q := by
  have hpart : ∀ l : List BucketRow, l.filter q = (l.filter fun b => !p b).filter q := by
    intro l
    rw [List.filter_filter]
    apply List.filter_congr
    intro b _
    cases hb : q b with
    | false => rfl
    | true =>
      rw [hq b hb]
      rfl
  rw [hpart rows', hpart rows, h]

theorem ScopeDebited.bucketFor_other {input : ReserveInput} {scope other : QuotaScopePolicy}
    {db db' : QuotaDb} (h : ScopeDebited input scope db db')
    (hne : (scope.scopeType, scope.scopeKey) ≠ (other.scopeType, other.scopeKey)) :
    bucketFor db' input other = bucketFor db input other := by
  unfold bucketFor
  rw [← List.head?_filter, ← List.head?_filter,
    filter_of_elsewhere h.elsewhere fun b hb => isFor_other hne hb]

/-! ## 2. The statements of one round -/

theorem updateBucket_succeeds {db : QuotaDb} {id : Nat} {f : BucketRow → BucketRow}
    (h : ∀ b ∈ db.buckets, b.id = id → (f b).check = true) :
    db.updateBucket id f =
      .ok { db with buckets := updateWhere (fun b => b.id == id) f db.buckets } := by
  unfold QuotaDb.updateBucket
  rw [if_pos]
  rw [List.all_eq_true]
  intro b hb
  obtain ⟨hmem, hid⟩ := List.mem_filter.mp hb
  exact h b hmem (beq_iff_eq.mp hid)

theorem isInt4_iff {n : Int} : isInt4 n = true ↔ -2147483648 ≤ n ∧ n ≤ largestLimit := by
  unfold isInt4 largestLimit
  rw [Bool.and_eq_true, decide_eq_true_eq, decide_eq_true_eq]

/-- What the insert of a scope's bucket leaves: the scope has a bucket, with its counters. -/
theorem insertBucket_bucketFor {db db' : QuotaDb} {input : ReserveInput} {scope : QuotaScopePolicy}
    (h : db.insertBucket input scope = .ok db') :
    (isInt4 scope.limit = true ∧ 0 < scope.limit) ∧
      (∃ existing, bucketFor db' input scope = some existing ∧
        existing.reservedUnits = reservedFor db input scope ∧
        existing.committedUnits = committedFor db input scope) ∧
      (db'.buckets.filter (fun b => !b.isFor input scope) =
        db.buckets.filter fun b => !b.isFor input scope) ∧
      db'.ledger = db.ledger := by
  unfold QuotaDb.insertBucket at h
  dsimp only at h
  generalize hrow : (⟨db.nextId, input.resource, scope.scopeType, scope.scopeKey, input.window.key,
    scope.limit, 0, 0, input.window.resetAt⟩ : BucketRow) = row at h
  have hfor : row.isFor input scope = true := by
    rw [← hrow]
    unfold BucketRow.isFor
    simp only [beq_self_eq_true, Bool.and_self]
  by_cases hcheck : row.check = true
  · rw [if_pos hcheck] at h
    have hlimit : isInt4 scope.limit = true ∧ 0 < scope.limit := by
      have hparts := BucketRow.check_iff.mp hcheck
      rw [← hrow] at hparts
      exact ⟨hparts.1, hparts.2.1⟩
    by_cases hany : db.buckets.any (BucketRow.isFor input scope) = true
    · rw [if_pos hany] at h
      cases h
      have hsome : (bucketFor db input scope).isSome = true := by
        unfold bucketFor
        rw [List.find?_isSome]
        exact List.any_eq_true.mp hany
      obtain ⟨existing, hexisting⟩ := Option.isSome_iff_exists.mp hsome
      refine ⟨hlimit, ⟨existing, hexisting, ?_, ?_⟩, rfl, rfl⟩
      · unfold reservedFor
        rw [hexisting]
        rfl
      · unfold committedFor
        rw [hexisting]
        rfl
    · rw [if_neg hany] at h
      cases h
      have hnone : bucketFor db input scope = none := by
        unfold bucketFor
        rw [List.find?_eq_none]
        intro b hb hb'
        exact hany (List.any_eq_true.mpr ⟨b, hb, hb'⟩)
      have hfound : (db.buckets ++ [row]).find? (BucketRow.isFor input scope) = some row := by
        rw [List.find?_append]
        have hnone' : db.buckets.find? (BucketRow.isFor input scope) = none := hnone
        rw [hnone', List.find?_cons_of_pos hfor]
        rfl
      refine ⟨hlimit, ⟨row, hfound, ?_, ?_⟩, ?_, rfl⟩
      · unfold reservedFor
        rw [hnone, ← hrow]
        rfl
      · unfold committedFor
        rw [hnone, ← hrow]
        rfl
      · show (db.buckets ++ [row]).filter _ = _
        rw [List.filter_append, List.filter_cons_of_neg (by rw [hfor]; exact Bool.false_ne_true),
          List.filter_nil, List.append_nil]
  · rw [if_neg hcheck] at h
    cases h

theorem insertBucket_succeeds (db : QuotaDb) (input : ReserveInput) {scope : QuotaScopePolicy}
    (hint : isInt4 scope.limit = true) (hpos : 0 < scope.limit) :
    ∃ db', db.insertBucket input scope = .ok db' := by
  unfold QuotaDb.insertBucket
  dsimp only
  rw [if_pos]
  · by_cases hany : db.buckets.any (BucketRow.isFor input scope) = true
    · rw [if_pos hany]
      exact ⟨_, rfl⟩
    · rw [if_neg hany]
      exact ⟨_, rfl⟩
  · rw [BucketRow.check_iff]
    exact ⟨hint, hpos, Int.le_refl 0, Int.le_refl 0, by simpa using hpos.le⟩

/-- The limit a bucket has after its reconciliation. -/
def reconciledLimit (scope : QuotaScopePolicy) (existing : BucketRow) : Int :=
  reconcileQuotaBucketLimit scope.limit existing.reservedUnits existing.committedUnits

/-- **The reconciliation**, whether or not the limit moved. -/
theorem reconcileBucket_ok {db db' : QuotaDb} (h : Accounts db) {scope : QuotaScopePolicy}
    {existing bucket : BucketRow} (he : existing ∈ db.buckets)
    (hok : reconcileBucket db scope existing = .ok (bucket, db')) :
    bucket = { existing with limitValue := reconciledLimit scope existing } ∧
      db' = { db with
        buckets := updateWhere (fun b => b.id == existing.id)
          (fun b => { b with limitValue := reconciledLimit scope existing }) db.buckets } := by
  unfold reconcileBucket at hok
  dsimp only at hok
  by_cases hmoved : reconcileQuotaBucketLimit scope.limit existing.reservedUnits
      existing.committedUnits ≠ existing.limitValue
  · rw [if_pos hmoved] at hok
    obtain ⟨db₁, hupdate, hok⟩ := Except.bind_ok_iff.mp hok
    cases hok
    exact ⟨rfl, (updateBucket_ok hupdate).1⟩
  · rw [if_neg hmoved] at hok
    cases hok
    have hlimit : reconciledLimit scope existing = existing.limitValue := not_not.mp hmoved
    rw [hlimit]
    refine ⟨rfl, ?_⟩
    rw [updateWhere_eq_self]
    intro b hb hid
    rw [h.bucketIds.eq hb he (beq_iff_eq.mp hid)]

theorem reconcileBucket_succeeds {db : QuotaDb} (h : Accounts db) {scope : QuotaScopePolicy}
    {existing : BucketRow} (he : existing ∈ db.buckets) (hint : isInt4 scope.limit = true)
    (hpos : 0 < scope.limit) : ∃ result, reconcileBucket db scope existing = .ok result := by
  unfold reconcileBucket
  dsimp only
  by_cases hmoved : reconcileQuotaBucketLimit scope.limit existing.reservedUnits
      existing.committedUnits ≠ existing.limitValue
  · rw [if_pos hmoved]
    have hold := BucketRow.check_iff.mp (h.checks existing he)
    have hupdate : ∀ b ∈ db.buckets, b.id = existing.id →
        ({ b with
          limitValue := reconcileQuotaBucketLimit scope.limit existing.reservedUnits
            existing.committedUnits } : BucketRow).check = true := by
      intro b hb hid
      obtain rfl := h.bucketIds.eq hb he hid
      rw [BucketRow.check_iff]
      have hbound := isInt4_iff.mp hint
      have hbound' := isInt4_iff.mp hold.1
      unfold reconcileQuotaBucketLimit
      refine ⟨isInt4_iff.mpr ⟨?_, ?_⟩, ?_, hold.2.2.1, hold.2.2.2.1, ?_⟩
      · show -2147483648 ≤ max scope.limit (b.reservedUnits + b.committedUnits)
        omega
      · show max scope.limit (b.reservedUnits + b.committedUnits) ≤ largestLimit
        omega
      · show 0 < max scope.limit (b.reservedUnits + b.committedUnits)
        omega
      · show b.reservedUnits + b.committedUnits ≤
          max scope.limit (b.reservedUnits + b.committedUnits)
        omega
    rw [updateBucket_succeeds hupdate]
    exact ⟨_, rfl⟩
  · rw [if_neg hmoved]
    exact ⟨_, rfl⟩

/-- **The debit**: it fits under the bucket's limit, and the counter moves by the units. -/
theorem debitBucket_ok {db db' : QuotaDb} {input : ReserveInput} {scope : QuotaScopePolicy}
    {bucket : BucketRow} (hok : debitBucket db input scope bucket = .ok db') :
    bucket.reservedUnits + bucket.committedUnits + input.units ≤ bucket.limitValue ∧
      db' = { db with
        buckets := updateWhere (fun b => b.id == bucket.id)
          (fun b => { b with reservedUnits := b.reservedUnits + input.units }) db.buckets } := by
  unfold debitBucket at hok
  dsimp only at hok
  by_cases hint : isInt4 (bucket.reservedUnits + bucket.committedUnits + input.units) = true
  · rw [if_pos hint] at hok
    by_cases hroom : bucket.reservedUnits + bucket.committedUnits + input.units ≤ bucket.limitValue
    · rw [if_pos hroom] at hok
      exact ⟨hroom, (updateBucket_ok hok).1⟩
    · rw [if_neg hroom] at hok
      cases hok
  · rw [if_neg hint] at hok
    cases hok

theorem debitBucket_succeeds {db : QuotaDb} (h : Accounts db) {input : ReserveInput}
    {scope : QuotaScopePolicy} {bucket : BucketRow} (hb : bucket ∈ db.buckets)
    (hpos : 0 < input.units)
    (hroom : bucket.reservedUnits + bucket.committedUnits + input.units ≤ bucket.limitValue) :
    ∃ db', debitBucket db input scope bucket = .ok db' := by
  obtain ⟨hint, hlimit, hreserved, hcommitted, -⟩ := BucketRow.check_iff.mp (h.checks bucket hb)
  have hwanted : isInt4 (bucket.reservedUnits + bucket.committedUnits + input.units) = true := by
    have hbound := (isInt4_iff.mp hint).2
    rw [isInt4_iff]
    omega
  have hupdate : ∀ b ∈ db.buckets, b.id = bucket.id →
      ({ b with reservedUnits := b.reservedUnits + input.units } : BucketRow).check = true := by
    intro b hmem hid
    obtain rfl := h.bucketIds.eq hmem hb hid
    rw [BucketRow.check_iff]
    refine ⟨hint, hlimit, ?_, hcommitted, ?_⟩
    · show 0 ≤ b.reservedUnits + input.units
      omega
    · show b.reservedUnits + input.units + b.committedUnits ≤ b.limitValue
      omega
  unfold debitBucket
  dsimp only
  rw [if_pos hwanted, if_pos hroom, updateBucket_succeeds hupdate]
  exact ⟨_, rfl⟩

/-- The ledger has no row of the request for the scope. -/
def Free (db : QuotaDb) (input : ReserveInput) (scope : QuotaScopePolicy) : Prop :=
  ∀ r ∈ db.ledger, r.idempotencyKey ≠
    (input.actorUserId, input.resource, input.clientRequestId, scope.scopeType, scope.scopeKey)

theorem insertLedgerRow_succeeds {db : QuotaDb} {row : LedgerRow} (hcheck : row.check = true)
    (hfree : ∀ r ∈ db.ledger, r.idempotencyKey ≠ row.idempotencyKey) :
    ∃ db', db.insertLedgerRow row = .ok db' := by
  unfold QuotaDb.insertLedgerRow
  have hnone : ¬ (db.ledger.any fun r => r.idempotencyKey == row.idempotencyKey) = true := by
    rw [List.any_eq_true]
    rintro ⟨r, hr, hkey⟩
    exact hfree r hr (beq_iff_eq.mp hkey)
  rw [if_pos hcheck, if_neg hnone]
  exact ⟨_, rfl⟩

/-- A bucket with its limit reconciled and the units debited. -/
def BucketRow.reserve (limit units : Int) (b : BucketRow) : BucketRow :=
  { b with limitValue := limit, reservedUnits := b.reservedUnits + units }

/-- The two updates of a round in one. -/
theorem updateWhere_reserve (id : Nat) (limit units : Int) (rows : List BucketRow) :
    updateWhere (fun b => b.id == id)
        (fun b : BucketRow => { b with reservedUnits := b.reservedUnits + units })
        (updateWhere (fun b => b.id == id) (fun b : BucketRow => { b with limitValue := limit })
          rows) =
      updateWhere (fun b => b.id == id) (BucketRow.reserve limit units) rows :=
  @updateWhere_updateWhere _ _ (fun b : BucketRow => { b with limitValue := limit }) _
    (fun _ => rfl) rows

/-! ## 3. One round of the loop -/

section Round

variable {now : Int} {input : ReserveInput} {leaseId : Nat} {scope : QuotaScopePolicy}

/-- A round that succeeds, statement by statement. -/
theorem reserveScope_effect {acc acc' : QuotaDb × List LedgerRow} (h : Accounts acc.1)
    (hok : reserveScope now input leaseId acc scope = .ok acc') :
    ∃ db₁ existing, acc.1.insertBucket input scope = .ok db₁ ∧
      db₁.buckets.find? (BucketRow.isFor input scope) = some existing ∧ 0 < input.units ∧
      existing.reservedUnits + existing.committedUnits + input.units ≤
        reconciledLimit scope existing ∧
      acc'.1.buckets = updateWhere (fun b => b.id == existing.id)
        (BucketRow.reserve (reconciledLimit scope existing) input.units) db₁.buckets ∧
      ∃ rowId, acc'.1.ledger =
        acc.1.ledger ++ [ledgerRowFor now input leaseId scope rowId existing.id] := by
  unfold reserveScope at hok
  obtain ⟨db₁, hinsert, hok⟩ := Except.bind_ok_iff.mp hok
  have h₁ := accounts_insertBucket h hinsert
  obtain ⟨-, ⟨existing, hfound, -, -⟩, -, hledger⟩ := insertBucket_bucketFor hinsert
  have hfind : db₁.buckets.find? (BucketRow.isFor input scope) = some existing := hfound
  rw [hfind] at hok
  obtain ⟨⟨bucket, db₂⟩, hreconcile, hok⟩ := Except.bind_ok_iff.mp hok
  obtain ⟨db₃, hdebit, hok⟩ := Except.bind_ok_iff.mp hok
  obtain ⟨db₄, hrow, hok⟩ := Except.bind_ok_iff.mp hok
  cases hok
  obtain ⟨rfl, rfl⟩ := reconcileBucket_ok h₁ (List.mem_of_find?_eq_some hfind) hreconcile
  obtain ⟨hroom, rfl⟩ := debitBucket_ok hdebit
  obtain ⟨rfl, hpos⟩ := insertLedgerRow_ok hrow
  exact ⟨db₁, existing, hinsert, hfind, hpos, hroom,
    updateWhere_reserve existing.id (reconciledLimit scope existing) input.units db₁.buckets,
    _, congrArg (· ++ [_]) hledger⟩

/-- **What a round that succeeds says and does.** -/
theorem reserveScope_ok {acc acc' : QuotaDb × List LedgerRow} (h : Accounts acc.1)
    (hok : reserveScope now input leaseId acc scope = .ok acc') :
    0 < input.units ∧ scope.limit ≤ largestLimit ∧ Fits acc.1 input scope ∧
      ScopeDebited input scope acc.1 acc'.1 ∧
      ∃ row, acc'.1.ledger = acc.1.ledger ++ [row] ∧ row.idempotencyKey =
        (input.actorUserId, input.resource, input.clientRequestId, scope.scopeType,
          scope.scopeKey) := by
  obtain ⟨db₁, existing, hinsert, hfind, hpos, hroom, hbuckets, rowId, hledger⟩ :=
    reserveScope_effect h hok
  have h₁ := accounts_insertBucket h hinsert
  have hmem := List.mem_of_find?_eq_some hfind
  have hisFor := List.find?_some hfind
  obtain ⟨hlimit, ⟨found, hfound, hreserved, hcommitted⟩, helsewhere, -⟩ :=
    insertBucket_bucketFor hinsert
  obtain rfl : existing = found := Option.some.inj (hfind.symm.trans hfound)
  have hroom : existing.reservedUnits + existing.committedUnits + input.units ≤
      max scope.limit (existing.reservedUnits + existing.committedUnits) := hroom
  refine ⟨hpos, (isInt4_iff.mp hlimit.1).2, ?_, ⟨?_, ?_⟩, ⟨_, hledger, rfl⟩⟩
  · unfold Fits
    omega
  · refine ⟨existing.reserve (reconciledLimit scope existing) input.units, ?_, ?_, hcommitted⟩
    · have hstable : ∀ b : BucketRow,
          (b.reserve (reconciledLimit scope existing) input.units).isFor input scope =
            b.isFor input scope := fun _ => rfl
      unfold bucketFor
      rw [hbuckets, find?_updateWhere_stable hstable, hfind, Option.map_some,
        if_pos (beq_self_eq_true existing.id)]
    · show existing.reservedUnits + input.units = _
      rw [hreserved]
  · rw [hbuckets, ← helsewhere]
    apply filter_updateWhere_other
    intro b hb hid
    obtain rfl := h₁.bucketIds.eq hb hmem (beq_iff_eq.mp hid)
    have hstill : (b.reserve (reconciledLimit scope b) input.units).isFor input scope = true :=
      hisFor
    rw [hstill, hisFor]
    exact ⟨rfl, rfl⟩

/-- **A round succeeds where the scope fits.** -/
theorem reserveScope_succeeds {acc : QuotaDb × List LedgerRow} (h : Accounts acc.1)
    (hpos : 0 < input.units) (hlarge : scope.limit ≤ largestLimit) (hfits : Fits acc.1 input scope)
    (hfree : Free acc.1 input scope) :
    ∃ acc', reserveScope now input leaseId acc scope = .ok acc' := by
  obtain ⟨hreserved, hcommitted⟩ := reservedFor_nonneg h input scope
  unfold Fits at hfits
  have hpositive : 0 < scope.limit := by omega
  have hint : isInt4 scope.limit = true := isInt4_iff.mpr ⟨by omega, hlarge⟩
  obtain ⟨db₁, hinsert⟩ := insertBucket_succeeds acc.1 input hint hpositive
  have h₁ := accounts_insertBucket h hinsert
  obtain ⟨-, ⟨existing, hfound, hr, hc⟩, -, hledger⟩ := insertBucket_bucketFor hinsert
  have hfind : db₁.buckets.find? (BucketRow.isFor input scope) = some existing := hfound
  have hmem := List.mem_of_find?_eq_some hfind
  obtain ⟨⟨bucket, db₂⟩, hreconcile⟩ := reconcileBucket_succeeds h₁ hmem hint hpositive
  obtain ⟨h₂, hbucket, -, hledger₂, -⟩ := accounts_reconcileBucket h₁ hmem hreconcile
  have hequal := (reconcileBucket_ok h₁ hmem hreconcile).1
  have hroom : bucket.reservedUnits + bucket.committedUnits + input.units ≤ bucket.limitValue := by
    rw [hequal]
    show existing.reservedUnits + existing.committedUnits + input.units ≤
      max scope.limit (existing.reservedUnits + existing.committedUnits)
    omega
  obtain ⟨db₃, hdebit⟩ := @debitBucket_succeeds db₂ h₂ input scope bucket hbucket hpos hroom
  have hledger₃ : db₃.ledger = acc.1.ledger := by
    rw [(debitBucket_ok hdebit).2]
    exact hledger₂.trans hledger
  have hcheck : (ledgerRowFor now input leaseId scope db₃.nextId bucket.id).check = true := by
    unfold LedgerRow.check
    rw [Bool.and_eq_true, isInt4_iff, decide_eq_true_eq]
    show (-2147483648 ≤ input.units ∧ input.units ≤ largestLimit) ∧ 0 < input.units
    omega
  obtain ⟨db₄, hrow⟩ := @insertLedgerRow_succeeds db₃ _ hcheck (by
    rw [hledger₃]
    exact hfree)
  refine ⟨(db₄, acc.2 ++ [ledgerRowFor now input leaseId scope db₃.nextId bucket.id]), ?_⟩
  unfold reserveScope
  refine Except.bind_ok_iff.mpr ⟨db₁, hinsert, ?_⟩
  rw [hfind]
  exact Except.bind_ok_iff.mpr ⟨_, hreconcile, Except.bind_ok_iff.mpr ⟨_, hdebit,
    Except.bind_ok_iff.mpr ⟨_, hrow, rfl⟩⟩⟩

end Round

/-! ## 4. The loop -/

/-- **What a granted lease does to the buckets**: each scope's bucket has the units more, its
    committed counter as before, and every other bucket is as it was. -/
structure Debited (input : ReserveInput) (scopes : List QuotaScopePolicy) (db db' : QuotaDb) :
    Prop where
  each : ∀ scope ∈ scopes, ∃ b, bucketFor db' input scope = some b ∧
    b.reservedUnits = reservedFor db input scope + input.units ∧
    b.committedUnits = committedFor db input scope
  elsewhere : db'.buckets.filter (fun b => scopes.all fun scope => !b.isFor input scope) =
    db.buckets.filter fun b => scopes.all fun scope => !b.isFor input scope

section Loop

variable {now : Int} {input : ReserveInput} {leaseId : Nat}

theorem fits_other {scope other : QuotaScopePolicy} {db db' : QuotaDb}
    (h : ScopeDebited input scope db db')
    (hne : (scope.scopeType, scope.scopeKey) ≠ (other.scopeType, other.scopeKey)) :
    reservedFor db' input other = reservedFor db input other ∧
      committedFor db' input other = committedFor db input other := by
  unfold reservedFor committedFor
  rw [h.bucketFor_other hne]
  exact ⟨rfl, rfl⟩

/-- A scope's debit, then those of the others. -/
theorem Debited.cons {scope : QuotaScopePolicy} {scopes : List QuotaScopePolicy}
    {db db₁ db' : QuotaDb} (hfirst : ScopeDebited input scope db db₁)
    (hrest : Debited input scopes db₁ db')
    (hnew : (scope.scopeType, scope.scopeKey) ∉ scopeKeys scopes) :
    Debited input (scope :: scopes) db db' := by
  have hne : ∀ other ∈ scopes,
      (scope.scopeType, scope.scopeKey) ≠ (other.scopeType, other.scopeKey) := by
    intro other hother heq
    exact hnew (List.mem_map.mpr ⟨other, hother, heq.symm⟩)
  constructor
  · intro other hother
    rcases List.mem_cons.mp hother with rfl | hother
    · obtain ⟨b, hb, hreserved, hcommitted⟩ := hfirst.here
      refine ⟨b, ?_, hreserved, hcommitted⟩
      -- the other scopes' debits leave this bucket alone
      have hsame : db'.buckets.filter (BucketRow.isFor input other) =
          db₁.buckets.filter (BucketRow.isFor input other) := by
        apply filter_of_elsewhere (p := fun b => !scopes.all fun scope => !b.isFor input scope)
        · simpa only [Bool.not_not] using hrest.elsewhere
        · intro b hb
          rw [Bool.not_eq_false', List.all_eq_true]
          intro scope hscope
          rw [isFor_other (hne scope hscope).symm hb]
          rfl
      rw [← hb]
      unfold bucketFor
      rw [← List.head?_filter, ← List.head?_filter, hsame]
    · obtain ⟨b, hb, hreserved, hcommitted⟩ := hrest.each other hother
      obtain ⟨hr, hc⟩ := fits_other hfirst (hne other hother)
      exact ⟨b, hb, hreserved.trans (by rw [hr]), hcommitted.trans hc⟩
  · have houter : db'.buckets.filter (fun b => (scope :: scopes).all fun s => !b.isFor input s) =
        db₁.buckets.filter fun b => (scope :: scopes).all fun s => !b.isFor input s := by
      apply filter_of_elsewhere (p := fun b => !scopes.all fun scope => !b.isFor input scope)
      · simpa only [Bool.not_not] using hrest.elsewhere
      · intro b hb
        rw [List.all_cons, Bool.and_eq_true] at hb
        rw [hb.2]
        rfl
    rw [houter]
    apply filter_of_elsewhere hfirst.elsewhere
    intro b hb
    rw [List.all_cons, Bool.and_eq_true, Bool.not_eq_true'] at hb
    exact hb.1

/-- **The loop succeeds exactly if every scope fits**, and then it debits each of them. -/
theorem reserveScopes_iff {db : QuotaDb} {scopes : List QuotaScopePolicy}
    {acc : QuotaDb × List LedgerRow} (h : Reserving db input now acc)
    (hkeys : (scopeKeys scopes).Nodup) (hfree : ∀ scope ∈ scopes, Free acc.1 input scope) :
    ((∃ acc', scopes.foldlM (reserveScope now input db.nextId) acc = .ok acc') ↔
      ∀ scope ∈ scopes, 0 < input.units ∧ scope.limit ≤ largestLimit ∧
        Fits acc.1 input scope) ∧
    ∀ acc', scopes.foldlM (reserveScope now input db.nextId) acc = .ok acc' →
      Debited input scopes acc.1 acc'.1 ∧ acc'.2.length = acc.2.length + scopes.length := by
  induction scopes generalizing acc with
  | nil =>
    refine ⟨⟨fun _ scope hscope => absurd hscope List.not_mem_nil, fun _ => ⟨acc, rfl⟩⟩, ?_⟩
    intro acc' hok
    cases hok
    exact ⟨⟨fun scope hscope => absurd hscope List.not_mem_nil, rfl⟩, rfl⟩
  | cons scope scopes ih =>
    obtain ⟨hnew, hkeys⟩ := List.nodup_cons.mp hkeys
    -- what a first round that succeeds leaves for the others
    have hround : ∀ acc₁, reserveScope now input db.nextId acc scope = .ok acc₁ →
        Reserving db input now acc₁ ∧ (∀ other ∈ scopes, Free acc₁.1 input other) ∧
          (∀ other ∈ scopes, Fits acc₁.1 input other ↔ Fits acc.1 input other) ∧
          acc₁.2.length = acc.2.length + 1 := by
      intro acc₁ hok
      obtain ⟨-, -, -, hdebited, row, hledger, hkey⟩ := reserveScope_ok h.accounts hok
      have hnext := reserving_reserveScope h hok
      refine ⟨hnext, ?_, ?_, ?_⟩
      · intro other hother r hr
        rw [hledger] at hr
        rcases List.mem_append.mp hr with hr | hr
        · exact hfree other (List.mem_cons_of_mem _ hother) r hr
        · obtain rfl := List.mem_singleton.mp hr
          rw [hkey]
          intro heq
          simp only [Prod.mk.injEq, true_and] at heq
          exact hnew (List.mem_map.mpr ⟨other, hother, Prod.ext heq.1.symm heq.2.symm⟩)
      · intro other hother
        have hne : (scope.scopeType, scope.scopeKey) ≠ (other.scopeType, other.scopeKey) :=
          fun heq => hnew (List.mem_map.mpr ⟨other, hother, heq.symm⟩)
        obtain ⟨hr, hc⟩ := fits_other hdebited hne
        unfold Fits
        rw [hr, hc]
      · have hlong := congrArg List.length hnext.ledger
        have hshort := congrArg List.length h.ledger
        have hone := congrArg List.length hledger
        rw [List.length_append] at hlong hshort hone
        have hsingle : [row].length = 1 := rfl
        omega
    rw [List.foldlM_cons]
    constructor
    · constructor
      · rintro ⟨acc', hok⟩
        obtain ⟨acc₁, hfirst, hrest⟩ := Except.bind_ok_iff.mp hok
        obtain ⟨hpos, hlarge, hfits, -⟩ := reserveScope_ok h.accounts hfirst
        obtain ⟨hnext, hfree₁, hfits₁, -⟩ := hround acc₁ hfirst
        have hothers := (ih hnext hkeys hfree₁).1.mp ⟨acc', hrest⟩
        intro other hother
        rcases List.mem_cons.mp hother with rfl | hother
        · exact ⟨hpos, hlarge, hfits⟩
        · obtain ⟨hp, hl, hf⟩ := hothers other hother
          exact ⟨hp, hl, (hfits₁ other hother).mp hf⟩
      · intro hall
        obtain ⟨hpos, hlarge, hfits⟩ := hall scope List.mem_cons_self
        obtain ⟨acc₁, hfirst⟩ := @reserveScope_succeeds now input db.nextId scope acc h.accounts
          hpos hlarge hfits (hfree scope List.mem_cons_self)
        obtain ⟨hnext, hfree₁, hfits₁, -⟩ := hround acc₁ hfirst
        have hothers : ∀ other ∈ scopes, 0 < input.units ∧ other.limit ≤ largestLimit ∧
            Fits acc₁.1 input other := by
          intro other hother
          obtain ⟨hp, hl, hf⟩ := hall other (List.mem_cons_of_mem _ hother)
          exact ⟨hp, hl, (hfits₁ other hother).mpr hf⟩
        obtain ⟨acc', hrest⟩ := (ih hnext hkeys hfree₁).1.mpr hothers
        exact ⟨acc', Except.bind_ok_iff.mpr ⟨acc₁, hfirst, hrest⟩⟩
    · intro acc' hok
      obtain ⟨acc₁, hfirst, hrest⟩ := Except.bind_ok_iff.mp hok
      obtain ⟨-, -, -, hdebited, -⟩ := reserveScope_ok h.accounts hfirst
      obtain ⟨hnext, hfree₁, -, hlength⟩ := hround acc₁ hfirst
      obtain ⟨hothers, hmore⟩ := (ih hnext hkeys hfree₁).2 acc' hrest
      refine ⟨Debited.cons hdebited hothers hnew, ?_⟩
      rw [List.length_cons]
      omega

end Loop

/-! ## 5. `reserve` -/

/-- The actor's account exists, and no deletion of it is pending. -/
def ActorAvailable (db : QuotaDb) (actorUserId : String) : Prop :=
  assertActorCanReserve db actorUserId = .ok ()

/-- The row is of the request. -/
def LedgerRow.IsOf (input : ReserveInput) (r : LedgerRow) : Prop :=
  r.actorUserId = input.actorUserId ∧ r.resource = input.resource ∧
    r.clientRequestId = input.clientRequestId

/-- No row of the ledger is of the request. -/
def Unseen (db : QuotaDb) (input : ReserveInput) : Prop := ∀ r ∈ db.ledger, ¬ r.IsOf input

theorem Unseen.free {db : QuotaDb} {input : ReserveInput} (h : Unseen db input)
    (scope : QuotaScopePolicy) : Free db input scope := by
  intro r hr hkey
  unfold LedgerRow.idempotencyKey at hkey
  simp only [Prod.mk.injEq] at hkey
  exact h r hr ⟨hkey.1, hkey.2.1, hkey.2.2.1⟩

theorem Debited.of_perm {input : ReserveInput} {scopes scopes' : List QuotaScopePolicy}
    {db db' : QuotaDb} (h : Debited input scopes db db') (hperm : scopes.Perm scopes') :
    Debited input scopes' db db' := by
  constructor
  · exact fun scope hscope => h.each scope (hperm.mem_iff.mpr hscope)
  · have hall : (fun b : BucketRow => scopes'.all fun scope => !b.isFor input scope) =
        fun b : BucketRow => scopes.all fun scope => !b.isFor input scope := by
      funext b
      exact hperm.symm.all_eq
    rw [hall]
    exact h.elsewhere

section Ordered

variable [Collation]

theorem selectIdempotentRows_eq_nil_iff {db : QuotaDb} {input : ReserveInput} :
    selectIdempotentRows db input = [] ↔ Unseen db input := by
  unfold selectIdempotentRows
  rw [← List.length_eq_zero_iff, (orderByScope_perm _).length_eq, List.length_eq_zero_iff,
    List.filter_eq_nil_iff]
  unfold Unseen LedgerRow.IsOf
  simp only [Bool.and_eq_true, beq_iff_eq, and_assoc]

/-- The first reservation of a request, as its loop. -/
theorem reserve_unseen {db : QuotaDb} {now : Int} {input : ReserveInput} (h : Unseen db input)
    (res : QuotaReservation) (db' : QuotaDb) :
    reserve db now input = .ok (res, db') ↔
      ActorAvailable db input.actorUserId ∧ ∃ rows,
        (sortByScope (fun s => (s.scopeType, s.scopeKey)) input.scopes).foldlM
            (reserveScope now input db.nextId) ({ db with nextId := db.nextId + 1 }, []) =
          .ok (db', rows) ∧
        reservationFromRows db' rows false = .ok res := by
  have hnone : selectIdempotentRows db input = [] := selectIdempotentRows_eq_nil_iff.mpr h
  have hinner : reserve db now input = .ok (res, db') ↔
      reserveInTransaction db now input = .ok (res, db') := by
    unfold reserve
    cases hresult : reserveInTransaction db now input with
    | ok result => exact Iff.rfl
    | error e =>
      cases e with
      | uniqueViolation =>
        dsimp only
        rw [hnone, if_neg (by decide)]
      | _ => exact Iff.rfl
  rw [hinner]
  unfold reserveInTransaction ActorAvailable
  rw [Except.bind_ok_iff]
  constructor
  · rintro ⟨_, hactor, hok⟩
    dsimp only at hok
    rw [hnone, if_neg (by decide)] at hok
    obtain ⟨⟨db₁, rows⟩, hloop, hok⟩ := Except.bind_ok_iff.mp hok
    obtain ⟨res', hread, hok⟩ := Except.bind_ok_iff.mp hok
    cases hok
    exact ⟨hactor, rows, hloop, hread⟩
  · rintro ⟨hactor, rows, hloop, hread⟩
    refine ⟨(), hactor, ?_⟩
    dsimp only
    rw [hnone, if_neg (by decide)]
    exact Except.bind_ok_iff.mpr ⟨_, hloop, Except.bind_ok_iff.mpr ⟨_, hread, rfl⟩⟩

/-- **When an unseen request is granted, and what it debits.** -/
theorem reserve_unseen_iff {db : QuotaDb} (h : Accounts db) (now : Int) {input : ReserveInput}
    (hkeys : (scopeKeys input.scopes).Nodup) (hunseen : Unseen db input) :
    ((∃ res db', reserve db now input = .ok (res, db')) ↔
      ActorAvailable db input.actorUserId ∧ input.scopes ≠ [] ∧ 0 < input.units ∧
        ∀ scope ∈ input.scopes, scope.limit ≤ largestLimit ∧ Fits db input scope) ∧
    ∀ res db', reserve db now input = .ok (res, db') →
      Debited input input.scopes db db' ∧ res.idempotent = false := by
  have hperm :=
    sortByScope_perm (fun s : QuotaScopePolicy => (s.scopeType, s.scopeKey)) input.scopes
  generalize hsorted : sortByScope (fun s : QuotaScopePolicy => (s.scopeType, s.scopeKey))
    input.scopes = sorted at hperm
  have hstart := h.reserving input now
  have hsortedKeys : (scopeKeys sorted).Nodup :=
    (hperm.map fun s : QuotaScopePolicy => (s.scopeType, s.scopeKey)).nodup_iff.mpr hkeys
  obtain ⟨hiff, hdebits⟩ := reserveScopes_iff hstart hsortedKeys fun scope _ => hunseen.free scope
  constructor
  · constructor
    · rintro ⟨res, db', hok⟩
      obtain ⟨hactor, rows, hloop, hread⟩ := (reserve_unseen hunseen res db').mp hok
      rw [hsorted] at hloop
      have hall := hiff.mp ⟨_, hloop⟩
      obtain ⟨-, hlength⟩ := hdebits _ hloop
      have hne : input.scopes ≠ [] := by
        intro hempty
        have hnil : rows = [] := by
          apply List.length_eq_zero_iff.mp
          rw [hlength, hperm.length_eq, hempty]
          rfl
        rw [hnil] at hread
        cases hread
      obtain ⟨scope, hscope⟩ := List.exists_mem_of_ne_nil _ hne
      refine ⟨hactor, hne, (hall scope (hperm.mem_iff.mpr hscope)).1, ?_⟩
      intro other hother
      exact (hall other (hperm.mem_iff.mpr hother)).2
    · rintro ⟨hactor, hne, hpos, hall⟩
      obtain ⟨⟨db', rows⟩, hloop⟩ := hiff.mpr fun scope hscope =>
        ⟨hpos, hall scope (hperm.mem_iff.mp hscope)⟩
      obtain ⟨-, hlength⟩ := hdebits _ hloop
      cases rows with
      | nil =>
        have hzero : input.scopes.length = 0 := by
          rw [← hperm.length_eq]
          simpa using hlength.symm
        exact absurd (List.length_eq_zero_iff.mp hzero) hne
      | cons first rest =>
        have hread : ∃ res, reservationFromRows db' (first :: rest) false = .ok res := ⟨_, rfl⟩
        obtain ⟨res, hread⟩ := hread
        refine ⟨res, db', (reserve_unseen hunseen res db').mpr ⟨hactor, first :: rest, ?_, hread⟩⟩
        rw [hsorted]
        exact hloop
  · intro res db' hok
    obtain ⟨-, rows, hloop, hread⟩ := (reserve_unseen hunseen res db').mp hok
    rw [hsorted] at hloop
    have hdebited := (hdebits _ hloop).1.of_perm hperm
    exact ⟨⟨hdebited.each, hdebited.elsewhere⟩, (reservationFromRows_ok hread).1⟩

end Ordered

/-! ## 6. A request that was granted once -/

/-- Every row of the ledger stays with its request and its bucket, and every bucket with its
    scope. -/
structure Carries (db db' : QuotaDb) : Prop where
  rows : ∀ r ∈ db.ledger, ∃ r' ∈ db'.ledger, r'.actorUserId = r.actorUserId ∧
    r'.resource = r.resource ∧ r'.clientRequestId = r.clientRequestId ∧ r'.bucketId = r.bucketId
  buckets : ∀ b ∈ db.buckets, ∃ b' ∈ db'.buckets, b'.id = b.id ∧
    b'.scopeType = b.scopeType ∧ b'.scopeKey = b.scopeKey

theorem Carries.refl (db : QuotaDb) : Carries db db :=
  ⟨fun r hr => ⟨r, hr, rfl, rfl, rfl, rfl⟩, fun b hb => ⟨b, hb, rfl, rfl, rfl⟩⟩

theorem Carries.trans {db db₁ db' : QuotaDb} (h : Carries db db₁) (h' : Carries db₁ db') :
    Carries db db' := by
  constructor
  · intro r hr
    obtain ⟨r₁, hr₁, ha, hs, hc, hb⟩ := h.rows r hr
    obtain ⟨r', hr', ha', hs', hc', hb'⟩ := h'.rows r₁ hr₁
    exact ⟨r', hr', ha'.trans ha, hs'.trans hs, hc'.trans hc, hb'.trans hb⟩
  · intro b hb
    obtain ⟨b₁, hb₁, hid, ht, hk⟩ := h.buckets b hb
    obtain ⟨b', hb', hid', ht', hk'⟩ := h'.buckets b₁ hb₁
    exact ⟨b', hb', hid'.trans hid, ht'.trans ht, hk'.trans hk⟩

/-- The ledger knows the request, by a row that no other user's deletion takes along. -/
def Served (db : QuotaDb) (input : ReserveInput) : Prop :=
  ∃ r ∈ db.ledger, r.IsOf input ∧ ∃ b ∈ db.buckets, b.id = r.bucketId ∧
    (b.scopeType = .user → b.scopeKey = input.actorUserId)

/-- The ledger knows the request, or its actor cannot reserve any more. -/
def Known (input : ReserveInput) (db : QuotaDb) : Prop :=
  Served db input ∨ ¬ ActorAvailable db input.actorUserId

theorem Served.carry {db db' : QuotaDb} {input : ReserveInput} (h : Served db input)
    (hcarry : Carries db db') : Served db' input := by
  obtain ⟨r, hr, ⟨hactor, hresource, hrequest⟩, b, hb, hid, hscope⟩ := h
  obtain ⟨r', hr', ha, hs, hc, hbucket⟩ := hcarry.rows r hr
  obtain ⟨b', hb', hid', htype, hkey⟩ := hcarry.buckets b hb
  refine ⟨r', hr', ⟨ha.trans hactor, hs.trans hresource, hc.trans hrequest⟩, b', hb', ?_, ?_⟩
  · rw [hid', hid, hbucket]
  · rw [htype, hkey]
    exact hscope

theorem reserveScope_carries {now : Int} {input : ReserveInput} {leaseId : Nat}
    {scope : QuotaScopePolicy} {acc acc' : QuotaDb × List LedgerRow} (h : Accounts acc.1)
    (hok : reserveScope now input leaseId acc scope = .ok acc') : Carries acc.1 acc'.1 := by
  obtain ⟨db₁, existing, hinsert, -, -, -, hbuckets, rowId, hledger⟩ := reserveScope_effect h hok
  constructor
  · intro r hr
    refine ⟨r, ?_, rfl, rfl, rfl, rfl⟩
    rw [hledger]
    exact List.mem_append_left _ hr
  · intro b hb
    have hb₁ : b ∈ db₁.buckets := by
      rcases insertBucket_ok hinsert with rfl | ⟨row, -, -, -, -, rfl⟩
      · exact hb
      · exact List.mem_append_left _ hb
    rw [hbuckets]
    refine ⟨_, mem_updateWhere_of_mem hb₁, ?_⟩
    by_cases hid : (b.id == existing.id) = true
    · rw [if_pos hid]
      exact ⟨rfl, rfl, rfl⟩
    · rw [if_neg hid]
      exact ⟨rfl, rfl, rfl⟩

/-- A round of the request's own makes it known. -/
theorem reserveScope_served {now : Int} {input : ReserveInput} {leaseId : Nat}
    {scope : QuotaScopePolicy} {acc acc' : QuotaDb × List LedgerRow} (h : Accounts acc.1)
    (hscope : scope.scopeType = .user → scope.scopeKey = input.actorUserId)
    (hok : reserveScope now input leaseId acc scope = .ok acc') : Served acc'.1 input := by
  obtain ⟨db₁, existing, -, hfind, -, -, hbuckets, rowId, hledger⟩ := reserveScope_effect h hok
  refine ⟨ledgerRowFor now input leaseId scope rowId existing.id, ?_, ⟨rfl, rfl, rfl⟩,
    existing.reserve (reconciledLimit scope existing) input.units, ?_, rfl, ?_⟩
  · rw [hledger]
    exact List.mem_append_right _ (List.mem_singleton_self _)
  · rw [hbuckets]
    refine mem_updateWhere.mpr ⟨existing, List.mem_of_find?_eq_some hfind, ?_⟩
    rw [if_pos (beq_self_eq_true existing.id)]
  · have hisFor := List.find?_some hfind
    unfold BucketRow.isFor at hisFor
    simp only [Bool.and_eq_true, beq_iff_eq] at hisFor
    obtain ⟨⟨⟨-, htype⟩, hkey⟩, -⟩ := hisFor
    show existing.scopeType = .user → existing.scopeKey = input.actorUserId
    rw [htype, hkey]
    exact hscope

theorem reserveScopes_carry {db : QuotaDb} {now : Int} {input : ReserveInput}
    {scopes : List QuotaScopePolicy} {acc acc' : QuotaDb × List LedgerRow}
    (h : Reserving db input now acc)
    (hok : scopes.foldlM (reserveScope now input db.nextId) acc = .ok acc') :
    Carries acc.1 acc'.1 := by
  have hboth : Reserving db input now acc' ∧ Carries acc.1 acc'.1 := by
    refine @Except.foldlM_invariant _ _ _ (fun acc₁ => Reserving db input now acc₁ ∧
      Carries acc.1 acc₁.1) _ _ _ _ ⟨h, Carries.refl _⟩ ?_ hok
    rintro acc₁ scope acc₂ - ⟨hreserving, hcarry⟩ hround
    exact ⟨reserving_reserveScope hreserving hround,
      hcarry.trans (reserveScope_carries hreserving.accounts hround)⟩
  exact hboth.2

theorem settleRow_carries {target : QuotaTarget} {reason : String} {db db' : QuotaDb}
    {row : LedgerRow} (hok : settleRow target reason db row = .ok db') : Carries db db' := by
  rcases settleRow_ok hok with ⟨-, rfl⟩ | ⟨-, -, rfl⟩
  · exact Carries.refl _
  · constructor
    · intro r hr
      refine ⟨_, mem_updateWhere_of_mem hr, ?_⟩
      by_cases hid : (r.id == row.id) = true
      · rw [if_pos hid]
        exact ⟨rfl, rfl, rfl, rfl⟩
      · rw [if_neg hid]
        exact ⟨rfl, rfl, rfl, rfl⟩
    · intro b hb
      refine ⟨_, mem_updateWhere_of_mem hb, ?_⟩
      by_cases hid : (b.id == row.bucketId) = true
      · rw [if_pos hid]
        exact ⟨rfl, rfl, rfl⟩
      · rw [if_neg hid]
        exact ⟨rfl, rfl, rfl⟩

theorem settleRows_carry {target : QuotaTarget} {reason : String} {rows : List LedgerRow}
    {db db' : QuotaDb} (hok : rows.foldlM (settleRow target reason) db = .ok db') :
    Carries db db' :=
  Except.foldlM_invariant (Carries.refl db)
    (fun _ _ _ _ hcarry hround => hcarry.trans (settleRow_carries hround)) hok

section Ordered

variable [Collation]

/-- **A request the ledger knows is answered and debits nothing.** -/
theorem reserve_seen {db db' : QuotaDb} {now : Int} {input : ReserveInput} {res : QuotaReservation}
    (hseen : ¬ Unseen db input) (hok : reserve db now input = .ok (res, db')) :
    db' = db ∧ res.idempotent = true := by
  have hrows : (selectIdempotentRows db input).length > 0 := by
    apply List.length_pos_iff.mpr
    exact fun hnil => hseen (selectIdempotentRows_eq_nil_iff.mp hnil)
  unfold reserve reserveInTransaction at hok
  cases hactor : assertActorCanReserve db input.actorUserId with
  | error e =>
    rw [hactor] at hok
    have huser : e = .accountUnavailable ∨ e = .accountDeletionPending := by
      unfold assertActorCanReserve at hactor
      cases hfind : db.users.find? fun u => u.id == input.actorUserId with
      | none =>
        rw [hfind] at hactor
        cases hactor
        exact .inl rfl
      | some account =>
        rw [hfind] at hactor
        dsimp only at hactor
        by_cases hpending : account.deletionRequestedAt.isSome = true
        · rw [if_pos hpending] at hactor
          cases hactor
          exact .inr rfl
        · rw [if_neg hpending] at hactor
          cases hactor
    rcases huser with rfl | rfl
    · cases hok
    · cases hok
  | ok _ =>
    rw [hactor] at hok
    have hread : ∃ res', reservationFromRows db (selectIdempotentRows db input) true =
        .ok res' := by
      cases hselected : selectIdempotentRows db input with
      | nil =>
        rw [hselected] at hrows
        exact absurd hrows (by decide)
      | cons first rest => exact ⟨_, rfl⟩
    obtain ⟨res', hread⟩ := hread
    dsimp only [bind, Except.bind] at hok
    rw [if_pos hrows, hread] at hok
    cases hok
    exact ⟨rfl, (reservationFromRows_ok hread).1⟩

theorem reserve_carries {db db' : QuotaDb} (h : Accounts db) {now : Int} {input : ReserveInput}
    {res : QuotaReservation} (hok : reserve db now input = .ok (res, db')) :
    Carries db db' ∧ db'.users = db.users := by
  by_cases hunseen : Unseen db input
  · obtain ⟨-, rows, hloop, -⟩ := (reserve_unseen hunseen res db').mp hok
    have hstart := h.reserving input now
    have hcarry := reserveScopes_carry hstart hloop
    refine ⟨⟨hcarry.rows, hcarry.buckets⟩, ?_⟩
    rcases reserve_ok h hok with ⟨rfl, -⟩ | ⟨_, -, hreserving, -⟩
    · rfl
    · exact hreserving.users
  · obtain ⟨rfl, -⟩ := reserve_seen hunseen hok
    exact ⟨Carries.refl _, rfl⟩

/-- **A granted request is known to the ledger.** -/
theorem reserve_served {db db' : QuotaDb} (h : Accounts db) {now : Int} {input : ReserveInput}
    (hscoped : input.UserScoped) (hunseen : Unseen db input) {res : QuotaReservation}
    (hok : reserve db now input = .ok (res, db')) : Served db' input := by
  obtain ⟨-, rows, hloop, hread⟩ := (reserve_unseen hunseen res db').mp hok
  have hstart := h.reserving input now
  have hperm :=
    sortByScope_perm (fun s : QuotaScopePolicy => (s.scopeType, s.scopeKey)) input.scopes
  cases hsorted : sortByScope (fun s : QuotaScopePolicy => (s.scopeType, s.scopeKey))
      input.scopes with
  | nil =>
    rw [hsorted] at hloop
    cases hloop
    cases hread
  | cons scope scopes =>
    rw [hsorted] at hloop hperm
    rw [List.foldlM_cons] at hloop
    obtain ⟨acc₁, hfirst, hrest⟩ := Except.bind_ok_iff.mp hloop
    have hown := hscoped scope (hperm.mem_iff.mp List.mem_cons_self)
    have hserved := reserveScope_served hstart.accounts hown hfirst
    have hcarry := reserveScopes_carry (reserving_reserveScope hstart hfirst) hrest
    exact hserved.carry hcarry

theorem transition_carries {db db' : QuotaDb} {input : TransitionInput} {target : QuotaTarget}
    {res : QuotaReservation} (hok : transitionQuotaReservation db input target = .ok (res, db')) :
    Carries db db' := by
  unfold transitionQuotaReservation at hok
  dsimp only at hok
  split at hok
  · cases hok
  · obtain ⟨db₁, hloop, hok⟩ := Except.bind_ok_iff.mp hok
    obtain ⟨res', -, hok⟩ := Except.bind_ok_iff.mp hok
    cases hok
    exact settleRows_carry hloop

omit [Collation] in
/-- An account that could not reserve cannot after the user table is marked. -/
theorem unavailable_marked {db db' : QuotaDb} {actor userId : String} {instant : Option Int}
    (hinstant : instant.isSome = true)
    (husers : db'.users = updateWhere (fun u : UserRow => u.id == userId)
      (fun u => { u with deletionRequestedAt := instant }) db.users)
    (h : ¬ ActorAvailable db actor ∨ actor = userId) : ¬ ActorAvailable db' actor := by
  have hstable : ∀ u : UserRow,
      (({ u with deletionRequestedAt := instant } : UserRow).id == actor) = (u.id == actor) :=
    fun _ => rfl
  unfold ActorAvailable assertActorCanReserve at h ⊢
  rw [husers, find?_updateWhere_stable hstable]
  cases hfind : db.users.find? fun u => u.id == actor with
  | none => exact fun hok => nomatch hok
  | some account =>
    rw [hfind] at h
    rw [Option.map_some]
    dsimp only at h ⊢
    by_cases hid : (account.id == userId) = true
    · rw [if_pos hid]
      dsimp only
      rw [if_pos hinstant]
      exact fun hok => nomatch hok
    · rw [if_neg hid]
      rcases h with h | rfl
      · exact h
      · exact absurd (List.find?_some hfind) hid

omit [Collation] in
/-- **A deletion takes the request's rows only with its actor's account.** -/
theorem prepareUserDeletion_known {db db' : QuotaDb} (h : Accounts db) {userId : String}
    {roles : List String} {now : Int} {input : ReserveInput}
    (hok : prepareUserDeletion db userId roles now = .ok ((), db')) (hknown : Known input db) :
    Known input db' := by
  unfold prepareUserDeletion at hok
  cases hfind : db.users.find? fun u => u.id == userId with
  | none =>
    rw [hfind] at hok
    cases hok
    exact hknown
  | some account =>
    rw [hfind] at hok
    obtain ⟨_, -, hok⟩ := Except.bind_ok_iff.mp hok
    obtain ⟨db₁, hloop, hok⟩ := Except.bind_ok_iff.mp hok
    cases hok
    have hsettled := fun hacc hm hn => settleRows_ok hacc hm hn hloop
    have hrows := hsettled (h.congr rfl rfl (Nat.le_refl _))
      (fun r hr => (List.mem_filter.mp hr).1)
      (List.Nodup.sublist (List.Sublist.map _ List.filter_sublist) h.ledgerIds)
    by_cases hactor : input.actorUserId = userId
    · exact .inr (unavailable_marked rfl hrows.2.1 (.inr hactor))
    · rcases hknown with hserved | hunavailable
      · left
        have hcarry : Carries db db₁ := by
          have hcarried := settleRows_carry hloop
          exact ⟨hcarried.rows, hcarried.buckets⟩
        obtain ⟨r, hr, hof, b, hb, hid, hscope⟩ := hserved.carry hcarry
        have hkept : (b.scopeType == .user && b.scopeKey == userId) = false := by
          cases hdoomed : (b.scopeType == .user && b.scopeKey == userId) with
          | false => rfl
          | true =>
            simp only [Bool.and_eq_true, beq_iff_eq] at hdoomed
            exact absurd ((hscope hdoomed.1).symm.trans hdoomed.2) hactor
        refine ⟨r, ?_, hof, b, ?_, hid, hscope⟩
        · refine mem_deleteWhere.mpr ⟨hr, ?_⟩
          rw [← Bool.not_eq_true, List.contains_iff_mem, List.mem_map]
          rintro ⟨other, hother, hsame⟩
          obtain ⟨hmem, hdoomed⟩ := List.mem_filter.mp hother
          have hequal := hrows.1.bucketIds.eq hmem hb (hsame.trans hid.symm)
          rw [hequal, hkept] at hdoomed
          exact Bool.false_ne_true hdoomed
        · exact mem_deleteWhere.mpr ⟨hb, hkept⟩
      · exact .inr (unavailable_marked rfl hrows.2.1 (.inl hunavailable))

/-- **A request that is known, or whose actor is gone, stays so.** -/
theorem known_step {db : QuotaDb} (h : Accounts db) (a : QuotaAction) {input : ReserveInput}
    (hknown : Known input db) : Known input (step db a) := by
  have hcarried : ∀ db', Carries db db' → db'.users = db.users → Known input db' := by
    intro db' hcarry husers
    rcases hknown with hserved | hunavailable
    · exact .inl (hserved.carry hcarry)
    · right
      unfold ActorAvailable assertActorCanReserve at hunavailable ⊢
      rw [husers]
      exact hunavailable
  cases a with
  | reserve now other =>
    refine Machine.commit_preserves hknown fun res db' hok => ?_
    obtain ⟨hcarry, husers⟩ := reserve_carries h hok
    exact hcarried db' hcarry husers
  | commit transition =>
    refine Machine.commit_preserves hknown fun res db' hok => ?_
    exact hcarried db' (transition_carries hok) (transition_ok h hok).2.1
  | release transition =>
    refine Machine.commit_preserves hknown fun res db' hok => ?_
    exact hcarried db' (transition_carries hok) (transition_ok h hok).2.1
  | prepareUserDeletion userId roles now =>
    refine Machine.commit_preserves hknown fun _ db' hok => ?_
    exact prepareUserDeletion_known h hok hknown

/-- **No request debits twice**: after its grant, whatever happens, a repetition changes
    nothing. -/
theorem reserve_again {db db' : QuotaDb} (h : Sound db) {now : Int} {input : ReserveInput}
    (hscoped : input.UserScoped) (hunseen : Unseen db input) {res : QuotaReservation}
    (hok : reserve db now input = .ok (res, db')) (later : List QuotaAction) {now' : Int}
    {again : ReserveInput} (hagain : again.actorUserId = input.actorUserId ∧
      again.resource = input.resource ∧ again.clientRequestId = input.clientRequestId)
    {res' : QuotaReservation} {db'' : QuotaDb}
    (hok' : reserve (Machine.run step db' later) now' again = .ok (res', db'')) :
    db'' = Machine.run step db' later ∧ res'.idempotent = true := by
  have hsound : Sound db' := by
    have hstep : step db (.reserve now input) = db' := by
      show Machine.commit db (reserve db now input) = db'
      rw [hok]
      rfl
    rw [← hstep]
    exact sound_step db _ h
  have hfirst : Known input db' := .inl (reserve_served h.accounts hscoped hunseen hok)
  have hknown : Known input (Machine.run step db' later) :=
    Machine.run_stable hsound hfirst sound_step (fun _ a hinv => known_step hinv.accounts a) later
  have hseen : ¬ Unseen (Machine.run step db' later) again := by
    intro hunseen'
    rcases hknown with ⟨r, hr, ⟨hactor, hresource, hrequest⟩, -⟩ | hunavailable
    · exact hunseen' r hr ⟨hactor.trans hagain.1.symm, hresource.trans hagain.2.1.symm,
        hrequest.trans hagain.2.2.symm⟩
    · have hactor := ((reserve_unseen hunseen' res' db'').mp hok').1
      rw [hagain.1] at hactor
      exact hunavailable hactor
  exact reserve_seen hseen hok'

/-! ## 7. Admission -/

/-- `reserve` grants the request. -/
def Granted (db : QuotaDb) (now : Int) (input : ReserveInput) : Prop :=
  ∃ res db', reserve db now input = .ok (res, db')

/-- **Admission is exact and atomic, from every reachable state.** -/
theorem reserve_admission (users : List UserRow) (acts : List QuotaAction) (now : Int)
    (input : ReserveInput) (hkeys : (scopeKeys input.scopes).Nodup) (hscoped : input.UserScoped)
    (hunseen : Unseen (Machine.run step (initial users) acts) input) :
    let db := Machine.run step (initial users) acts
    (Granted db now input ↔
      ActorAvailable db input.actorUserId ∧ input.scopes ≠ [] ∧ 0 < input.units ∧
        ∀ scope ∈ input.scopes, scope.limit ≤ largestLimit ∧ Fits db input scope) ∧
    (¬ Granted db now input → step db (.reserve now input) = db) ∧
    ∀ res db', reserve db now input = .ok (res, db') →
      Debited input input.scopes db db' ∧
      ∀ (later : List QuotaAction) (now' : Int) (again : ReserveInput),
        again.actorUserId = input.actorUserId ∧ again.resource = input.resource ∧
          again.clientRequestId = input.clientRequestId →
        step (Machine.run step db' later) (.reserve now' again) =
          Machine.run step db' later := by
  have hsound := sound_run users acts
  have hfirst := reserve_unseen_iff hsound.accounts now hkeys hunseen
  refine ⟨hfirst.1, ?_, ?_⟩
  · intro hrefused
    refine Machine.commit_eq fun res db' hok => ?_
    exact absurd ⟨res, db', hok⟩ hrefused
  · intro res db' hok
    refine ⟨(hfirst.2 res db' hok).1, ?_⟩
    intro later now' again hagain
    refine Machine.commit_eq fun res' db'' hok' => ?_
    exact (reserve_again hsound hscoped hunseen hok later hagain hok').1

end Ordered

/-! ## 8. A granted request and two refused -/

/-- A search request of one unit under the limits given. -/
def searchRequest (globalLimit userLimit : Int) : ReserveInput :=
  { actorUserId := "u"
    clientRequestId := "r"
    resource := .webSearch
    units := 1
    window := ⟨"2026-01-01", 0⟩
    scopes := [⟨.global, "all", globalLimit⟩, ⟨.user, "u", userLimit⟩] }

/-- The first search of a user is granted where both limits have room. -/
theorem first_search_granted :
    let _ : Collation := ⟨compare, compare⟩
    Granted (initial [⟨"u", none⟩]) 0 (searchRequest 500 5) := by
  intro collation
  have hkeys : (scopeKeys (searchRequest 500 5).scopes).Nodup := by decide
  have hscoped : (searchRequest 500 5).UserScoped := by
    intro scope hscope huser
    rcases List.mem_pair.mp hscope with rfl | rfl
    · cases huser
    · rfl
  have hadmission := reserve_admission [⟨"u", none⟩] [] 0 (searchRequest 500 5) hkeys hscoped
    fun r hr => absurd hr List.not_mem_nil
  refine hadmission.1.mpr ⟨rfl, List.cons_ne_nil _ _, by decide, ?_⟩
  intro scope hscope
  rcases List.mem_pair.mp hscope with rfl | rfl
  · exact ⟨by decide, by decide⟩
  · exact ⟨by decide, by decide⟩

/-- **Room in every scope is not enough**: an account about to be deleted is refused, and so is a
    limit the column does not hold. -/
theorem room_is_not_enough :
    let _ : Collation := ⟨compare, compare⟩
    (¬ ∀ (users : List UserRow) (now : Int) (input : ReserveInput),
      (scopeKeys input.scopes).Nodup → input.UserScoped → 0 < input.units → input.scopes ≠ [] →
      (Granted (initial users) now input ↔
        ∀ scope ∈ input.scopes, Fits (initial users) input scope)) ∧
    ¬ Granted (initial [⟨"u", some 0⟩]) 0 (searchRequest 500 5) ∧
    ¬ Granted (initial [⟨"u", none⟩]) 0 (searchRequest 3000000000 5) := by
  intro collation
  have hpending : ¬ Granted (initial [⟨"u", some 0⟩]) 0 (searchRequest 500 5) := by
    rintro ⟨res, db', hok⟩
    have herror : reserve (initial [⟨"u", some 0⟩]) 0 (searchRequest 500 5) =
        .error .accountDeletionPending := rfl
    rw [herror] at hok
    cases hok
  refine ⟨?_, hpending, ?_⟩
  · intro hclaim
    have hscoped : (searchRequest 500 5).UserScoped := by
      intro scope hscope huser
      rcases List.mem_pair.mp hscope with rfl | rfl
      · cases huser
      · rfl
    apply hpending
    refine (hclaim [⟨"u", some 0⟩] 0 (searchRequest 500 5) (by decide) hscoped (by decide)
      (List.cons_ne_nil _ _)).mpr ?_
    intro scope hscope
    rcases List.mem_pair.mp hscope with rfl | rfl
    · decide
    · decide
  · rintro ⟨res, db', hok⟩
    have herror : reserve (initial [⟨"u", none⟩]) 0 (searchRequest 3000000000 5) =
        .error .checkViolation := by decide +kernel
    rw [herror] at hok
    cases hok

end OpenVac.Quota
