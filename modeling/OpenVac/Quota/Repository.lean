/-
  File:      OpenVac/Quota/Repository.lean
  Subject:   The quota store: server/quota/repository.ts and the quota part of
             server/auth/account-cleanup.ts, over the tables `user`, `quota_bucket` and
             `quota_ledger` (drizzle/0000, db/schema/quota.ts).

  * Every transaction is a function from the tables to `Except QuotaError (result × tables)`;
    an error rolls back. The row locks serialise the transactions, so one function is one step.
  * CHECK constraints and unique indexes are part of the statements (`BucketRow.check`,
    `insertLedgerRow`): a statement that breaks one fails the transaction.
  * uuids are drawn from a counter (`nextId`); a date is its milliseconds since the epoch.

  Left out: the timestamps and the `metadata` column nothing here reads, the chat storage and
  the audit log `prepareUserDeletion` also touches.
-/
import Mathlib.Data.List.Sort
import OpenVac.Lib.Machine
import OpenVac.Lib.Rows

namespace OpenVac.Quota

open Rows

/-- The two string orders the host decides: JavaScript's `localeCompare` and the collation of
    the database's `ORDER BY`. -/
class Collation where
  localeCompare : String → String → Ordering
  orderBy : String → String → Ordering

inductive QuotaResource where
  | answer
  | webSearch
  | modelAttempt
  deriving DecidableEq, Repr

inductive QuotaScopeType where
  | global
  | user
  deriving DecidableEq, Repr

def QuotaScopeType.text : QuotaScopeType → String
  | .global => "global"
  | .user => "user"

inductive QuotaReservationStatus where
  | committed
  | released
  | reserved
  deriving DecidableEq, Repr

/-- `Exclude<QuotaReservationStatus, "reserved">`: what a transition can lead to. -/
inductive QuotaTarget where
  | committed
  | released
  deriving DecidableEq, Repr

@[simp] def QuotaTarget.status : QuotaTarget → QuotaReservationStatus
  | .committed => .committed
  | .released => .released

structure QuotaScopePolicy where
  scopeType : QuotaScopeType
  scopeKey : String
  limit : Int
  deriving DecidableEq, Repr

structure QuotaWindow where
  key : String
  resetAt : Int
  deriving DecidableEq, Repr

structure QuotaScopeUsage where
  scopeType : QuotaScopeType
  scopeKey : String
  limit : Int
  reserved : Int
  committed : Int
  remaining : Int
  resetAt : Int
  deriving DecidableEq, Repr

structure QuotaReservation where
  leaseId : Nat
  actorUserId : String
  clientRequestId : String
  resource : QuotaResource
  units : Int
  status : QuotaReservationStatus
  window : QuotaWindow
  scopes : List QuotaScopeUsage
  idempotent : Bool
  deriving DecidableEq, Repr

/-- `RepositoryReserveInput`. -/
structure ReserveInput where
  actorUserId : String
  clientRequestId : String
  resource : QuotaResource
  units : Int
  window : QuotaWindow
  scopes : List QuotaScopePolicy
  deriving DecidableEq, Repr

/-- `RepositoryTransitionInput`. -/
structure TransitionInput where
  leaseId : Nat
  actorUserId : Option String
  reason : Option String
  deriving DecidableEq, Repr

inductive QuotaError where
  | accountUnavailable
  | accountDeletionPending
  | exceeded (resource : QuotaResource) (scopeType : QuotaScopeType) (limit resetAt : Int)
  | reservationNotFound (leaseId : Nat)
  | bucketNotInitialized
  | noLedgerRows
  | adminAccountDeletionForbidden
  /-- SQLSTATE 23505. -/
  | uniqueViolation
  /-- SQLSTATE 23514. -/
  | checkViolation
  /-- SQLSTATE 22003. -/
  | integerOutOfRange
  deriving DecidableEq, Repr

/-! ## 1. The tables -/

structure UserRow where
  id : String
  deletionRequestedAt : Option Int
  deriving DecidableEq, Repr

structure BucketRow where
  id : Nat
  resource : QuotaResource
  scopeType : QuotaScopeType
  scopeKey : String
  windowKey : String
  limitValue : Int
  reservedUnits : Int
  committedUnits : Int
  resetAt : Int
  deriving DecidableEq, Repr

structure LedgerRow where
  id : Nat
  leaseId : Nat
  bucketId : Nat
  actorUserId : String
  clientRequestId : String
  resource : QuotaResource
  scopeType : QuotaScopeType
  scopeKey : String
  windowKey : String
  units : Int
  status : QuotaReservationStatus
  releaseReason : Option String
  reservedAt : Int
  deriving DecidableEq, Repr

structure QuotaDb where
  users : List UserRow
  buckets : List BucketRow
  ledger : List LedgerRow
  nextId : Nat
  deriving DecidableEq, Repr

/-- The range of PostgreSQL's `integer`. -/
def isInt4 (n : Int) : Bool := decide (-2147483648 ≤ n) && decide (n ≤ 2147483647)

/-- The columns' range and `quota_bucket_limit_positive`, `quota_bucket_counts_non_negative`,
    `quota_bucket_within_limit`. -/
def BucketRow.check (b : BucketRow) : Bool :=
  isInt4 b.limitValue && decide (0 < b.limitValue) && decide (0 ≤ b.reservedUnits) &&
    decide (0 ≤ b.committedUnits) && decide (b.reservedUnits + b.committedUnits ≤ b.limitValue)

/-- The columns' range and `quota_ledger_units_positive`. -/
def LedgerRow.check (r : LedgerRow) : Bool := isInt4 r.units && decide (0 < r.units)

/-- `UPDATE quota_bucket SET f WHERE id = bucketId`. -/
def QuotaDb.updateBucket (db : QuotaDb) (bucketId : Nat) (f : BucketRow → BucketRow) :
    Except QuotaError QuotaDb :=
  if (db.buckets.filter fun b => b.id == bucketId).all fun b => (f b).check then
    .ok { db with buckets := updateWhere (fun b => b.id == bucketId) f db.buckets }
  else
    .error .checkViolation

/-- The target of `onConflictDoNothing`: the key of a scope's bucket. -/
def BucketRow.isFor (input : ReserveInput) (scope : QuotaScopePolicy) (b : BucketRow) : Bool :=
  b.resource == input.resource && b.scopeType == scope.scopeType &&
    b.scopeKey == scope.scopeKey && b.windowKey == input.window.key

/-- `INSERT INTO quota_bucket … ON CONFLICT DO NOTHING`. The row's constraints are checked
    before the conflict is looked for. -/
def QuotaDb.insertBucket (db : QuotaDb) (input : ReserveInput) (scope : QuotaScopePolicy) :
    Except QuotaError QuotaDb :=
  let row : BucketRow :=
    { id := db.nextId, resource := input.resource, scopeType := scope.scopeType
      scopeKey := scope.scopeKey, windowKey := input.window.key, limitValue := scope.limit
      reservedUnits := 0, committedUnits := 0, resetAt := input.window.resetAt }
  if row.check then
    if db.buckets.any (BucketRow.isFor input scope) then .ok db
    else .ok { db with buckets := db.buckets ++ [row], nextId := db.nextId + 1 }
  else
    .error .checkViolation

/-- The columns of `quota_ledger_idempotency_unique`. -/
def LedgerRow.idempotencyKey (r : LedgerRow) :
    String × QuotaResource × String × QuotaScopeType × String :=
  (r.actorUserId, r.resource, r.clientRequestId, r.scopeType, r.scopeKey)

/-- `INSERT INTO quota_ledger … RETURNING *`. -/
def QuotaDb.insertLedgerRow (db : QuotaDb) (row : LedgerRow) : Except QuotaError QuotaDb :=
  if row.check then
    if db.ledger.any fun r => r.idempotencyKey == row.idempotencyKey then
      .error .uniqueViolation
    else
      .ok { db with ledger := db.ledger ++ [row], nextId := db.nextId + 1 }
  else
    .error .checkViolation

/-! ## 2. Reading a reservation back -/

def aggregateStatus (rows : List LedgerRow) : QuotaReservationStatus :=
  if rows.all fun row => row.status == .committed then .committed
  else if rows.all fun row => row.status == .released then .released
  else .reserved

def scopeUsage (bucket : BucketRow) : QuotaScopeUsage where
  scopeType := bucket.scopeType
  scopeKey := bucket.scopeKey
  limit := bucket.limitValue
  reserved := bucket.reservedUnits
  committed := bucket.committedUnits
  remaining := max 0 (bucket.limitValue - bucket.reservedUnits - bucket.committedUnits)
  resetAt := bucket.resetAt

def reconcileQuotaBucketLimit (policyLimit reservedUnits committedUnits : Int) : Int :=
  max policyLimit (reservedUnits + committedUnits)

def selectBuckets (db : QuotaDb) (bucketIds : List Nat) : List BucketRow :=
  bucketIds.filterMap fun bucketId => db.buckets.find? fun b => b.id == bucketId

/-- The latest reset instant among the buckets. -/
def latestResetAt (buckets : List BucketRow) : Option Int :=
  buckets.foldl
    (fun latest bucket =>
      match latest with
      | none => some bucket.resetAt
      | some l => if bucket.resetAt > l then some bucket.resetAt else some l)
    none

def reservationFromRows (db : QuotaDb) (rows : List LedgerRow) (idempotent : Bool) :
    Except QuotaError QuotaReservation :=
  match rows with
  | [] => .error .noLedgerRows
  | first :: _ =>
      let buckets := selectBuckets db (rows.map (·.bucketId))
      .ok
        { leaseId := first.leaseId
          actorUserId := first.actorUserId
          clientRequestId := first.clientRequestId
          resource := first.resource
          units := first.units
          status := aggregateStatus rows
          window := { key := first.windowKey
                      resetAt := (latestResetAt buckets).getD first.reservedAt }
          scopes := buckets.map scopeUsage
          idempotent }

section Ordered

variable [Collation]

def compareScopes (left right : QuotaScopeType × String) : Ordering :=
  Collation.localeCompare (left.1.text ++ ":" ++ left.2) (right.1.text ++ ":" ++ right.2)

/-- `[...rows].sort(compareScopes)`. -/
def sortByScope {ρ : Type} (scope : ρ → QuotaScopeType × String) (rows : List ρ) : List ρ :=
  rows.insertionSort fun l r => compareScopes (scope l) (scope r) ≠ .gt

def LedgerRow.scope (r : LedgerRow) : QuotaScopeType × String := (r.scopeType, r.scopeKey)

/-- The rank of an enum value in its declaration `("user", "global")`. -/
def QuotaScopeType.rank : QuotaScopeType → Nat
  | .user => 0
  | .global => 1

/-- `ORDER BY scope_type ASC, scope_key ASC`. -/
def orderByScope (rows : List LedgerRow) : List LedgerRow :=
  rows.insertionSort fun l r =>
    l.scopeType.rank < r.scopeType.rank ∨
      l.scopeType.rank = r.scopeType.rank ∧ Collation.orderBy l.scopeKey r.scopeKey ≠ .gt

def selectIdempotentRows (db : QuotaDb) (input : ReserveInput) : List LedgerRow :=
  orderByScope <| db.ledger.filter fun r =>
    r.actorUserId == input.actorUserId && r.resource == input.resource &&
      r.clientRequestId == input.clientRequestId

def assertActorCanReserve (db : QuotaDb) (actorUserId : String) : Except QuotaError Unit :=
  match db.users.find? fun u => u.id == actorUserId with
  | none => .error .accountUnavailable
  | some account =>
      if account.deletionRequestedAt.isSome then .error .accountDeletionPending else .ok ()

/-! ## 3. `reserve` -/

/-- The row a scope's reservation inserts into the ledger. -/
def ledgerRowFor (now : Int) (input : ReserveInput) (leaseId : Nat) (scope : QuotaScopePolicy)
    (id bucketId : Nat) : LedgerRow where
  id := id
  leaseId := leaseId
  bucketId := bucketId
  actorUserId := input.actorUserId
  clientRequestId := input.clientRequestId
  resource := input.resource
  scopeType := scope.scopeType
  scopeKey := scope.scopeKey
  windowKey := input.window.key
  units := input.units
  status := .reserved
  releaseReason := none
  reservedAt := now

/-- The guarded debit of one bucket:
    `SET reserved = reserved + units WHERE reserved + committed + units <= limit`. -/
def debitBucket (db : QuotaDb) (input : ReserveInput) (scope : QuotaScopePolicy)
    (bucket : BucketRow) : Except QuotaError QuotaDb :=
  let wanted := bucket.reservedUnits + bucket.committedUnits + input.units
  if isInt4 wanted then
    if wanted ≤ bucket.limitValue then
      db.updateBucket bucket.id fun b => { b with reservedUnits := b.reservedUnits + input.units }
    else
      .error (.exceeded input.resource scope.scopeType bucket.limitValue bucket.resetAt)
  else
    .error .integerOutOfRange

/-- The limit update of `reserve`, made only when the reconciled limit differs. -/
def reconcileBucket (db : QuotaDb) (scope : QuotaScopePolicy) (existing : BucketRow) :
    Except QuotaError (BucketRow × QuotaDb) :=
  let reconciled :=
    reconcileQuotaBucketLimit scope.limit existing.reservedUnits existing.committedUnits
  if reconciled ≠ existing.limitValue then do
    let db ← db.updateBucket existing.id fun b => { b with limitValue := reconciled }
    .ok ({ existing with limitValue := reconciled }, db)
  else
    .ok (existing, db)

/-- One round of the loop over the sorted scopes. -/
def reserveScope (now : Int) (input : ReserveInput) (leaseId : Nat)
    (acc : QuotaDb × List LedgerRow) (scope : QuotaScopePolicy) :
    Except QuotaError (QuotaDb × List LedgerRow) := do
  let db ← acc.1.insertBucket input scope
  match db.buckets.find? (BucketRow.isFor input scope) with
  | none => .error .bucketNotInitialized
  | some existing => do
      let (bucket, db) ← reconcileBucket db scope existing
      let db ← debitBucket db input scope bucket
      let row := ledgerRowFor now input leaseId scope db.nextId bucket.id
      let db ← db.insertLedgerRow row
      .ok (db, acc.2 ++ [row])

/-- The transaction inside `reserve`. -/
def reserveInTransaction (db : QuotaDb) (now : Int) (input : ReserveInput) :
    Except QuotaError (QuotaReservation × QuotaDb) := do
  assertActorCanReserve db input.actorUserId
  let rows := selectIdempotentRows db input
  if rows.length > 0 then do
    let reservation ← reservationFromRows db rows true
    .ok (reservation, db)
  else do
    let leaseId := db.nextId
    let sortedScopes := sortByScope (fun s => (s.scopeType, s.scopeKey)) input.scopes
    let (db, ledgerRows) ←
      sortedScopes.foldlM (reserveScope now input leaseId) ({ db with nextId := db.nextId + 1 }, [])
    let reservation ← reservationFromRows db ledgerRows false
    .ok (reservation, db)

/-- `PostgresQuotaRepository.reserve`: after a unique violation the winner's rows, read outside
    the rolled-back transaction, are the answer. -/
def reserve (db : QuotaDb) (now : Int) (input : ReserveInput) :
    Except QuotaError (QuotaReservation × QuotaDb) :=
  match reserveInTransaction db now input with
  | .error .uniqueViolation =>
      let winner := selectIdempotentRows db input
      if winner.length > 0 then do
        let reservation ← reservationFromRows db winner true
        .ok (reservation, db)
      else
        .error .uniqueViolation
  | result => result

/-! ## 4. `commit`, `release` and the preparation of a user's deletion -/

/-- The two updates that settle one reserved row: its bucket's counters, then its status. -/
def settleRow (target : QuotaTarget) (reason : String) (db : QuotaDb) (row : LedgerRow) :
    Except QuotaError QuotaDb :=
  if row.status ≠ .reserved then .ok db
  else do
    let db ← db.updateBucket row.bucketId fun b =>
      { b with
        reservedUnits := b.reservedUnits - row.units
        committedUnits :=
          if target = .committed then b.committedUnits + row.units else b.committedUnits }
    .ok
      { db with
        ledger := updateWhere (fun r => r.id == row.id)
          (fun r =>
            { r with
              status := target.status
              releaseReason := if target = .released then some reason else none })
          db.ledger }

/-- The predicates of a transition: the lease, and the actor when one is given. JavaScript's
    truth test on `actorUserId` treats `""` as absent. -/
def TransitionInput.selects (input : TransitionInput) (r : LedgerRow) : Bool :=
  r.leaseId == input.leaseId &&
    match input.actorUserId with
    | none => true
    | some actor => actor == "" || r.actorUserId == actor

/-- `transitionQuotaReservation`. -/
def transitionQuotaReservation (db : QuotaDb) (input : TransitionInput) (target : QuotaTarget) :
    Except QuotaError (QuotaReservation × QuotaDb) := do
  let selectedRows := orderByScope (db.ledger.filter input.selects)
  let rows := sortByScope LedgerRow.scope selectedRows
  if rows.length = 0 then .error (.reservationNotFound input.leaseId)
  else do
    let db ← rows.foldlM (settleRow target (input.reason.getD "operation_failed")) db
    let finalRows := orderByScope (db.ledger.filter input.selects)
    let reservation ← reservationFromRows db (sortByScope LedgerRow.scope finalRows) true
    .ok (reservation, db)

end Ordered

def assertUserCanSelfDelete (roleAssignments : List String) : Except QuotaError Unit :=
  if roleAssignments.length > 0 then .error .adminAccountDeletionForbidden else .ok ()

/-- `prepareUserDeletion` on the quota tables. `roleAssignments` are the rows of `admin_role`
    it reads. Deleting a bucket deletes its ledger rows (`ON DELETE CASCADE`). -/
def prepareUserDeletion (db : QuotaDb) (userId : String) (roleAssignments : List String)
    (now : Int) : Except QuotaError (Unit × QuotaDb) :=
  match db.users.find? fun u => u.id == userId with
  | none => .ok ((), db)
  | some account => do
      assertUserCanSelfDelete roleAssignments
      let db :=
        { db with
          users := updateWhere (fun u => u.id == userId)
            (fun u => { u with deletionRequestedAt := some (account.deletionRequestedAt.getD now) })
            db.users }
      let outstanding := db.ledger.filter fun r => r.actorUserId == userId && r.status == .reserved
      let db ← outstanding.foldlM (settleRow .released "account_deleted") db
      let doomed := fun b : BucketRow => b.scopeType == .user && b.scopeKey == userId
      let doomedIds := (db.buckets.filter doomed).map (·.id)
      .ok
        ((),
          { db with
            buckets := deleteWhere doomed db.buckets
            ledger := deleteWhere (fun r => doomedIds.contains r.bucketId) db.ledger })

/-! ## 5. The machine -/

/-- One complete transaction on the quota tables. A scope carries the policy limit in force
    when the transaction runs, so limits may change from one action to the next. -/
inductive QuotaAction where
  | reserve (now : Int) (input : ReserveInput)
  | commit (input : TransitionInput)
  | release (input : TransitionInput)
  | prepareUserDeletion (userId : String) (roleAssignments : List String) (now : Int)

section Machine

variable [Collation]

def step (db : QuotaDb) : QuotaAction → QuotaDb
  | .reserve now input => Machine.commit db (reserve db now input)
  | .commit input => Machine.commit db (transitionQuotaReservation db input .committed)
  | .release input => Machine.commit db (transitionQuotaReservation db input .released)
  | .prepareUserDeletion userId roles now =>
      Machine.commit db (prepareUserDeletion db userId roles now)

/-- The tables before the first reservation: any users, no bucket, no ledger row. -/
def initial (users : List UserRow) : QuotaDb where
  users := users
  buckets := []
  ledger := []
  nextId := 0

end Machine

end OpenVac.Quota
