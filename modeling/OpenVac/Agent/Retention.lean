/-
  File:      OpenVac/Agent/Retention.lean
  Subject:   Stale run recovery (server/agent/retention.ts, recoverStaleAgentRuns) and the
             machine of all transactions on runs.

  * Recovery reads its candidates OUTSIDE any transaction and settles each one in a
    transaction of its own, which checks the run again; the same holds for orphaned quota
    leases. The machine keeps what was read (`stale`, `orphans`) in a pool, so that any other
    transaction may come between the reading and the settling.
  * `complete` and `fail` are called with the handle a create transaction returned; the
    machine keeps those handles (`created`).
  * `System`, `step`, `initial` -- the machine.
-/
import OpenVac.Agent.RunStore

namespace OpenVac.Agent

open Rows Quota

def MAX_RECOVERY_BATCH : Nat := 500

structure RecoveryScope where
  userId : Option String
  conversationId : Option Nat
  deriving DecidableEq, Repr

/-- A candidate, with the two instants of the recovery that read it. -/
structure RecoveryCandidate where
  runId : Nat
  assistantMessageId : Nat
  conversationId : Nat
  turnId : Nat
  version : Int
  staleBefore : Int
  deriving DecidableEq, Repr

structure OrphanedReservation where
  leaseId : Nat
  userId : String
  resource : QuotaResource
  deriving DecidableEq, Repr

/-- `if (scope.userId) filters.push(…)`: an empty string filters nothing. -/
def RecoveryScope.allowsUser (scope : RecoveryScope) (userId : String) : Bool :=
  match scope.userId with
  | none => true
  | some u => u == "" || u == userId

def RecoveryScope.allowsConversation (scope : RecoveryScope) (conversationId : Nat) : Bool :=
  match scope.conversationId with
  | none => true
  | some c => c == conversationId

/-- The filter of the candidates and the guard each transaction repeats: an active run that was
    not touched since `staleBefore`, or a terminal one that was never settled. -/
def RunRow.wasInterrupted (r : RunRow) (staleBefore : Int) : Bool :=
  r.status.isActive && decide (r.updatedAt ≤ staleBefore)

def RunRow.needsTerminalSettlement (r : RunRow) : Bool :=
  !r.status.isActive && r.settlementStatus == .pending

/-- `SELECT … ORDER BY updated_at, id LIMIT 500`. -/
def staleCandidates (db : AgentDb) (scope : RecoveryScope) (staleBefore : Int) :
    List RecoveryCandidate :=
  let runs := db.runs.filter fun r =>
    (r.wasInterrupted staleBefore || r.needsTerminalSettlement) && scope.allowsUser r.userId
  let sorted := runs.insertionSort fun l r =>
    l.updatedAt < r.updatedAt ∨ l.updatedAt = r.updatedAt ∧ l.id ≤ r.id
  let rows := sorted.filterMap fun r => do
    let turn ← db.turnOf r
    if scope.allowsConversation turn.conversationId then
      some
        { runId := r.id, assistantMessageId := r.assistantMessageId
          conversationId := turn.conversationId, turnId := turn.id, version := r.version
          staleBefore }
    else none
  rows.take MAX_RECOVERY_BATCH

def interruptedMessage : String :=
  "Agent process ended before the run reached a terminal state."

def interruptedContent : String :=
  "上次生成因服务进程中断而未完成，额度已归还，可重试后重新生成。"

/-- The status a run to recover is settled with: `failed` when it was interrupted, its own when
    it is terminal. -/
def RunRow.recoveredStatus (r : RunRow) : TerminalStatus :=
  match r.status with
  | .pending | .running | .failed => .failed
  | .completed => .completed
  | .incomplete => .incomplete
  | .cancelled => .cancelled

def recoveryReason (r : RunRow) : String :=
  if r.status.isActive then "agent_run_process_interrupted"
  else match r.recoveredStatus with
    | .completed => "agent_run_completed_recovery"
    | .incomplete => "agent_run_incomplete_recovery"
    | .failed => "agent_run_failed_recovery"
    | .cancelled => "agent_run_cancelled_recovery"

section Ordered

variable [Collation]

/-- The transaction on one candidate; `now` is its clock. The result says whether the run was
    settled. -/
def recoverCandidate (db : AgentDb) (now : Int) (candidate : RecoveryCandidate) :
    Except AgentError (Bool × AgentDb) :=
  match db.runs.find? fun r => r.id == candidate.runId with
  | none => .ok (false, db)
  | some current =>
      if !current.wasInterrupted candidate.staleBefore && !current.needsTerminalSettlement then
        .ok (false, db)
      else do
        let (answerQuotaStatus, quota) ← settleAnswerQuotaInTransaction db.quota
          current.answerQuotaLeaseId current.userId current.recoveredStatus
          (recoveryReason current)
        let db := { db with quota }
        let db := db.updateRun candidate.runId fun r =>
          let r := r.settle current.recoveredStatus answerQuotaStatus now
          if current.status.isActive then
            { r with
              errorCode := some "PROCESS_INTERRUPTED", errorMessage := some interruptedMessage }
          else r
        let db :=
          if current.status.isActive then
            db.updateMessage candidate.assistantMessageId fun m =>
              { m with
                status := .failed, content := interruptedContent
                errorCode := some "PROCESS_INTERRUPTED", errorMessage := some interruptedMessage }
          else db
        .ok (true, db)

/-- The reserved leases no run will ever settle: answers without a run, and model attempts. -/
def orphanedReservations (db : AgentDb) (scope : RecoveryScope) (staleBefore : Int) :
    List OrphanedReservation :=
  let rows := db.quota.ledger.filter fun q =>
    q.status == .reserved && decide (q.reservedAt ≤ staleBefore) &&
      (q.resource == .answer && !(db.runs.any fun r => r.answerQuotaLeaseId == some q.leaseId) ||
        q.resource == .modelAttempt) &&
      scope.allowsUser q.actorUserId
  let groups := (rows.map fun q =>
    ({ leaseId := q.leaseId, userId := q.actorUserId, resource := q.resource } :
      OrphanedReservation)).dedup
  (groups.insertionSort fun l r => l.leaseId ≤ r.leaseId).take MAX_RECOVERY_BATCH

/-- The transaction on one orphaned lease. -/
def releaseOrphan (db : AgentDb) (orphan : OrphanedReservation) :
    Except AgentError (Unit × AgentDb) := do
  let (reservation, quota) ← inQuota <| transitionQuotaReservation db.quota
    { leaseId := orphan.leaseId, actorUserId := some orphan.userId
      reason := some (if orphan.resource = .answer then "agent_run_never_persisted"
        else "model_attempt_never_committed") }
    .released
  if reservation.resource ≠ orphan.resource ∨ reservation.status ≠ .released then
    .error .orphanNotReleased
  else
    .ok ((), { db with quota })

end Ordered

/-! ## The machine -/

/-- The tables, and what the server processes hold between transactions. -/
structure System where
  db : AgentDb
  created : List CreatedRun
  stale : List RecoveryCandidate
  orphans : List OrphanedReservation
  deriving DecidableEq, Repr

/-- One transaction, or one reading of a recovery. The other users of the quota store
    (`reserve`, `commit`, `release`) may run at any time. -/
inductive AgentOp where
  | createInitial (now : Int) (input : CreateInitialInput)
  | createAction (now : Int) (input : CreateActionInput)
  | complete (now : Int) (input : CompleteInput)
  | fail (now : Int) (input : FailInput)
  | requestCancellation (now : Int) (userId : String) (runId : Nat)
  | readStale (scope : RecoveryScope) (staleBefore : Int)
  | recover (now : Int) (candidate : RecoveryCandidate)
  | readOrphans (scope : RecoveryScope) (staleBefore : Int)
  | releaseOrphan (orphan : OrphanedReservation)
  | reserveQuota (now : Int) (input : ReserveInput)
  | commitQuota (input : TransitionInput)
  | releaseQuota (input : TransitionInput)

/-- The handles a create transaction hands out. -/
def CreateRunResult.handles : CreateRunResult → List CreatedRun
  | .created run => [run]
  | .busy _ | .replay _ | .requestUsed => []

/-- A create transaction: on success its handle joins the pool. -/
def System.commitCreate (s : System) (tx : Except AgentError (CreateRunResult × AgentDb)) : System :=
  match tx with
  | .ok (result, db) => { s with db, created := s.created ++ result.handles }
  | .error _ => s

def System.commitDb {β : Type} (s : System) (tx : Except AgentError (β × AgentDb)) : System :=
  { s with db := Machine.commit s.db tx }

section Machine

variable [Collation] [StoredFormats]

def System.commitQuota (s : System) (a : QuotaAction) : System :=
  { s with db := { s.db with quota := Quota.step s.db.quota a } }

def step (s : System) : AgentOp → System
  | .createInitial now input => s.commitCreate (createInitial s.db now input)
  | .createAction now input => s.commitCreate (createAction s.db now input)
  | .complete now input =>
      if s.created.contains input.run then s.commitDb (complete s.db now input) else s
  | .fail now input => if s.created.contains input.run then s.commitDb (fail s.db now input) else s
  | .requestCancellation now userId runId =>
      s.commitDb (requestCancellation s.db now userId runId)
  | .readStale scope staleBefore =>
      { s with stale := s.stale ++ staleCandidates s.db scope staleBefore }
  | .recover now candidate =>
      if s.stale.contains candidate then s.commitDb (recoverCandidate s.db now candidate) else s
  | .readOrphans scope staleBefore =>
      { s with orphans := s.orphans ++ orphanedReservations s.db scope staleBefore }
  | .releaseOrphan orphan =>
      if s.orphans.contains orphan then s.commitDb (releaseOrphan s.db orphan) else s
  | .reserveQuota now input => s.commitQuota (.reserve now input)
  | .commitQuota input => s.commitQuota (.commit input)
  | .releaseQuota input => s.commitQuota (.release input)

/-- Any users and any conversations, no run yet. -/
def initial (users : List UserRow) (conversations : List ConversationRow) : System where
  db :=
    { quota := Quota.initial users, conversations, messages := [], turns := [], runs := []
      nextId := 0 }
  created := []
  stale := []
  orphans := []

end Machine

end OpenVac.Agent
