/-
  File:      OpenVac/Agent/RunStore.lean
  Subject:   The run store: server/agent/run-store.ts and the settlement half of
             server/agent/run-settlement.ts, over the tables `conversation`, `message`,
             `conversation_turn`, `agent_run` (db/schema/chat.ts, db/schema/agent.ts) and the
             quota tables.

  * Every transaction is a function to `Except AgentError (result × tables)`; the advisory
    locks and the row locks serialise them. `now` is the clock of the transaction.
  * Unique indexes and CHECKs are part of the inserts (`insertMessage`, `insertTurn`,
    `insertRun`).
  * Every update of `agent_run` refreshes `updated_at` (`$onUpdate` in the schema).
  * `StoredFormats` stands for the schema parsers of stored JSON: they decide only what
    `createAction` copies and which of two read-only results a repeated request gets.

  Left out: columns nothing here reads (modes, models, counters, titles, citations, the
  artifact storage that a failed run detaches).
-/
import OpenVac.Quota.Lease

namespace OpenVac.Agent

open Rows Quota

inductive RunStatus where
  | pending
  | running
  | completed
  | incomplete
  | failed
  | cancelled
  deriving DecidableEq, Repr

/-- `["pending", "running"].includes(status)`. -/
def RunStatus.isActive : RunStatus → Bool
  | .pending | .running => true
  | .completed | .incomplete | .failed | .cancelled => false

/-- `agent_run_action`; `continued` is the source's `continue`. -/
inductive AgentAction where
  | initial
  | retry
  | regenerate
  | continued
  deriving DecidableEq, Repr

inductive SettlementStatus where
  | pending
  | completed
  deriving DecidableEq, Repr

inductive MessageRole where
  | user
  | assistant
  | system
  | tool
  deriving DecidableEq, Repr

inductive MessageStatus where
  | pending
  | streaming
  | completed
  | incomplete
  | failed
  | cancelled
  deriving DecidableEq, Repr

inductive InputMessagePart where
  | text (text : String)
  | link (url : String) (label : Option String)
  | attachment (attachmentId : String)
  deriving DecidableEq, Repr

/-- The schema parsers of stored JSON: `inputMessagePartsSchema.safeParse` and
    `parseStoredAnswer(value) !== undefined`. -/
class StoredFormats where
  inputMessageParts : List InputMessagePart → Option (List InputMessagePart)
  isStoredAnswer : String → Bool

inductive AgentError where
  /-- `RunStoreError`. -/
  | runStore (code : String)
  | accountDeletionInProgress
  | answerQuotaNotSettled (expected : QuotaTarget)
  | orphanNotReleased
  | quota (error : QuotaError)
  | uniqueViolation
  | checkViolation
  deriving DecidableEq, Repr

/-! ## 1. The tables -/

structure ConversationRow where
  id : Nat
  userId : String
  deletedAt : Option Int
  deriving DecidableEq, Repr

structure MessageRow where
  id : Nat
  conversationId : Nat
  userId : String
  sequence : Int
  role : MessageRole
  status : MessageStatus
  content : String
  clientRequestId : Option String
  turnId : Nat
  inputParts : List InputMessagePart
  errorCode : Option String
  errorMessage : Option String
  deriving DecidableEq, Repr

structure TurnRow where
  id : Nat
  conversationId : Nat
  userMessageId : Nat
  ordinal : Int
  selectedRunId : Option Nat
  deriving DecidableEq, Repr

structure RunRow where
  id : Nat
  turnId : Nat
  userId : String
  assistantMessageId : Nat
  clientRequestId : String
  version : Int
  action : AgentAction
  status : RunStatus
  answerQuotaLeaseId : Option Nat
  answerQuotaStatus : Option QuotaReservationStatus
  settlementStatus : SettlementStatus
  answerPayload : Option String
  cancelRequestedAt : Option Int
  errorCode : Option String
  errorMessage : Option String
  updatedAt : Int
  deriving DecidableEq, Repr

structure AgentDb where
  quota : QuotaDb
  conversations : List ConversationRow
  messages : List MessageRow
  turns : List TurnRow
  runs : List RunRow
  nextId : Nat
  deriving DecidableEq, Repr

/-- `INSERT INTO message`, with `message_conversation_sequence_unique` and
    `message_conversation_client_request_unique`. -/
def AgentDb.insertMessage (db : AgentDb) (row : MessageRow) : Except AgentError AgentDb :=
  if isInt4 row.sequence then
    if db.messages.any fun m => m.conversationId == row.conversationId &&
        (m.sequence == row.sequence ||
          m.clientRequestId.isSome && m.clientRequestId == row.clientRequestId) then
      .error .uniqueViolation
    else
      .ok { db with messages := db.messages ++ [row] }
  else
    .error .checkViolation

/-- `INSERT INTO conversation_turn`, with its two unique indexes. -/
def AgentDb.insertTurn (db : AgentDb) (row : TurnRow) : Except AgentError AgentDb :=
  if isInt4 row.ordinal then
    if db.turns.any fun t => t.conversationId == row.conversationId && t.ordinal == row.ordinal ||
        t.userMessageId == row.userMessageId then
      .error .uniqueViolation
    else
      .ok { db with turns := db.turns ++ [row] }
  else
    .error .checkViolation

/-- `INSERT INTO agent_run`, with its three unique indexes, `agent_run_version_positive` and
    `agent_run_answer_quota_shape_valid`. -/
def AgentDb.insertRun (db : AgentDb) (row : RunRow) : Except AgentError AgentDb :=
  if isInt4 row.version && decide (0 < row.version) &&
      row.answerQuotaLeaseId.isSome == row.answerQuotaStatus.isSome then
    if db.runs.any fun r => r.userId == row.userId && r.clientRequestId == row.clientRequestId ||
        r.turnId == row.turnId && r.version == row.version ||
        r.answerQuotaLeaseId.isSome && r.answerQuotaLeaseId == row.answerQuotaLeaseId then
      .error .uniqueViolation
    else
      .ok { db with runs := db.runs ++ [row] }
  else
    .error .checkViolation

/-- `UPDATE agent_run SET f WHERE id = runId`. -/
def AgentDb.updateRun (db : AgentDb) (runId : Nat) (f : RunRow → RunRow) : AgentDb :=
  { db with runs := updateWhere (fun r => r.id == runId) f db.runs }

/-- `UPDATE message SET f WHERE id = messageId`. -/
def AgentDb.updateMessage (db : AgentDb) (messageId : Nat) (f : MessageRow → MessageRow) :
    AgentDb :=
  { db with messages := updateWhere (fun m => m.id == messageId) f db.messages }

/-! ## 2. Inputs and results -/

/-- `CreatedRun`: the handle `complete` and `fail` are called with. -/
structure CreatedRun where
  runId : Nat
  turnId : Nat
  conversationId : Nat
  userMessageId : Nat
  assistantMessageId : Nat
  answerVersion : Int
  question : String
  inputParts : List InputMessagePart
  action : AgentAction
  deriving DecidableEq, Repr

/-- The keys of a `StoredRunReplay`; its answer and metadata are read back unchanged. -/
structure StoredRunReplay where
  runId : Nat
  turnId : Nat
  conversationId : Nat
  userMessageId : Nat
  messageId : Nat
  answerVersion : Int
  status : RunStatus
  deriving DecidableEq, Repr

inductive CreateRunResult where
  | created (run : CreatedRun)
  | busy (runId : Nat)
  | replay (replay : StoredRunReplay)
  | requestUsed
  deriving DecidableEq, Repr

structure CreateInitialInput where
  userId : String
  conversationId : Option Nat
  question : String
  inputParts : Option (List InputMessagePart)
  clientRequestId : String
  answerQuotaLeaseId : Nat
  deriving DecidableEq, Repr

structure CreateActionInput where
  userId : String
  turnId : Nat
  clientRequestId : String
  action : AgentAction
  answerQuotaLeaseId : Nat
  deriving DecidableEq, Repr

/-- The two statuses `complete` accepts. -/
inductive CompletionStatus where
  | completed
  | incomplete
  deriving DecidableEq, Repr

/-- `content` is the rendered answer, `answerPayload` the answer itself. -/
structure CompleteInput where
  userId : String
  run : CreatedRun
  content : String
  answerPayload : String
  status : Option CompletionStatus
  deriving DecidableEq, Repr

/-- The two statuses `fail` accepts. -/
inductive FailureStatus where
  | failed
  | cancelled
  deriving DecidableEq, Repr

structure FailInput where
  run : CreatedRun
  status : FailureStatus
  code : String
  message : String
  deriving DecidableEq, Repr

inductive CancellationResult where
  | accepted
  | alreadyFinished
  | notFound
  deriving DecidableEq, Repr

/-- `AgentRunTerminalStatus`. -/
inductive TerminalStatus where
  | completed
  | incomplete
  | failed
  | cancelled
  deriving DecidableEq, Repr

@[simp] def TerminalStatus.run : TerminalStatus → RunStatus
  | .completed => .completed
  | .incomplete => .incomplete
  | .failed => .failed
  | .cancelled => .cancelled

def CompletionStatus.terminal : CompletionStatus → TerminalStatus
  | .completed => .completed
  | .incomplete => .incomplete

def FailureStatus.terminal : FailureStatus → TerminalStatus
  | .failed => .failed
  | .cancelled => .cancelled

/-- `input.status === "completed" ? "committed" : "released"`. -/
def TerminalStatus.expected (status : TerminalStatus) : QuotaTarget :=
  if status = .completed then .committed else .released

/-! ## 3. Shared parts -/

def assertAccountWritable (db : AgentDb) (userId : String) : Except AgentError Unit :=
  match db.quota.users.find? fun u => u.id == userId with
  | none => .error .accountDeletionInProgress
  | some account =>
      if account.deletionRequestedAt.isSome then .error .accountDeletionInProgress else .ok ()

/-- An error of the quota store inside an agent transaction. -/
def inQuota {α : Type} (tx : Except QuotaError α) : Except AgentError α :=
  tx.mapError .quota

section Settlement

variable [Collation]

/-- `settleAnswerQuotaInTransaction`. -/
def settleAnswerQuotaInTransaction (quota : QuotaDb) (leaseId : Option Nat) (userId : String)
    (status : TerminalStatus) (reason : String) :
    Except AgentError (Option QuotaReservationStatus × QuotaDb) :=
  match leaseId with
  | none => .ok (none, quota)
  | some leaseId => do
      let (reservation, quota) ← inQuota <| transitionQuotaReservation quota
        { leaseId, actorUserId := some userId
          reason := if status.expected = .committed then none else some reason }
        status.expected
      if reservation.resource ≠ .answer ∨ reservation.status ≠ status.expected.status then
        .error (.answerQuotaNotSettled status.expected)
      else
        .ok (some status.expected.status, quota)

end Settlement

/-- The conversation a turn belongs to, by the inner join on `conversation_turn`. -/
def AgentDb.turnOf (db : AgentDb) (run : RunRow) : Option TurnRow :=
  db.turns.find? fun t => t.id == run.turnId

/-- `findActiveRun`. -/
def findActiveRun (db : AgentDb) (conversationId : Nat) : Option RunRow :=
  db.runs.find? fun r =>
    r.status.isActive && db.turns.any fun t => t.id == r.turnId && t.conversationId == conversationId

section Formats

variable [StoredFormats]

/-- `findRunByClientRequest`. -/
def findRunByClientRequest (db : AgentDb) (userId clientRequestId : String) :
    Option CreateRunResult := do
  let run ← db.runs.find? fun r => r.userId == userId && r.clientRequestId == clientRequestId
  let turn ← db.turnOf run
  let message ← db.messages.find? fun m => m.id == run.assistantMessageId
  if run.status.isActive then
    some (.busy run.id)
  else if (run.status = .completed ∨ run.status = .incomplete) ∧
      (run.answerPayload.map StoredFormats.isStoredAnswer).getD false then
    some <| .replay
      { runId := run.id, turnId := run.turnId, conversationId := turn.conversationId
        userMessageId := turn.userMessageId, messageId := message.id
        answerVersion := run.version, status := run.status }
  else
    some .requestUsed

def storedInputParts (parts : List InputMessagePart) (fallbackText : String) :
    List InputMessagePart :=
  (StoredFormats.inputMessageParts parts).getD [.text fallbackText]

/-! ## 4. `createInitial` and `createAction` -/

/-- The conversation of a first question: the caller's own, or a new one. -/
def conversationFor (db : AgentDb) (input : CreateInitialInput) : Except AgentError (Nat × AgentDb) :=
  match input.conversationId with
  | some conversationId =>
      if db.conversations.any fun c =>
          c.id == conversationId && c.userId == input.userId && c.deletedAt.isNone then
        .ok (conversationId, db)
      else
        .error (.runStore "CONVERSATION_NOT_FOUND")
  | none =>
      let row : ConversationRow := { id := db.nextId, userId := input.userId, deletedAt := none }
      .ok (db.nextId,
        { db with conversations := db.conversations ++ [row], nextId := db.nextId + 1 })

/-- `max(message.sequence)` of a conversation. -/
def lastSequence (db : AgentDb) (conversationId : Nat) : Option Int :=
  maxOf (·.sequence) (db.messages.filter fun m => m.conversationId == conversationId)

/-- `max(conversation_turn.ordinal)` of a conversation. -/
def lastOrdinal (db : AgentDb) (conversationId : Nat) : Option Int :=
  maxOf (·.ordinal) (db.turns.filter fun t => t.conversationId == conversationId)

/-- `max(agent_run.version)` of a turn. -/
def lastVersion (db : AgentDb) (turnId : Nat) : Option Int :=
  maxOf (·.version) (db.runs.filter fun r => r.turnId == turnId)

/-- The assistant's message of a run being created. -/
def assistantMessage (id conversationId : Nat) (userId : String) (sequence : Int) (turnId : Nat) :
    MessageRow where
  id := id
  conversationId := conversationId
  userId := userId
  sequence := sequence
  role := .assistant
  status := .streaming
  content := ""
  clientRequestId := none
  turnId := turnId
  inputParts := []
  errorCode := none
  errorMessage := none

/-- The row of a run being created. -/
def newRun (id turnId : Nat) (userId : String) (assistantMessageId : Nat) (clientRequestId : String)
    (version : Int) (action : AgentAction) (answerQuotaLeaseId : Nat) (now : Int) : RunRow where
  id := id
  turnId := turnId
  userId := userId
  assistantMessageId := assistantMessageId
  clientRequestId := clientRequestId
  version := version
  action := action
  status := .running
  answerQuotaLeaseId := some answerQuotaLeaseId
  answerQuotaStatus := some .reserved
  settlementStatus := .pending
  answerPayload := none
  cancelRequestedAt := none
  errorCode := none
  errorMessage := none
  updatedAt := now

/-- `createInitial` past the busy check: two messages, a turn and its first run. -/
def insertInitial (db : AgentDb) (now : Int) (input : CreateInitialInput) (conversationId : Nat) :
    Except AgentError (CreateRunResult × AgentDb) := do
  let userSequence := (lastSequence db conversationId).getD 0 + 1
  let ordinal := (lastOrdinal db conversationId).getD 0 + 1
  let userMessageId := db.nextId
  let assistantMessageId := db.nextId + 1
  let turnId := db.nextId + 2
  let runId := db.nextId + 3
  let inputParts := input.inputParts.getD [.text input.question]
  let db := { db with nextId := db.nextId + 4 }
  let db ← db.insertMessage
    { id := userMessageId, conversationId, userId := input.userId, sequence := userSequence
      role := .user, status := .completed, content := input.question
      clientRequestId := some input.clientRequestId, turnId, inputParts
      errorCode := none, errorMessage := none }
  let db ← db.insertMessage <|
    assistantMessage assistantMessageId conversationId input.userId (userSequence + 1) turnId
  let db ← db.insertTurn
    { id := turnId, conversationId, userMessageId, ordinal, selectedRunId := none }
  let db ← db.insertRun <| newRun runId turnId input.userId assistantMessageId
    input.clientRequestId 1 .initial input.answerQuotaLeaseId now
  .ok
    (.created
      { runId, turnId, conversationId, userMessageId, assistantMessageId, answerVersion := 1
        question := input.question, inputParts, action := .initial },
      db)

def createInitial (db : AgentDb) (now : Int) (input : CreateInitialInput) :
    Except AgentError (CreateRunResult × AgentDb) := do
  assertAccountWritable db input.userId
  match findRunByClientRequest db input.userId input.clientRequestId with
  | some replay => .ok (replay, db)
  | none => do
      let (conversationId, db) ← conversationFor db input
      match findActiveRun db conversationId with
      | some busy => .ok (.busy busy.id, db)
      | none => insertInitial db now input conversationId

/-- The run with the largest version of a turn. -/
def latestRun (db : AgentDb) (turnId : Nat) : Option RunRow :=
  maxBy (·.version) (db.runs.filter fun r => r.turnId == turnId)

/-- `actionAllowed`, from the status of the latest run. -/
def actionAllowed (action : AgentAction) (latest : Option RunStatus) : Bool :=
  (action == .retry && (latest == some .failed || latest == some .cancelled)) ||
    (action == .continued && latest == some .incomplete) ||
    (action == .regenerate && latest == some .completed)

/-- The turn an action is about, when it and its conversation are the caller's. -/
def ownTurn (db : AgentDb) (userId : String) (turnId : Nat) : Option (TurnRow × MessageRow) := do
  let turn ← db.turns.find? fun t => t.id == turnId
  let message ← db.messages.find? fun m => m.id == turn.userMessageId
  let _ ← db.conversations.find? fun c =>
    c.id == turn.conversationId && c.userId == userId && c.deletedAt.isNone
  some (turn, message)

/-- `createAction` past its checks: one message and one run. -/
def insertAction (db : AgentDb) (now : Int) (input : CreateActionInput) (turn : TurnRow)
    (question : MessageRow) : Except AgentError (CreateRunResult × AgentDb) := do
  let sequence := (lastSequence db turn.conversationId).getD 0 + 1
  let answerVersion := (lastVersion db turn.id).getD 0 + 1
  let assistantMessageId := db.nextId
  let runId := db.nextId + 1
  let db := { db with nextId := db.nextId + 2 }
  let db ← db.insertMessage <|
    assistantMessage assistantMessageId turn.conversationId input.userId sequence turn.id
  let db ← db.insertRun <| newRun runId turn.id input.userId assistantMessageId
    input.clientRequestId answerVersion input.action input.answerQuotaLeaseId now
  .ok
    (.created
      { runId, turnId := turn.id, conversationId := turn.conversationId
        userMessageId := turn.userMessageId, assistantMessageId, answerVersion
        question := question.content
        inputParts := storedInputParts question.inputParts question.content
        action := input.action },
      db)

def createAction (db : AgentDb) (now : Int) (input : CreateActionInput) :
    Except AgentError (CreateRunResult × AgentDb) := do
  assertAccountWritable db input.userId
  match findRunByClientRequest db input.userId input.clientRequestId with
  | some replay => .ok (replay, db)
  | none =>
      match ownTurn db input.userId input.turnId with
      | none => .error (.runStore "TURN_NOT_FOUND")
      | some (turn, question) =>
          match findActiveRun db turn.conversationId with
          | some busy => .ok (.busy busy.id, db)
          | none =>
              if actionAllowed input.action ((latestRun db turn.id).map (·.status)) then
                insertAction db now input turn question
              else
                .error (.runStore "ACTION_NOT_ALLOWED")

end Formats

/-! ## 5. `complete`, `fail` and `requestCancellation` -/

def CompletionStatus.message : CompletionStatus → MessageStatus
  | .completed => .completed
  | .incomplete => .incomplete

def FailureStatus.message : FailureStatus → MessageStatus
  | .failed => .failed
  | .cancelled => .cancelled

/-- `settlement_status`, the answer's quota status and the status, as the last update of a
    settling transaction writes them. -/
def RunRow.settle (status : TerminalStatus) (answerQuotaStatus : Option QuotaReservationStatus)
    (now : Int) (r : RunRow) : RunRow :=
  { r with status := status.run, answerQuotaStatus, settlementStatus := .completed, updatedAt := now }

/-- The updates of `complete` before the settlement: the assistant's message, and the turn's
    selection when the answer is complete. -/
def writeAnswer (db : AgentDb) (input : CompleteInput) (status : CompletionStatus) : AgentDb :=
  let db := db.updateMessage input.run.assistantMessageId fun m =>
    { m with content := input.content, status := status.message }
  if status = .completed then
    { db with
      turns := updateWhere (fun t => t.id == input.run.turnId)
        (fun t => { t with selectedRunId := some input.run.runId }) db.turns }
  else db

section Ordered

variable [Collation]

def complete (db : AgentDb) (now : Int) (input : CompleteInput) :
    Except AgentError (Unit × AgentDb) := do
  let status := input.status.getD .completed
  assertAccountWritable db input.userId
  match db.runs.find? fun r => r.id == input.run.runId with
  | none => .error (.runStore "RUN_NOT_COMPLETABLE")
  | some current =>
      if !current.status.isActive || current.cancelRequestedAt.isSome then
        .error (.runStore "RUN_NOT_COMPLETABLE")
      else
        match current.answerQuotaLeaseId with
        | none => .error (.runStore "ANSWER_QUOTA_LEASE_MISSING")
        | some leaseId => do
            let db := writeAnswer db input status
            let (answerQuotaStatus, quota) ← settleAnswerQuotaInTransaction db.quota (some leaseId)
              input.userId status.terminal "agent_run_incomplete"
            let db := { db with quota }
            .ok ((), db.updateRun input.run.runId fun r =>
              { r.settle status.terminal answerQuotaStatus now with
                answerPayload := some input.answerPayload })

/-- The result of `fail`. -/
structure FailResult where
  answerQuotaStatus : Option QuotaReservationStatus
  deriving DecidableEq, Repr

def failedContent : FailureStatus → String
  | .cancelled => "本次回答已取消，未扣除成功回答额度。"
  | .failed => "本次回答未完成，可重试后重新生成。"

def fail (db : AgentDb) (now : Int) (input : FailInput) :
    Except AgentError (FailResult × AgentDb) :=
  match db.runs.find? fun r => r.id == input.run.runId && r.status.isActive with
  | none =>
      -- nothing was updated: the run is missing or terminal already
      match db.runs.find? fun r => r.id == input.run.runId with
      | none => .error (.runStore "RUN_NOT_FAILABLE")
      | some settled =>
          if (settled.status = .failed ∨ settled.status = .cancelled) ∧
              settled.settlementStatus = .completed ∧
              (settled.answerQuotaStatus = some .released ∨ settled.answerQuotaStatus = none) then
            .ok (⟨settled.answerQuotaStatus⟩, db)
          else
            .error (.runStore "RUN_NOT_FAILABLE")
  | some transitioned => do
      let (answerQuotaStatus, quota) ← settleAnswerQuotaInTransaction db.quota
        transitioned.answerQuotaLeaseId transitioned.userId input.status.terminal
        (if input.status = .cancelled then "agent_run_cancelled" else "agent_run_failed")
      if answerQuotaStatus = some .committed then
        .error (.runStore "ANSWER_QUOTA_RELEASE_FAILED")
      else do
        let db := { db with quota }
        let db := db.updateRun input.run.runId fun r =>
          { r.settle input.status.terminal answerQuotaStatus now with
            errorCode := some input.code, errorMessage := some input.message }
        let db := db.updateMessage input.run.assistantMessageId fun m =>
          { m with
            status := input.status.message, content := failedContent input.status
            errorCode := some input.code, errorMessage := some input.message }
        .ok (⟨answerQuotaStatus⟩, db)

end Ordered

def requestCancellation (db : AgentDb) (now : Int) (userId : String) (runId : Nat) :
    Except AgentError (CancellationResult × AgentDb) :=
  match db.runs.find? fun r => r.id == runId && r.userId == userId &&
      db.turns.any fun t => t.id == r.turnId with
  | none => .ok (.notFound, db)
  | some current =>
      if current.status.isActive then
        .ok (.accepted, db.updateRun runId fun r =>
          { r with cancelRequestedAt := some now, updatedAt := now })
      else
        .ok (.alreadyFinished, db)

end OpenVac.Agent
