/-
  File:      OpenVac/Agent/AnswerLeases.lean
  Subject:   Who holds a reserved answer: the create requests of server/agent/http-v2.ts around
             the run machine, and the deletion of conversations (server/api/store.ts).

  * `CreateRequest` -- a request between `reserveAnswerQuota` and its answer, with the phase it
    is in; `Answering` -- the run machine with the requests that have not returned.
  * `clearConversations` -- the hard delete of `clearConversationData`, with its cascades;
    `deleteConversation` -- the soft delete.
  * `orphaned` -- a record of the leases whose holder went away without settling them. No
    operation reads it.

  Left out: what the requests do with model attempts after their reservation, and the chat storage
  both deletions also touch.
-/
import OpenVac.Agent.RunLifecycle

namespace OpenVac.Agent

open Rows Quota

/-! ## 1. The deletion of conversations -/

/-- `deleteConversation`: the row stays. -/
def deleteConversation (db : AgentDb) (now : Int) (userId : String) (conversationId : Nat) :
    AgentDb :=
  { db with
    conversations := updateWhere
      (fun c => c.id == conversationId && c.userId == userId && c.deletedAt.isNone)
      (fun c => { c with deletedAt := some now }) db.conversations }

/-- The conversation is one of the user's. -/
def AgentDb.isOwn (db : AgentDb) (userId : String) (conversationId : Nat) : Bool :=
  db.conversations.any fun c => c.id == conversationId && c.userId == userId

def AgentDb.clearsMessage (db : AgentDb) (userId : String) (messageId : Nat) : Bool :=
  db.messages.any fun m => m.id == messageId && db.isOwn userId m.conversationId

/-- A turn goes with its conversation and with its question. -/
def AgentDb.clearsTurnRow (db : AgentDb) (userId : String) (t : TurnRow) : Bool :=
  db.isOwn userId t.conversationId || db.clearsMessage userId t.userMessageId

/-- A run goes with its turn and with its message. -/
def AgentDb.clearsRun (db : AgentDb) (userId : String) (r : RunRow) : Bool :=
  (db.turns.any fun t => t.id == r.turnId && db.clearsTurnRow userId t) ||
    db.clearsMessage userId r.assistantMessageId

/-- `DELETE FROM conversation WHERE user_id = userId`, with `ON DELETE CASCADE`. -/
def clearConversations (db : AgentDb) (userId : String) : AgentDb :=
  { db with
    conversations := deleteWhere (fun c => c.userId == userId) db.conversations
    messages := deleteWhere (fun m => db.isOwn userId m.conversationId) db.messages
    turns := deleteWhere (db.clearsTurnRow userId) db.turns
    runs := deleteWhere (db.clearsRun userId) db.runs }

/-- The leases of the runs that `clearConversations` deletes. -/
def clearedLeases (db : AgentDb) (userId : String) : List Nat :=
  (db.runs.filter (db.clearsRun userId)).filterMap (·.answerQuotaLeaseId)

/-! ## 2. The create requests -/

/-- Where a create request stands: it has reserved its answer; also its model attempt; or it will
    have no run and must give the answer back. -/
inductive RequestPhase where
  | answerReserved
  | reserved
  | releasing
  deriving DecidableEq, Repr

structure CreateRequest where
  userId : String
  clientRequestId : String
  leaseId : Nat
  phase : RequestPhase
  deriving DecidableEq, Repr

/-- The run machine, the create requests that have not returned, and the record of the leases
    whose holder is gone. -/
structure Answering where
  system : System
  requests : List CreateRequest
  orphaned : List Nat
  deriving DecidableEq, Repr

namespace Answering

def withQuota (s : Answering) (quota : QuotaDb) : Answering :=
  { s with system := { s.system with db := { s.system.db with quota } } }

/-- The request goes on in another phase. -/
def enter (s : Answering) (leaseId : Nat) (phase : RequestPhase) : Answering :=
  { s with
    requests := updateWhere (fun r => r.leaseId == leaseId) (fun r => { r with phase }) s.requests }

/-- The request returns. -/
def close (s : Answering) (leaseId : Nat) : Answering :=
  { s with requests := deleteWhere (fun r => r.leaseId == leaseId) s.requests }

def orphan (s : Answering) (leaseIds : List Nat) : Answering :=
  { s with orphaned := s.orphaned ++ leaseIds }

/-- The request that holds a lease, in a phase. -/
def requestIn (s : Answering) (leaseId : Nat) (phase : RequestPhase) : Option CreateRequest :=
  s.requests.find? fun r => r.leaseId == leaseId && r.phase == phase

section Requests

variable [Collation]

/-- `reserveAnswerQuota` at the start of a create request. -/
def reserveAnswer (s : Answering) (now : Int) (input : ReserveInput) : Answering :=
  match reserve s.system.db.quota now { input with resource := .answer } with
  | .error _ => s
  | .ok (answer, quota) =>
      let s := s.withQuota quota
      if answer.idempotent || answer.status ≠ .reserved then s
      else
        { s with
          requests := s.requests ++
            [⟨input.actorUserId, input.clientRequestId, answer.leaseId, .answerReserved⟩] }

/-- `reserveModelAttemptQuota` for the request: it may go on to create its run. -/
def reserveModelAttempt (s : Answering) (now : Int) (input : ReserveInput) (leaseId : Nat) :
    Answering :=
  match s.requestIn leaseId .answerReserved with
  | none => s
  | some _ =>
      match reserve s.system.db.quota now { input with resource := .modelAttempt } with
      | .error _ => s.enter leaseId .releasing
      | .ok (modelAttempt, quota) =>
          if modelAttempt.idempotent || modelAttempt.status ≠ .reserved then
            (s.withQuota quota).enter leaseId .releasing
          else (s.withQuota quota).enter leaseId .reserved

/-- The answer goes back, and the request returns whether or not that worked. -/
def releaseReservation (s : Answering) (leaseId : Nat) (reason : String) : Answering :=
  match s.requestIn leaseId .releasing with
  | none => s
  | some request =>
      match transitionQuotaReservation s.system.db.quota
          { leaseId, actorUserId := some request.userId, reason := some reason } .released with
      | .ok (_, quota) => (s.withQuota quota).close leaseId
      | .error _ => (s.close leaseId).orphan [leaseId]

end Requests

/-- After a create transaction: the request returns with its run, or must release. -/
def settleCreate (s : Answering) (leaseId : Nat)
    (tx : Except AgentError (CreateRunResult × AgentDb)) : Answering :=
  let s := { s with system := s.system.commitCreate tx }
  match tx with
  | .ok (.created _, _) => s.close leaseId
  | .ok _ => s.enter leaseId .releasing
  | .error _ => s.enter leaseId .releasing

end Answering

/-! ## 3. The machine -/

/-- What the rest of the server does to runs and quotas: everything but creating runs and
    reserving answers. -/
def AgentOp.isOther : AgentOp → Bool
  | .createInitial .. | .createAction .. => false
  | .reserveQuota _ input => input.resource != .answer
  | _ => true

inductive AnswerOp where
  | reserveAnswer (now : Int) (input : ReserveInput)
  | reserveModelAttempt (now : Int) (input : ReserveInput) (leaseId : Nat)
  | createInitial (now : Int) (input : CreateInitialInput)
  | createAction (now : Int) (input : CreateActionInput)
  | releaseReservation (leaseId : Nat) (reason : String)
  /-- The process ends, or its release does not reach the database. -/
  | lose (leaseId : Nat)
  | deleteConversation (now : Int) (userId : String) (conversationId : Nat)
  | clearConversationData (userId : String)
  | other (op : AgentOp)

section Machine

variable [Collation] [StoredFormats]

def Answering.step (s : Answering) : AnswerOp → Answering
  | .reserveAnswer now input => s.reserveAnswer now input
  | .reserveModelAttempt now input leaseId => s.reserveModelAttempt now input leaseId
  | .createInitial now input =>
      match s.requestIn input.answerQuotaLeaseId .reserved with
      | none => s
      | some request =>
          if request.userId == input.userId && request.clientRequestId == input.clientRequestId then
            s.settleCreate input.answerQuotaLeaseId (createInitial s.system.db now input)
          else s
  | .createAction now input =>
      match s.requestIn input.answerQuotaLeaseId .reserved with
      | none => s
      | some request =>
          if request.userId == input.userId && request.clientRequestId == input.clientRequestId then
            s.settleCreate input.answerQuotaLeaseId (createAction s.system.db now input)
          else s
  | .releaseReservation leaseId reason => s.releaseReservation leaseId reason
  | .lose leaseId =>
      if s.requests.any fun r => r.leaseId == leaseId then (s.close leaseId).orphan [leaseId] else s
  | .deleteConversation now userId conversationId =>
      { s with
        system :=
          { s.system with db := deleteConversation s.system.db now userId conversationId } }
  | .clearConversationData userId =>
      { s with
        system := { s.system with db := clearConversations s.system.db userId } }.orphan
          (clearedLeases s.system.db userId)
  | .other op => if op.isOther then { s with system := Agent.step s.system op } else s

def Answering.start (users : List UserRow) (conversations : List ConversationRow) : Answering :=
  ⟨initial users conversations, [], []⟩

end Machine

end OpenVac.Agent
