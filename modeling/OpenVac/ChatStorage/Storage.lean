/-
  File:      OpenVac/ChatStorage/Storage.lean
  Subject:   The chat storage of one user as a machine: complete transactions of the services and
             the worker, in any order, on the tables.

  * `issued` -- the ids `randomUUID` and `gen_random_uuid` have handed out; none comes twice.
  * `persisting`, `parsing`, `deleting` -- what calls and workers hold in memory between their
    transactions: reserved artifact files, claimed parse jobs, claimed deletions. A worker that
    lost its lease still holds its job.
  * Creating conversations, messages and runs, and settling runs, is the environment's.
-/
import OpenVac.ChatStorage.ParseJobs

namespace OpenVac.ChatStorage

open Rows JsString

/-- A call of `persistFile` between its reservation and its end. -/
structure PersistCall where
  fileId : Uuid
  artifactId : Uuid
  objectKey : ObjectKey
  deriving DecidableEq, Repr

structure Storage where
  now : Int
  tables : Tables
  issued : List Uuid
  persisting : List PersistCall
  parsing : List ChatAttachmentParseJob
  deleting : List ClaimedDeletion

def Storage.initial : Storage := ⟨0, .empty, [], [], [], []⟩

/-- What a worker has read of a document. -/
inductive ChunkSource where
  | localText (text : Text)
  | parsed (document : ParsedDocument)

def chunksOf [Sha256] (mimeType : String) :
    ChunkSource → Except StorageError (List PrivateAttachmentChunk)
  | .localText text => chunksForLocalText mimeType text
  | .parsed document => chunksForParsedDocument document

def UPLOAD_URL_TTL_MS : Int := 900000

def ORPHAN_UPLOAD_TTL_MS : Int := 86400000

inductive Action where
  | tick (ms : Nat)
  -- the environment
  | addConversation (id : Uuid)
  | addMessage (message : Message)
  | addRun (run : AgentRun)
  | settleRun (id : Uuid)
  -- the attachment service
  | initiate (id conversationId : Uuid) (kind : AttachmentKind) (filename mimeType : String)
      (sizeBytes : ℤ) (startedAt : Int)
  | beginCompletion (id : Uuid)
  | completeVerified (id : Uuid) (sizeBytes : ℤ) (etag : Option String)
  | resetCompletion (id : Uuid)
  | rejectCompletion (id : Uuid) (code message : String)
  | bindToMessage (ids : List Uuid) (conversationId messageId : Uuid)
  | deleteUnbound (id : Uuid)
  -- the artifact service
  | createArtifact (input : CreateArtifactInput)
  | reserveFile (fileId artifactId conversationId : Uuid) (format : ArtifactFormat)
      (filename : String) (sizeBytes : ℤ)
  /-- The commit may succeed without the caller hearing of it. -/
  | commitFile (call : PersistCall) (acknowledged : Bool)
  | abortFile (call : PersistCall)
  | completeArtifact (artifactId conversationId : Uuid)
  | failArtifact (artifactId conversationId : Uuid)
  | cleanupRunArtifacts (input : CleanupInput)
  -- deletions
  | deleteConversation (id : Uuid)
  | clearConversationData
  | prepareUserDeletion
  | deleteUser
  | enqueueExpiredOrphans (picked : List Uuid)
  -- the worker
  | claimDeletion (objectKey : ObjectKey) (workerId : String) (leaseToken : Uuid)
  | markDeletionSucceeded (claimed : ClaimedDeletion)
  | markDeletionFailed (claimed : ClaimedDeletion) (message : String) (retryable : Bool)
      (retryAt : Int)
  | claimAttachmentParse (id : Uuid) (workerId : String) (leaseToken : Uuid)
  | renewAttachmentLease (job : ChatAttachmentParseJob)
  | markParserSubmitted (job : ChatAttachmentParseJob) (parserJobId provider : String)
      (retryAt : Int)
  | deferParserPoll (job : ChatAttachmentParseJob) (retryAt : Int)
  | saveChunksAndComplete (job : ChatAttachmentParseJob) (source : ChunkSource) (provider : String)
  | markAttachmentFailed (job : ChatAttachmentParseJob) (retryable : Bool) (retryAt : Int)

namespace Storage

/-- A transaction commits or leaves the tables as they were. -/
def transact {β : Type} (s : Storage) (tx : Tables → Except StorageError (β × Tables)) : Storage :=
  { s with tables := Machine.commit s.tables (tx s.tables) }

def draw (s : Storage) (id : Uuid) : Storage := { s with issued := id :: s.issued }

/-- A transaction of a claimed parse job. -/
def parseStep (s : Storage) (job : ChatAttachmentParseJob)
    (tx : Tables → Except StorageError (Unit × Tables)) : Storage :=
  if s.parsing.contains job then s.transact tx else s

/-- A transaction of a claimed deletion. -/
def deletionStep (s : Storage) (claimed : ClaimedDeletion)
    (tx : Tables → Except StorageError (Unit × Tables)) : Storage :=
  if s.deleting.contains claimed then s.transact tx else s

def reserve (input : ReserveFileInput) (s : Storage) : Storage :=
  match reserveFile input s.now s.tables with
  | .ok (_, t) =>
      { s with
        tables := t
        persisting := ⟨input.fileId, input.artifactId, input.objectKey⟩ :: s.persisting }
  | .error _ => s

def commit (call : PersistCall) (acknowledged : Bool) (s : Storage) : Storage :=
  if !s.persisting.contains call then s
  else
    match ChatStorage.commitFile call.fileId call.artifactId s.tables with
    | .ok (_, t) =>
        { s with
          tables := t
          persisting := if acknowledged then s.persisting.erase call else s.persisting }
    | .error _ => s

/-- The call ends with its abort, whether or not the abort commits. -/
def abort (floor : ℤ → ℤ) (call : PersistCall) (s : Storage) : Storage :=
  if !s.persisting.contains call then s
  else
    { s.transact (ChatStorage.abortFile floor call.fileId call.artifactId call.objectKey s.now) with
      persisting := s.persisting.erase call }

/-- The environment's rows: their conversation exists. -/
def addRow (s : Storage) (conversationId : Uuid) (f : Tables → Tables) : Storage :=
  if s.tables.conversations.any fun c => c.id == conversationId then
    { s with tables := f s.tables }
  else s

section Step

variable [Sha256] (floor : ℤ → ℤ)

def step (s : Storage) (action : Action) : Storage :=
  match action with
  | .tick ms => { s with now := s.now + ms }
  | .addConversation id =>
      if s.issued.contains id || !s.tables.user then s
      else
        { s.draw id with
          tables := { s.tables with conversations := s.tables.conversations ++ [⟨id, true⟩] } }
  | .addMessage message =>
      s.addRow message.conversationId fun t => { t with messages := t.messages ++ [message] }
  | .addRun run => s.addRow run.conversationId fun t => { t with runs := t.runs ++ [run] }
  | .settleRun id =>
      { s with
        tables := { s.tables with
          runs := updateWhere (fun run => run.id == id) (fun run => { run with active := false })
            s.tables.runs } }
  | .initiate id conversationId kind filename mimeType sizeBytes startedAt =>
      if s.issued.contains id || decide (s.now < startedAt) then s
      else
        (s.draw id).transact (ChatStorage.initiate
          { id := id
            conversationId := conversationId
            kind := kind
            filename := filename
            mimeType := mimeType
            declaredSizeBytes := sizeBytes
            objectKey := .attachment conversationId id filename
            uploadExpiresAt := startedAt + UPLOAD_URL_TTL_MS
            orphanExpiresAt := startedAt + ORPHAN_UPLOAD_TTL_MS } s.now)
  | .beginCompletion id => s.transact (ChatStorage.beginCompletion id)
  | .completeVerified id sizeBytes etag =>
      s.transact (ChatStorage.completeVerified id sizeBytes etag s.now)
  | .resetCompletion id => { s with tables := ChatStorage.resetCompletion id s.tables }
  | .rejectCompletion id code message =>
      { s with tables := ChatStorage.rejectCompletion id code message s.now s.tables }
  | .bindToMessage ids conversationId messageId =>
      s.transact (ChatStorage.bindToMessage ids conversationId messageId)
  | .deleteUnbound id => s.transact (ChatStorage.deleteUnbound floor id s.now)
  | .createArtifact input =>
      if s.issued.contains input.artifactId then s
      else (s.draw input.artifactId).transact (ChatStorage.createArtifact input)
  | .reserveFile fileId artifactId conversationId format filename sizeBytes =>
      if s.issued.contains fileId then s
      else
        (s.draw fileId).reserve
          { fileId := fileId
            artifactId := artifactId
            conversationId := conversationId
            format := format
            filename := filename
            sizeBytes := sizeBytes
            objectKey := .artifact conversationId artifactId fileId filename }
  | .commitFile call acknowledged => s.commit call acknowledged
  | .abortFile call => s.abort floor call
  | .completeArtifact artifactId conversationId =>
      s.transact (ChatStorage.completeArtifact artifactId conversationId s.now)
  | .failArtifact artifactId conversationId =>
      s.transact (ChatStorage.failArtifact floor artifactId conversationId s.now)
  | .cleanupRunArtifacts input =>
      { s with tables := ChatStorage.cleanupRunArtifacts floor input s.now s.tables }
  | .deleteConversation id =>
      { s with tables := (ChatStorage.deleteConversation floor id s.now s.tables).2 }
  | .clearConversationData =>
      { s with tables := (ChatStorage.clearConversationData floor s.now s.tables).2 }
  | .prepareUserDeletion =>
      { s with tables := ChatStorage.prepareUserDeletion s.now s.tables }
  | .deleteUser => { s with tables := ChatStorage.deleteUser s.tables }
  | .enqueueExpiredOrphans picked =>
      { s with tables := (ChatStorage.enqueueExpiredOrphans floor picked s.now s.tables).2 }
  | .claimDeletion objectKey workerId leaseToken =>
      if s.issued.contains leaseToken then s
      else
        let claimed := ChatStorage.claimDeletion objectKey workerId leaseToken s.now s.tables
        { s.draw leaseToken with
          tables := claimed.2
          deleting := claimed.1.toList ++ s.deleting }
  | .markDeletionSucceeded claimed =>
      s.deletionStep claimed (ChatStorage.markDeletionSucceeded claimed s.now)
  | .markDeletionFailed claimed message retryable retryAt =>
      s.deletionStep claimed
        (ChatStorage.markDeletionFailed claimed message retryable retryAt s.now)
  | .claimAttachmentParse id workerId leaseToken =>
      if s.issued.contains leaseToken then s
      else
        let claimed := ChatStorage.claimAttachmentParse id workerId leaseToken s.now s.tables
        { s.draw leaseToken with
          tables := claimed.2
          parsing := claimed.1.toList ++ s.parsing }
  | .renewAttachmentLease job =>
      s.parseStep job (ChatStorage.renewAttachmentLease job s.now)
  | .markParserSubmitted job parserJobId provider retryAt =>
      s.parseStep job (ChatStorage.markParserSubmitted job parserJobId provider retryAt s.now)
  | .deferParserPoll job retryAt => s.parseStep job (ChatStorage.deferParserPoll job retryAt)
  | .saveChunksAndComplete job source provider =>
      match chunksOf job.mimeType source with
      | .ok chunks =>
          s.parseStep job (ChatStorage.saveChunksAndComplete job chunks provider s.now)
      | .error _ => s
  | .markAttachmentFailed job retryable retryAt =>
      s.parseStep job (ChatStorage.markAttachmentFailed job retryable retryAt)

/-- The state after actions, from the user's first one on. -/
def after (actions : List Action) : Storage := Machine.run (step floor) .initial actions

end Step

end Storage

end OpenVac.ChatStorage
