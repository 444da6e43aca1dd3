/-
  File:      OpenVac/ChatStorage/Attempts.lean
  Subject:   The attempts of parse jobs and of deletion jobs, over every run of the chat storage.

  * `KeepsAttempts` -- a transaction that is no worker's: no row's attempts change, and deletion
    jobs come new or not at all. Only the abort of an artifact file resets a job
    (`requeueJob`).
  * `ParseBooks`, `DeletionBooks` -- claims and deferrals of one job balance with its attempts.
  * `parse_books`, `deletion_books` -- **over runs in which no claim takes over a job at its
    limit.**
-/
import OpenVac.ChatStorage.ParseLeases
import OpenVac.Lib.WorkQueue

namespace OpenVac.ChatStorage

open Rows WorkQueue

/-! ## 1. Transactions that count nothing -/

/-- A deletion job as `queuedJob` makes it. -/
structure DeletionJob.First (job : DeletionJob) : Prop where
  status : job.status = .queued
  attempts : job.attempts = 0
  maxAttempts : job.maxAttempts = 5

theorem queuedJob_first (objectType : ObjectType) (sourceId : Uuid) (objectKey : ObjectKey)
    (runAt : Int) : (Tables.queuedJob objectType sourceId objectKey runAt).First := ⟨rfl, rfl, rfl⟩

structure KeepsAttempts (t t' : Tables) : Prop where
  rows : ∀ a' ∈ t'.attachments, ∃ a ∈ t.attachments, a'.id = a.id ∧
    a'.parse.attempts = a.parse.attempts ∧ a'.parse.maxAttempts = a.parse.maxAttempts
  jobs : ∃ more, t'.jobs = t.jobs ++ more ∧
    ∀ job ∈ more, job.First ∧ ∀ known ∈ t.jobs, known.objectKey ≠ job.objectKey
  keys : UniqueOn (·.objectKey) t.jobs → UniqueOn (·.objectKey) t'.jobs

namespace KeepsAttempts

variable {t t' u : Tables}

theorem of_same (ha : t'.attachments = t.attachments) (hj : t'.jobs = t.jobs) :
    KeepsAttempts t t' where
  rows := fun a' ha' => ⟨a', ha ▸ ha', rfl, rfl, rfl⟩
  jobs := ⟨[], by rw [hj, List.append_nil], fun _ h => nomatch h⟩
  keys := fun h => by rw [hj]; exact h

theorem refl (t : Tables) : KeepsAttempts t t := .of_same rfl rfl

theorem trans (h : KeepsAttempts t u) (h' : KeepsAttempts u t') : KeepsAttempts t t' where
  rows := fun a' ha' => by
    obtain ⟨b, hb, hid, hn, hm⟩ := h'.rows a' ha'
    obtain ⟨a, ha, hid', hn', hm'⟩ := h.rows b hb
    exact ⟨a, ha, hid.trans hid', hn.trans hn', hm.trans hm'⟩
  jobs := by
    obtain ⟨more, he, hmore⟩ := h.jobs
    obtain ⟨more', he', hmore'⟩ := h'.jobs
    refine ⟨more ++ more', by rw [he', he, List.append_assoc], fun job hjob => ?_⟩
    rcases List.mem_append.mp hjob with hjob | hjob
    · exact hmore job hjob
    · refine ⟨(hmore' job hjob).1, fun known hknown => (hmore' job hjob).2 known ?_⟩
      rw [he]
      exact List.mem_append_left _ hknown
  keys := fun hu => h'.keys (h.keys hu)

/-- An update of columns that are not the attempts. -/
theorem update {p : Attachment → Bool} {f : Attachment → Attachment}
    (ha : t'.attachments = updateWhere p f t.attachments) (hj : t'.jobs = t.jobs)
    (hf : ∀ a, (f a).id = a.id ∧ (f a).parse.attempts = a.parse.attempts ∧
      (f a).parse.maxAttempts = a.parse.maxAttempts) : KeepsAttempts t t' where
  rows := fun a' ha' => by
    rw [ha] at ha'
    obtain ⟨a, hmem, rfl⟩ := mem_updateWhere.mp ha'
    refine ⟨a, hmem, ?_⟩
    split
    · exact hf a
    · exact ⟨rfl, rfl, rfl⟩
  jobs := ⟨[], by rw [hj, List.append_nil], fun _ h => nomatch h⟩
  keys := fun h => by rw [hj]; exact h

theorem delete (t : Tables) (p : Attachment → Bool) : KeepsAttempts t (t.deleteAttachments p) where
  rows := fun a' ha' => ⟨a', (mem_deleteWhere.mp ha').1, rfl, rfl, rfl⟩
  jobs := (refl t).jobs
  keys := fun h => h

theorem insertJob (t : Tables) {job : DeletionJob} (hfirst : job.First) :
    KeepsAttempts t (t.insertJob job) := by
  unfold Tables.insertJob
  split
  · exact refl t
  · next hnone =>
    have hfresh : ∀ known ∈ t.jobs, known.objectKey ≠ job.objectKey := fun known hknown he =>
      hnone (List.any_eq_true.mpr ⟨known, hknown, beq_iff_eq.mpr he⟩)
    exact
      { rows := (refl t).rows
        jobs := ⟨[job], rfl, fun j hj => by
          rw [List.mem_singleton.mp hj]
          exact ⟨hfirst, hfresh⟩⟩
        keys := fun hu => hu.append_one hfresh }

theorem insertJobs (t : Tables) {jobs : List DeletionJob} (hfirst : ∀ job ∈ jobs, job.First) :
    KeepsAttempts t (t.insertJobs jobs) := by
  unfold Tables.insertJobs
  induction jobs generalizing t with
  | nil => exact refl t
  | cons job jobs ih =>
    exact (insertJob t (hfirst job List.mem_cons_self)).trans
      (ih _ fun j hj => hfirst j (List.mem_cons_of_mem _ hj))

/-- A fold whose rounds count nothing. -/
theorem foldl {α : Type} {f : Tables → α → Tables} (hf : ∀ t x, KeepsAttempts t (f t x))
    (l : List α) (t : Tables) : KeepsAttempts t (l.foldl f t) := by
  induction l generalizing t with
  | nil => exact refl t
  | cons x l ih => exact (hf t x).trans (ih _)

/-- A transaction that commits counts nothing, or nothing happens. -/
theorem transact {s : Storage} {β : Type} {tx : Tables → Except StorageError (β × Tables)}
    (h : ∀ b t', tx s.tables = .ok (b, t') → KeepsAttempts s.tables t') :
    KeepsAttempts s.tables (s.transact tx).tables := by
  show KeepsAttempts s.tables (Machine.commit s.tables (tx s.tables))
  rcases Machine.commit_cases s.tables (tx s.tables) with he | ⟨b, t', ht, he⟩
  · rw [he]
    exact refl _
  · rw [he]
    exact h b t' ht

end KeepsAttempts

section Transactions

variable {t t' : Tables}

theorem beginCompletion_keeps {id : Uuid} {r : Attachment × Bool}
    (h : beginCompletion id t = .ok (r, t')) : KeepsAttempts t t' := by
  unfold beginCompletion at h
  split at h
  · nomatch h
  · split at h
    · obtain rfl := congrArg Prod.snd (Except.ok.inj h)
      exact .refl t
    · split at h
      · nomatch h
      · obtain rfl := congrArg Prod.snd (Except.ok.inj h)
        exact .update rfl rfl fun a => ⟨rfl, rfl, rfl⟩

theorem completeVerified_keeps {id : Uuid} {sizeBytes : ℤ} {etag : Option String} {now : Int}
    {r : Option Attachment} (h : completeVerified id sizeBytes etag now t = .ok (r, t')) :
    KeepsAttempts t t' := by
  unfold completeVerified at h
  split at h
  · nomatch h
  · split at h
    · nomatch h
    · obtain rfl := congrArg Prod.snd (Except.ok.inj h)
      exact .update rfl rfl fun a => ⟨rfl, rfl, rfl⟩

theorem rejectCompletion_keeps (id : Uuid) (code message : String) (now : Int) (t : Tables) :
    KeepsAttempts t (rejectCompletion id code message now t) := by
  unfold rejectCompletion
  split
  · exact .refl t
  · refine KeepsAttempts.trans ?_ (.insertJob _ (queuedJob_first _ _ _ _))
    exact .update rfl rfl fun a => ⟨rfl, rfl, rfl⟩

theorem bindToMessage_keeps {ids : List Uuid} {conversationId messageId : Uuid}
    {r : List Attachment} (h : bindToMessage ids conversationId messageId t = .ok (r, t')) :
    KeepsAttempts t t' := by
  unfold bindToMessage at h
  simp only at h
  split at h
  · nomatch h
  · split at h
    · nomatch h
    · split at h
      · nomatch h
      · obtain rfl := congrArg Prod.snd (Except.ok.inj h)
        exact .update rfl rfl fun a => ⟨rfl, rfl, rfl⟩

/-- Rows go: the deletion of their objects is queued, their bytes are given back. -/
theorem removal_keeps (floor : ℤ → ℤ) (t : Tables) {jobs : List DeletionJob}
    (hfirst : ∀ job ∈ jobs, job.First) (used reserved : ℤ) (p : Attachment → Bool) :
    KeepsAttempts t (((t.insertJobs jobs).release floor used reserved).deleteAttachments p) := by
  have hrelease :
      KeepsAttempts (t.insertJobs jobs) ((t.insertJobs jobs).release floor used reserved) :=
    .of_same rfl rfl
  exact ((KeepsAttempts.insertJobs t hfirst).trans hrelease).trans (.delete _ p)

theorem removal_one_keeps (floor : ℤ → ℤ) (t : Tables) {job : DeletionJob} (hfirst : job.First)
    (used reserved : ℤ) (p : Attachment → Bool) :
    KeepsAttempts t (((t.insertJob job).release floor used reserved).deleteAttachments p) := by
  rw [← insertJobs_one]
  refine removal_keeps floor t (fun j hj => ?_) used reserved p
  rw [List.mem_singleton.mp hj]
  exact hfirst

theorem deleteUnbound_keeps {floor : ℤ → ℤ} {id : Uuid} {now : Int} {r : Unit}
    (h : deleteUnbound floor id now t = .ok (r, t')) : KeepsAttempts t t' := by
  unfold deleteUnbound at h
  split at h
  · nomatch h
  · obtain rfl := congrArg Prod.snd (Except.ok.inj h)
    exact removal_one_keeps floor t (queuedJob_first _ _ _ _) _ _ _

theorem attachmentJobs_first (attachments : List Attachment) (now : Int) :
    ∀ job ∈ attachmentJobs attachments now, job.First := by
  intro job hjob
  obtain ⟨a, -, rfl⟩ := List.mem_map.mp hjob
  exact queuedJob_first _ _ _ _

theorem fileJobs_first (files : List ArtifactFile) (runAt : ArtifactFile → Int) :
    ∀ job ∈ fileJobs files runAt, job.First := by
  intro job hjob
  obtain ⟨file, -, rfl⟩ := List.mem_map.mp hjob
  exact queuedJob_first _ _ _ _

theorem enqueueConversationStorageDeletion_keeps (floor : ℤ → ℤ) (conversationIds : List Uuid)
    (deleteMetadata : Bool) (now : Int) (t : Tables) :
    KeepsAttempts t
      (enqueueConversationStorageDeletion floor conversationIds deleteMetadata now t).2 := by
  unfold enqueueConversationStorageDeletion
  simp only
  have hfirst : ∀ job ∈ attachmentJobs
        (t.attachments.filter fun a => conversationFilter conversationIds a.conversationId) now ++
      fileJobs (filesOf t fun a => conversationFilter conversationIds a.conversationId) fun file =>
        deletionRunAt file.quotaState (file.createdAt + 3600000) now, job.First := by
    intro job hjob
    rcases List.mem_append.mp hjob with hjob | hjob
    · exact attachmentJobs_first _ _ job hjob
    · exact fileJobs_first _ _ job hjob
  split
  · exact (removal_keeps floor t hfirst 0 0 _).trans (.of_same rfl rfl)
  · exact .insertJobs t hfirst

theorem deleteConversation_keeps (floor : ℤ → ℤ) (id : Uuid) (now : Int) (t : Tables) :
    KeepsAttempts t (deleteConversation floor id now t).2 := by
  unfold deleteConversation
  split
  · exact .refl t
  · refine KeepsAttempts.trans ?_ (enqueueConversationStorageDeletion_keeps floor [id] true now _)
    exact .of_same rfl rfl

theorem clearConversationData_keeps (floor : ℤ → ℤ) (now : Int) (t : Tables) :
    KeepsAttempts t (clearConversationData floor now t).2 := by
  unfold clearConversationData
  simp only
  have hremove := enqueueConversationStorageDeletion_keeps floor (t.conversations.map (·.id)) true
    now t
  split
  · exact hremove
  · unfold deleteConversations
    exact (hremove.trans (.delete _ _)).trans (.of_same rfl rfl)

theorem prepareUserDeletion_keeps (now : Int) (t : Tables) :
    KeepsAttempts t (prepareUserDeletion now t) := by
  unfold prepareUserDeletion
  split
  · exact .refl t
  · exact (enqueueConversationStorageDeletion_keeps greatest [] false now t).trans
      (.of_same rfl rfl)

theorem deleteUser_keeps (t : Tables) : KeepsAttempts t (deleteUser t) := by
  unfold deleteUser
  split
  · exact .refl t
  · exact
      { rows := fun _ h => nomatch h
        jobs := (KeepsAttempts.refl t).jobs
        keys := fun h => h }

theorem enqueueExpiredOrphans_keeps (floor : ℤ → ℤ) (picked : List Uuid) (now : Int) (t : Tables) :
    KeepsAttempts t (enqueueExpiredOrphans floor picked now t).2 := by
  unfold enqueueExpiredOrphans
  refine KeepsAttempts.foldl (fun t row => ?_) _ t
  exact removal_one_keeps floor t (queuedJob_first _ _ _ _) _ _ _

theorem createArtifact_keeps {input : CreateArtifactInput} {r : Artifact}
    (h : createArtifact input t = .ok (r, t')) : KeepsAttempts t t' := by
  obtain ⟨-, -, -, -, rfl⟩ := createArtifact_ok h
  exact .of_same rfl rfl

theorem reserveFile_keeps {input : ReserveFileInput} {now : Int} {r : Unit} (hw : WellFormed t)
    (h : reserveFile input now t = .ok (r, t')) : KeepsAttempts t t' := by
  obtain ⟨-, -, -, -, -, rfl⟩ := reserveFile_ok hw h
  exact .of_same rfl rfl

theorem commitFile_keeps {fileId artifactId : Uuid} {r : ArtifactFile}
    (h : commitFile fileId artifactId t = .ok (r, t')) : KeepsAttempts t t' := by
  unfold commitFile at h
  split at h
  · nomatch h
  · obtain rfl := congrArg Prod.snd (Except.ok.inj h)
    exact .of_same rfl rfl

theorem completeArtifact_keeps {artifactId conversationId : Uuid} {now : Int} {r : Artifact}
    (h : completeArtifact artifactId conversationId now t = .ok (r, t')) : KeepsAttempts t t' := by
  unfold completeArtifact at h
  simp only at h
  split at h
  · nomatch h
  · split at h
    · nomatch h
    · split at h
      · nomatch h
      · obtain rfl := congrArg Prod.snd (Except.ok.inj h)
        exact .of_same rfl rfl

/-- Jobs are inserted, and bytes given back where there are any. -/
theorem release_keeps (t : Tables) (floor : ℤ → ℤ) {jobs : List DeletionJob}
    (hfirst : ∀ job ∈ jobs, job.First) (c : Prop) [Decidable c] (used reserved : ℤ) :
    KeepsAttempts t
      (if c then (t.insertJobs jobs).release floor used reserved else t.insertJobs jobs) := by
  have hjobs := KeepsAttempts.insertJobs t hfirst
  split
  · exact hjobs.trans (.of_same rfl rfl)
  · exact hjobs

theorem failArtifact_keeps {floor : ℤ → ℤ} {artifactId conversationId : Uuid} {now : Int}
    {r : List ObjectKey} (h : failArtifact floor artifactId conversationId now t = .ok (r, t')) :
    KeepsAttempts t t' := by
  unfold failArtifact at h
  simp only at h
  split at h
  · nomatch h
  · split at h
    · obtain rfl := congrArg Prod.snd (Except.ok.inj h)
      exact .refl t
    · obtain rfl := congrArg Prod.snd (Except.ok.inj h)
      exact (release_keeps t floor (fileJobs_first _ _) _ _ _).trans (.of_same rfl rfl)

theorem cleanupRunArtifacts_keeps (floor : ℤ → ℤ) (input : CleanupInput) (now : Int)
    (t : Tables) : KeepsAttempts t (cleanupRunArtifacts floor input now t) := by
  unfold cleanupRunArtifacts
  simp only
  split
  · refine KeepsAttempts.trans ?_ (.trans (.insertJobs (t.release floor
      (fileBytes .committed ((filesOf t (runArtifact t input)).filter fun file =>
        file.deletionStatus == .active))
      (fileBytes .reserved ((filesOf t (runArtifact t input)).filter fun file =>
        file.deletionStatus == .active))) (fileJobs_first _ _)) (.of_same rfl rfl))
    exact .of_same rfl rfl
  · exact (KeepsAttempts.insertJobs t (fileJobs_first _ _)).trans (.of_same rfl rfl)

/-- What an abort does to a deletion job is `requeueJob`'s. -/
theorem requeueJob_attachments (t : Tables) (sourceId : Uuid) (objectKey : ObjectKey) (now : Int) :
    (requeueJob t sourceId objectKey now).attachments = t.attachments := by
  unfold requeueJob
  split
  · rfl
  · exact insertJobs_attachments t [_]

theorem requeueJob_jobs {u : Tables} (hj : u.jobs = t.jobs) (sourceId : Uuid)
    (objectKey : ObjectKey) (now : Int) :
    (requeueJob u sourceId objectKey now).jobs = (requeueJob t sourceId objectKey now).jobs := by
  unfold requeueJob Tables.insertJob
  rw [hj]
  split
  · rfl
  · split
    · exact hj
    · rfl

theorem abortFile_jobs {floor : ℤ → ℤ} {fileId artifactId : Uuid} {objectKey : ObjectKey}
    {now : Int} {r : Unit} (h : abortFile floor fileId artifactId objectKey now t = .ok (r, t')) :
    t'.attachments = t.attachments ∧ t'.jobs = (requeueJob t fileId objectKey now).jobs := by
  unfold abortFile at h
  simp only at h
  split at h
  · next file _ =>
    split at h
    · nomatch h
    · obtain rfl := congrArg Prod.snd (Except.ok.inj h)
      refine ⟨requeueJob_attachments (t.release floor 0 file.sizeBytes) fileId objectKey now, ?_⟩
      exact requeueJob_jobs (t := t) (u := t.release floor 0 file.sizeBytes) rfl fileId objectKey now
  · obtain rfl := congrArg Prod.snd (Except.ok.inj h)
    exact ⟨requeueJob_attachments t fileId objectKey now, rfl⟩

/-- Aborts and the work on deletions leave the attachments alone. -/
theorem abort_attachments (floor : ℤ → ℤ) (s : Storage) (call : PersistCall) :
    (s.abort floor call).tables.attachments = s.tables.attachments := by
  unfold Storage.abort
  split
  · rfl
  · show (Machine.commit s.tables (abortFile floor call.fileId call.artifactId call.objectKey s.now
      s.tables)).attachments = _
    rcases Machine.commit_cases s.tables
      (abortFile floor call.fileId call.artifactId call.objectKey s.now s.tables) with
      he | ⟨b, t', ht, he⟩
    · rw [he]
    · rw [he]
      exact (abortFile_jobs ht).1

theorem worked_attachments {t t' : Tables} (h : Worked t t') : t'.attachments = t.attachments := by
  obtain ⟨jobs, rfl, -⟩ := h
  rfl

end Transactions

section Steps

variable [JsString.Sha256] {floor : ℤ → ℤ} {s : Storage}

/-- The steps of workers, and the two that write a row without attempts. -/
def Action.countsAttempts : Action → Bool
  | .initiate .. => true
  | .abortFile .. => true
  | .claimDeletion .. => true
  | .markDeletionSucceeded .. => true
  | .markDeletionFailed .. => true
  | .claimAttachmentParse .. => true
  | .renewAttachmentLease .. => true
  | .markParserSubmitted .. => true
  | .deferParserPoll .. => true
  | .saveChunksAndComplete .. => true
  | .markAttachmentFailed .. => true
  | _ => false

/-- **No other step counts.** -/
theorem step_keeps (hs : Sound s) {action : Action} (h : action.countsAttempts = false) :
    KeepsAttempts s.tables (s.step floor action).tables := by
  have hrow (conversationId : Uuid) {f : Tables → Tables}
      (hf : KeepsAttempts s.tables (f s.tables)) :
      KeepsAttempts s.tables (s.addRow conversationId f).tables := by
    unfold Storage.addRow
    split
    · exact hf
    · exact .refl _
  cases action with
  | tick ms => exact .refl _
  | addConversation id =>
    unfold Storage.step
    simp only
    split
    · exact .refl _
    · exact .of_same rfl rfl
  | addMessage message => exact hrow _ (.of_same rfl rfl)
  | addRun run => exact hrow _ (.of_same rfl rfl)
  | settleRun id => exact .of_same rfl rfl
  | beginCompletion id => exact .transact fun _ _ ht => beginCompletion_keeps ht
  | completeVerified id sizeBytes etag => exact .transact fun _ _ ht => completeVerified_keeps ht
  | resetCompletion id => exact .update rfl rfl fun _ => ⟨rfl, rfl, rfl⟩
  | rejectCompletion id code message => exact rejectCompletion_keeps id code message s.now s.tables
  | bindToMessage ids conversationId messageId =>
    exact .transact fun _ _ ht => bindToMessage_keeps ht
  | deleteUnbound id => exact .transact fun _ _ ht => deleteUnbound_keeps ht
  | createArtifact input =>
    unfold Storage.step
    simp only
    split
    · exact .refl _
    · exact KeepsAttempts.transact (s := s.draw input.artifactId) fun _ _ ht =>
        createArtifact_keeps ht
  | reserveFile fileId artifactId conversationId format filename sizeBytes =>
    unfold Storage.step
    simp only
    split
    · exact .refl _
    · unfold Storage.reserve
      split
      · next t' ht => exact reserveFile_keeps hs.wellFormed ht
      · exact .refl _
  | commitFile call acknowledged =>
    unfold Storage.step Storage.commit
    simp only
    split
    · exact .refl _
    · split
      · next t' ht => exact commitFile_keeps ht
      · exact .refl _
  | completeArtifact artifactId conversationId =>
    exact .transact fun _ _ ht => completeArtifact_keeps ht
  | failArtifact artifactId conversationId => exact .transact fun _ _ ht => failArtifact_keeps ht
  | cleanupRunArtifacts input => exact cleanupRunArtifacts_keeps floor input s.now s.tables
  | deleteConversation id => exact deleteConversation_keeps floor id s.now s.tables
  | clearConversationData => exact clearConversationData_keeps floor s.now s.tables
  | prepareUserDeletion => exact prepareUserDeletion_keeps s.now s.tables
  | deleteUser => exact deleteUser_keeps s.tables
  | enqueueExpiredOrphans picked => exact enqueueExpiredOrphans_keeps floor picked s.now s.tables
  | _ => nomatch h

end Steps

/-! ## 2. Parse jobs -/

def parsePhase : ParseStatus → Phase
  | .not_required => .waiting
  | .queued => .waiting
  | .processing => .running
  | .ready => .ended
  | .failed => .ended

/-- How often a document has been claimed. -/
def parseClaims (id : Uuid) (s : Storage) : Nat := s.parsing.countP fun job => job.id == id

/-- The parser has the document, and the job waits for it. -/
def parseDeferral (id : Uuid) (s : Storage) : Action → Bool
  | .markParserSubmitted job _ _ _ =>
      job.id == id && s.parsing.contains job && s.tables.attachments.any (leasedParse job)
  | .deferParserPoll job _ =>
      job.id == id && s.parsing.contains job && s.tables.attachments.any (leasedParse job)
  | _ => false

/-- A claim takes over a job whose worker was silent in its last attempt. -/
def reclaimsSpentParse (id : Uuid) (s : Storage) : Action → Bool
  | .claimAttachmentParse claimed _ _ =>
      claimed == id && s.tables.attachments.any fun a =>
        a.id == id && a.parse.status == .processing && parseClaimable s.now a &&
          decide (a.parse.maxAttempts ≤ a.parse.attempts)
  | _ => false

structure ParseBooks (id : Uuid) (s : Storage) (deferrals : Nat) : Prop where
  fresh : id ∉ s.issued → parseClaims id s = 0 ∧ deferrals = 0
  bound : parseClaims id s ≤ 3 + deferrals
  rows : ∀ a ∈ s.tables.attachments, a.id = id → a.parse.maxAttempts = 3 ∧
    Ledger 3 (parseClaims id s) deferrals (parsePhase a.parse.status) a.parse.attempts

/-- A worker knows the attempts of the job it holds. -/
def ParseKnown (s : Storage) : Prop :=
  ∀ a ∈ s.tables.attachments, ∀ job ∈ s.parsing, leasedParse job a = true →
    job.attempts = a.parse.attempts ∧ job.maxAttempts = a.parse.maxAttempts

section ParseBooks

variable {s s' : Storage} {id : Uuid} {deferrals : Nat}

theorem ParseBooks.start (id : Uuid) : ParseBooks id .initial 0 where
  fresh := fun _ => ⟨rfl, rfl⟩
  bound := Nat.zero_le _
  rows := fun _ h => nomatch h

/-- An upload that is not over has not been claimed and waits. -/
theorem parsePhase_uploading {a : Attachment} (hup : a.uploading = true) (hc : a.coherent = true) :
    parsePhase a.parse.status = .waiting := by
  rw [Attachment.coherent_uploading hup, Bool.and_eq_true, beq_iff_eq] at hc
  rw [hc.1]
  split <;> rfl

/-- A row without a lease is not being parsed. -/
theorem parsePhase_unleased {a : Attachment} (hc : a.coherent = true)
    (hnone : a.parse.leaseToken = none) :
    parsePhase a.parse.status = .waiting ∨ parsePhase a.parse.status = .ended := by
  cases hp : a.parse.status with
  | processing =>
    obtain ⟨-, -, hlease⟩ := Attachment.coherent_processing hp hc
    rw [hnone] at hlease
    nomatch hlease
  | not_required => exact Or.inl rfl
  | queued => exact Or.inl rfl
  | ready => exact Or.inr rfl
  | failed => exact Or.inr rfl

theorem ParseBooks.aside (h : ParseBooks id s deferrals) (hu : UniqueOn (·.id) s.tables.attachments)
    (hp : ParseSound s) (hmove : Aside s.tables s'.tables)
    (hrows : ∀ a' ∈ s'.tables.attachments, ∃ a ∈ s.tables.attachments, a'.id = a.id ∧
      a'.parse.attempts = a.parse.attempts ∧ a'.parse.maxAttempts = a.parse.maxAttempts)
    (hparsing : s'.parsing = s.parsing) (hissued : ∀ id ∈ s.issued, id ∈ s'.issued) :
    ParseBooks id s' deferrals := by
  have hclaims : parseClaims id s' = parseClaims id s := by
    unfold parseClaims
    rw [hparsing]
  refine ⟨fun hno => ?_, ?_, fun a' ha' hid => ?_⟩
  · rw [hclaims]
    exact h.fresh fun hold => hno (hissued _ hold)
  · rw [hclaims]
    exact h.bound
  · obtain ⟨a, ha, hid', hattempts, hmax⟩ := hrows a' ha'
    obtain ⟨b, hb, hpass⟩ := hmove.rows a' ha'
    obtain rfl : b = a := hu.eq hb ha (hpass.id.symm.trans hid')
    obtain ⟨hthree, hledger⟩ := h.rows b hb (hid'.symm.trans hid)
    rw [hclaims, hattempts, hmax]
    refine ⟨hthree, ?_⟩
    rcases hpass.change with ⟨-, hparse⟩ | ⟨hup, hco⟩
    · rw [hparse]
      exact hledger
    · have hc := hp.coherent b hb
      rw [parsePhase_uploading hup hc] at hledger
      rcases parsePhase_unleased (hco hc).1 (hco hc).2.1 with e | e <;> rw [e]
      · exact hledger
      · exact hledger.finish

theorem ParseKnown.aside (hk : ParseKnown s) (hp : ParseSound s) (hmove : Aside s.tables s'.tables)
    (hparsing : s'.parsing = s.parsing) : ParseKnown s' := by
  intro a' ha' job hjob hleased
  obtain ⟨a, ha, hpass⟩ := hmove.rows a' ha'
  rw [hparsing] at hjob
  rcases hpass.change with ⟨-, hparse⟩ | ⟨hup, hco⟩
  · rw [hparse]
    refine hk a ha job hjob ?_
    unfold leasedParse at hleased ⊢
    rw [← hpass.id, ← hparse]
    exact hleased
  · have htoken := leasedParse_token hleased
    rw [(hco (hp.coherent a ha)).2.1] at htoken
    nomatch htoken

/-- A new upload. -/
theorem ParseBooks.starts (h : ParseBooks id s deferrals) {row : Attachment}
    (hnew : row.id ∉ s.issued) (hphase : parsePhase row.parse.status = .waiting)
    (hattempts : row.parse.attempts = 0) (hmax : row.parse.maxAttempts = 3)
    (hrows : s'.tables.attachments = s.tables.attachments ++ [row])
    (hparsing : s'.parsing = s.parsing) (hissued : ∀ id ∈ s.issued, id ∈ s'.issued) :
    ParseBooks id s' deferrals := by
  have hclaims : parseClaims id s' = parseClaims id s := by
    unfold parseClaims
    rw [hparsing]
  refine ⟨fun hno => ?_, ?_, fun a ha hid => ?_⟩
  · rw [hclaims]
    exact h.fresh fun hold => hno (hissued _ hold)
  · rw [hclaims]
    exact h.bound
  · rw [hclaims]
    rw [hrows, List.mem_append, List.mem_singleton] at ha
    rcases ha with ha | rfl
    · exact h.rows a ha hid
    · obtain ⟨hzero, rfl⟩ := h.fresh (hid ▸ hnew)
      rw [hzero, hphase, hattempts]
      exact ⟨hmax, .start (by decide)⟩

/-- An operation of a worker on the job it holds. -/
theorem ParseBooks.worked (h : ParseBooks id s deferrals) (hs : Sound s)
    {job : ChatAttachmentParseJob} {f : Attachment → Attachment} {after : Nat}
    (ha : s'.tables.attachments = updateWhere (leasedParse job) f s.tables.attachments)
    (hparsing : s'.parsing = s.parsing) (hissued : s'.issued = s.issued)
    (hcurrent : ∃ a ∈ s.tables.attachments, leasedParse job a = true)
    (hother : job.id ≠ id → after = deferrals)
    (hf : ∀ a ∈ s.tables.attachments, leasedParse job a = true →
      (f a).id = a.id ∧ (f a).parse.maxAttempts = a.parse.maxAttempts ∧
        (job.id = id → a.parse.maxAttempts = 3 → ∀ claims,
          Ledger 3 claims deferrals .running a.parse.attempts →
          Ledger 3 claims after (parsePhase (f a).parse.status) (f a).parse.attempts)) :
    ParseBooks id s' after := by
  have hclaims : parseClaims id s' = parseClaims id s := by
    unfold parseClaims
    rw [hparsing]
  obtain ⟨held, hheld, hleased⟩ := hcurrent
  by_cases hid : job.id = id
  · have hown : held.id = id := (leasedParse_id hleased).trans hid
    obtain ⟨hsame, hmax, hledger⟩ := hf held hheld hleased
    obtain ⟨hthree, hbooks⟩ := h.rows held hheld hown
    rw [leasedParse_status hleased] at hbooks
    have hbooks' := hledger hid hthree _ hbooks
    refine ⟨fun hno => absurd ?_ hno, ?_, fun a' ha' hid' => ?_⟩
    · rw [hissued, ← hown]
      exact hs.known.attachmentIds held hheld
    · rw [hclaims]
      exact hbooks'.bound
    · rw [ha] at ha'
      obtain ⟨a, hmem, rfl⟩ := mem_updateWhere.mp ha'
      have hheldId : a.id = id := by
        split at hid'
        · next hl => exact ((hf a hmem hl).1).symm.trans hid'
        · exact hid'
      obtain rfl : a = held := hs.wellFormed.attachmentIds.eq hmem hheld (hheldId.trans hown.symm)
      rw [if_pos hleased, hclaims, hmax]
      exact ⟨hthree, hbooks'⟩
  · obtain rfl := hother hid
    refine ⟨fun hno => ?_, ?_, fun a' ha' hid' => ?_⟩
    · rw [hclaims]
      rw [hissued] at hno
      exact h.fresh hno
    · rw [hclaims]
      exact h.bound
    · rw [ha] at ha'
      obtain ⟨a, hmem, rfl⟩ := mem_updateWhere.mp ha'
      have hno : ¬ leasedParse job a = true := fun hl => by
        rw [if_pos hl, (hf a hmem hl).1, leasedParse_id hl] at hid'
        exact hid hid'
      rw [if_neg hno] at hid' ⊢
      rw [hclaims]
      exact h.rows a hmem hid'

theorem ParseKnown.worked (hk : ParseKnown s) {job : ChatAttachmentParseJob}
    {f : Attachment → Attachment}
    (ha : s'.tables.attachments = updateWhere (leasedParse job) f s.tables.attachments)
    (hparsing : s'.parsing = s.parsing)
    (hf : ∀ a ∈ s.tables.attachments, leasedParse job a = true →
      (f a).parse.leaseToken = none ∨
        (∀ other, leasedParse other (f a) = leasedParse other a) ∧
          (f a).parse.attempts = a.parse.attempts ∧
          (f a).parse.maxAttempts = a.parse.maxAttempts) : ParseKnown s' := by
  intro a' ha' other hother hleased
  rw [hparsing] at hother
  rw [ha] at ha'
  obtain ⟨a, hmem, rfl⟩ := mem_updateWhere.mp ha'
  split at hleased
  · next hl =>
    rw [if_pos hl]
    rcases hf a hmem hl with hnone | ⟨hsame, hattempts, hmax⟩
    · have htoken := leasedParse_token hleased
      rw [hnone] at htoken
      nomatch htoken
    · rw [hattempts, hmax]
      exact hk a hmem other hother (by rw [← hsame]; exact hleased)
  · next hl =>
    rw [if_neg hl]
    exact hk a hmem other hother hleased

/-- A claim of a job that is not at its limit. -/
theorem ParseBooks.claims (h : ParseBooks id s deferrals) (hs : Sound s) {workerId : String}
    {token : Uuid} {a : Attachment} (ha : a ∈ s.tables.attachments)
    (hclaim : parseClaimable s.now a = true)
    (hleft : a.id = id → a.parse.status = .processing → a.parse.attempts < a.parse.maxAttempts) :
    ParseBooks id
      { s.draw token with
        tables := s.tables.setAttachment a.id (claimedRow workerId token s.now)
        parsing := parseAttachmentJob workerId token (claimedRow workerId token s.now a) ::
          s.parsing } deferrals := by
  have hu := hs.wellFormed.attachmentIds
  generalize hs' : ({ s.draw token with
    tables := s.tables.setAttachment a.id (claimedRow workerId token s.now)
    parsing := parseAttachmentJob workerId token (claimedRow workerId token s.now a) ::
      s.parsing } : Storage) = s'
  have hclaims : parseClaims id s' = parseClaims id s + if a.id = id then 1 else 0 := by
    subst hs'
    unfold parseClaims
    rw [List.countP_cons]
    simp only [beq_iff_eq]
    rfl
  have hissued : ∀ x ∈ s.issued, x ∈ s'.issued := by
    subst hs'
    exact fun x hx => List.mem_cons_of_mem _ hx
  have hrow : ∀ b ∈ s'.tables.attachments,
      b = claimedRow workerId token s.now a ∨ (b ∈ s.tables.attachments ∧ b.id ≠ a.id) := by
    subst hs'
    exact fun b hb => mem_claimed hu ha hb
  by_cases hid : a.id = id
  · obtain ⟨hthree, hledger⟩ := h.rows a ha hid
    have hattempts : a.parse.attempts < 3 := by
      cases hstatus : a.parse.status with
      | processing =>
        rw [← hthree]
        exact hleft hid hstatus
      | queued => exact hledger.left (by rw [hstatus]; rfl)
      | not_required => exact hledger.left (by rw [hstatus]; rfl)
      | ready => exact absurd hstatus (claimable_not_ready hclaim).1
      | failed =>
        simp [parseClaimable, hstatus] at hclaim
    have hbooks := hledger.claim hattempts
    rw [if_pos hid] at hclaims
    refine ⟨fun hno => absurd (hissued _ (hs.known.attachmentIds a ha)) (hid ▸ hno), ?_,
      fun b hb hb' => ?_⟩
    · rw [hclaims]
      exact hbooks.bound
    · rcases hrow b hb with rfl | ⟨-, hne⟩
      · rw [hclaims]
        exact ⟨hthree, hbooks⟩
      · exact absurd (hb'.trans hid.symm) hne
  · rw [if_neg hid, Nat.add_zero] at hclaims
    refine ⟨fun hno => ?_, ?_, fun b hb hb' => ?_⟩
    · rw [hclaims]
      exact h.fresh fun hold => hno (hissued _ hold)
    · rw [hclaims]
      exact h.bound
    · rcases hrow b hb with rfl | ⟨hold, -⟩
      · exact absurd hb' hid
      · rw [hclaims]
        exact h.rows b hold hb'

theorem ParseKnown.claims (hk : ParseKnown s) (hs : Sound s) (hp : ParseSound s)
    {workerId : String} {token : Uuid} {a : Attachment} (hfresh : token ∉ s.issued)
    (ha : a ∈ s.tables.attachments) :
    ParseKnown
      { s.draw token with
        tables := s.tables.setAttachment a.id (claimedRow workerId token s.now)
        parsing := parseAttachmentJob workerId token (claimedRow workerId token s.now a) ::
          s.parsing } := by
  intro b hb job hjob hleased
  rcases mem_claimed hs.wellFormed.attachmentIds ha hb with rfl | ⟨hold, hne⟩
  · rcases List.mem_cons.mp hjob with rfl | hjob
    · exact ⟨rfl, rfl⟩
    · have htoken : token = job.leaseToken := Option.some.inj (leasedParse_token hleased)
      exact absurd (htoken ▸ hp.tokens job hjob) hfresh
  · rcases List.mem_cons.mp hjob with rfl | hjob
    · exact absurd (leasedParse_id hleased) hne
    · exact hk b hold job hjob hleased

end ParseBooks

section ParseSteps

variable [JsString.Sha256] {s : Storage} {id : Uuid} {deferrals : Nat}

/-- What is kept of a document's parsing. -/
structure ParseCounted (id : Uuid) (s : Storage) (deferrals : Nat) : Prop where
  sound : Sound s
  parse : ParseSound s
  known : ParseKnown s
  books : ParseBooks id s deferrals

/-- What an operation does to the attempts of the row it finds. -/
structure Attachment.Counts (deferrals after : Nat) (a a' : Attachment) : Prop where
  id : a'.id = a.id
  maxAttempts : a'.parse.maxAttempts = a.parse.maxAttempts
  lease : a'.parse.leaseToken = none ∨
    (∀ other, leasedParse other a' = leasedParse other a) ∧
      a'.parse.attempts = a.parse.attempts
  ledger : a.parse.maxAttempts = 3 → ∀ claims,
    Ledger 3 claims deferrals .running a.parse.attempts →
    Ledger 3 claims after (parsePhase a'.parse.status) a'.parse.attempts

omit [JsString.Sha256] in
/-- An operation of a worker under its lease; `after` counts the deferrals of its document. -/
theorem held_counted {s' : Storage} (h : ParseCounted id s deferrals)
    {job : ChatAttachmentParseJob} {f : Attachment → Attachment} {after : Nat}
    (ha : s'.tables.attachments = updateWhere (leasedParse job) f s.tables.attachments)
    (hparsing : s'.parsing = s.parsing) (hissued : s'.issued = s.issued)
    (hcurrent : ∃ a ∈ s.tables.attachments, leasedParse job a = true)
    (hf : ∀ a ∈ s.tables.attachments, leasedParse job a = true →
      a.Counts deferrals after (f a)) :
    ParseKnown s' ∧ ParseBooks id s' (if job.id = id then after else deferrals) := by
  refine ⟨h.known.worked ha hparsing fun a hmem hl => ?_, ?_⟩
  · have hcounts := hf a hmem hl
    rcases hcounts.lease with hnone | ⟨hsame, hattempts⟩
    · exact Or.inl hnone
    · exact Or.inr ⟨hsame, hattempts, hcounts.maxAttempts⟩
  · refine h.books.worked h.sound ha hparsing hissued hcurrent (fun hne => if_neg hne)
      fun a hmem hl => ?_
    have hcounts := hf a hmem hl
    refine ⟨hcounts.id, hcounts.maxAttempts, fun hid hthree claims hledger => ?_⟩
    rw [if_pos hid]
    exact hcounts.ledger hthree claims hledger

omit [JsString.Sha256] in
/-- An operation that is no deferral. -/
theorem held_kept {s' : Storage} (h : ParseCounted id s deferrals) {job : ChatAttachmentParseJob}
    {f : Attachment → Attachment}
    (ha : s'.tables.attachments = updateWhere (leasedParse job) f s.tables.attachments)
    (hparsing : s'.parsing = s.parsing) (hissued : s'.issued = s.issued)
    (hcurrent : ∃ a ∈ s.tables.attachments, leasedParse job a = true)
    (hf : ∀ a ∈ s.tables.attachments, leasedParse job a = true →
      a.Counts deferrals deferrals (f a)) :
    ParseKnown s' ∧ ParseBooks id s' deferrals := by
  have hheld := held_counted h ha hparsing hissued hcurrent hf
  rw [ite_self] at hheld
  exact hheld

omit [JsString.Sha256] in
/-- An operation that updates the row of its lease: under it, or without effect. -/
theorem parseStep_counted (h : ParseCounted id s deferrals) {job : ChatAttachmentParseJob}
    {f : Attachment → Attachment} {after : Nat}
    (hf : ∀ a ∈ s.tables.attachments, leasedParse job a = true → job ∈ s.parsing →
      a.Counts deferrals after (f a)) :
    ParseKnown (s.parseStep job (updateLeased job f)) ∧
      ParseBooks id (s.parseStep job (updateLeased job f))
        (if job.id == id && s.parsing.contains job && s.tables.attachments.any (leasedParse job)
          then after else deferrals) := by
  unfold Storage.parseStep
  by_cases hjob : s.parsing.contains job = true
  · by_cases hany : s.tables.attachments.any (leasedParse job) = true
    · have hcommit : updateLeased job f s.tables = .ok ((),
          { s.tables with
            attachments := updateWhere (leasedParse job) f s.tables.attachments }) := if_pos hany
      rw [if_pos hjob, hjob, hany, Bool.and_true, Bool.and_true]
      unfold Storage.transact
      rw [hcommit]
      simp only [beq_iff_eq]
      exact held_counted h rfl rfl rfl (List.any_eq_true.mp hany)
        fun a hmem hl => hf a hmem hl (List.contains_iff_mem.mp hjob)
    · have hfail : updateLeased job f s.tables = .error staleParseLease := if_neg hany
      rw [if_pos hjob, Bool.eq_false_iff.mpr hany, Bool.and_false]
      unfold Storage.transact
      rw [hfail]
      exact ⟨h.known, h.books⟩
  · rw [if_neg hjob, Bool.eq_false_iff.mpr hjob, Bool.and_false, Bool.false_and]
    exact ⟨h.known, h.books⟩

omit [JsString.Sha256] in
theorem counts_renew (job : ChatAttachmentParseJob) (now : Int) {a : Attachment}
    (hl : leasedParse job a = true) :
    a.Counts deferrals deferrals
      { a with parse := { a.parse with lockedAt := some now } } where
  id := rfl
  maxAttempts := rfl
  lease := Or.inr ⟨fun _ => rfl, rfl⟩
  ledger := fun _ _ hledger => by
    show Ledger 3 _ _ (parsePhase a.parse.status) _
    rw [leasedParse_status hl]
    exact hledger

omit [JsString.Sha256] in
/-- A failure puts the job back as long as the worker's copy has an attempt left. -/
theorem counts_failed {job : ChatAttachmentParseJob} {a : Attachment}
    (hknown : job.attempts = a.parse.attempts ∧ job.maxAttempts = a.parse.maxAttempts)
    (retryable : Bool) (retryAt : Int) :
    let terminal := job.attempts ≥ job.maxAttempts || !retryable
    a.Counts deferrals deferrals
      { a with
        status := if terminal then .failed else .processing
        parse := unlocked
          { a.parse with
            status := if terminal then .failed else .queued
            runAt := retryAt }
        failureCode := if terminal then some "ATTACHMENT_PARSE_FAILED" else none
        failureMessage :=
          if terminal then some "附件解析失败，请重新上传或更换文件格式。" else none } where
  id := rfl
  maxAttempts := rfl
  lease := Or.inl rfl
  ledger := fun hthree claims hledger => by
    show Ledger 3 claims deferrals (parsePhase (if (decide (job.attempts ≥ job.maxAttempts) ||
      !retryable) = true then ParseStatus.failed else .queued)) a.parse.attempts
    split
    · exact hledger.finish
    · next hno =>
      rw [Bool.not_eq_true, Bool.or_eq_false_iff, decide_eq_false_iff_not, hknown.1, hknown.2,
        hthree] at hno
      exact hledger.retry (by omega)

/-- The upload of an attachment. -/
theorem initiate_counted (h : ParseCounted id s deferrals) (newId conversationId : Uuid)
    (kind : AttachmentKind) (filename mimeType : String) (sizeBytes : ℤ) (startedAt : Int) :
    ParseKnown (s.step greatest
        (.initiate newId conversationId kind filename mimeType sizeBytes startedAt)) ∧
      ParseBooks id (s.step greatest
        (.initiate newId conversationId kind filename mimeType sizeBytes startedAt)) deferrals := by
  have hu := h.sound.wellFormed.attachmentIds
  have hissued : ∀ x ∈ s.issued, x ∈ newId :: s.issued := fun x hx => List.mem_cons_of_mem _ hx
  unfold Storage.step
  simp only
  split
  · exact ⟨h.known, h.books⟩
  · next hnew =>
    simp only [Bool.or_eq_true, not_or, List.contains_iff_mem] at hnew
    unfold Storage.transact
    generalize hinput : (⟨newId, conversationId, kind, filename, mimeType, sizeBytes, _, _, _⟩ :
      InitiateInput) = input
    rcases Machine.commit_cases (s.draw newId).tables
      (initiate input s.now (s.draw newId).tables) with he | ⟨b, t', ht, he⟩
    · rw [he]
      refine ⟨h.known, h.books.aside hu h.parse (.refl _) ?_ rfl hissued⟩
      exact (KeepsAttempts.refl s.tables).rows
    · obtain ⟨-, -, -, -, -, rfl⟩ := initiate_ok ht
      rw [he]
      have hrow : (initiatedRow input s.now).id ∉ s.issued := by
        rw [← hinput]
        exact hnew.1
      have hphase : parsePhase (initiatedRow input s.now).parse.status = .waiting := by
        show parsePhase (if input.kind = .image then .not_required else .queued) = .waiting
        split <;> rfl
      refine ⟨?_, h.books.starts hrow hphase rfl rfl rfl rfl hissued⟩
      intro a ha job hjob hleased
      rcases List.mem_append.mp ha with ha | ha
      · exact h.known a ha job hjob hleased
      · rw [List.mem_singleton.mp ha] at hleased
        nomatch leasedParse_token hleased

/-- A claim that does not take over a job at its limit. -/
theorem claim_counted (h : ParseCounted id s deferrals) (claimed : Uuid) (workerId : String)
    (leaseToken : Uuid)
    (hlimit : reclaimsSpentParse id s (.claimAttachmentParse claimed workerId leaseToken) = false) :
    ParseKnown (s.step greatest (.claimAttachmentParse claimed workerId leaseToken)) ∧
      ParseBooks id (s.step greatest (.claimAttachmentParse claimed workerId leaseToken))
        deferrals := by
  unfold Storage.step
  simp only
  split
  · exact ⟨h.known, h.books⟩
  · next hfresh =>
    rw [List.contains_iff_mem] at hfresh
    unfold claimAttachmentParse
    split
    · refine ⟨h.known, h.books.aside h.sound.wellFormed.attachmentIds h.parse (.refl _) ?_ rfl
        fun x hx => List.mem_cons_of_mem _ hx⟩
      exact (KeepsAttempts.refl s.tables).rows
    · next a hfind =>
      have hmem := List.mem_of_find?_eq_some hfind
      have hcond := List.find?_some hfind
      rw [Bool.and_eq_true, beq_iff_eq] at hcond
      obtain ⟨rfl, hclaim⟩ := hcond
      refine ⟨h.known.claims h.sound h.parse hfresh hmem,
        h.books.claims h.sound hmem hclaim fun hid hstatus => ?_⟩
      unfold reclaimsSpentParse at hlimit
      simp only [hid, beq_self_eq_true, Bool.true_and] at hlimit
      have hrow := List.any_eq_false.mp hlimit a hmem
      simpa [hid, hstatus, hclaim] using hrow

theorem save_counted (h : ParseCounted id s deferrals) (job : ChatAttachmentParseJob)
    (source : ChunkSource) (provider : String) :
    ParseKnown (s.step greatest (.saveChunksAndComplete job source provider)) ∧
      ParseBooks id (s.step greatest (.saveChunksAndComplete job source provider)) deferrals := by
  unfold Storage.step
  simp only
  split
  · next chunks _ =>
    unfold Storage.parseStep
    split
    · unfold Storage.transact
      rcases Machine.commit_cases s.tables (saveChunksAndComplete job chunks provider s.now s.tables)
        with he | ⟨b, t', ht, he⟩
      · rw [he]
        exact ⟨h.known, h.books⟩
      · obtain ⟨hcurrent, rfl⟩ := saveChunksAndComplete_ok ht
        rw [he]
        exact held_kept h rfl rfl rfl hcurrent fun a hmem hl =>
          ⟨rfl, rfl, Or.inl rfl, fun _ _ hledger => hledger.finish⟩
    · exact ⟨h.known, h.books⟩
  · exact ⟨h.known, h.books⟩

/-- **What one step does to the books of a document.** -/
theorem parseBooks_step (h : ParseCounted id s deferrals) (action : Action)
    (hlimit : reclaimsSpentParse id s action = false) :
    ParseKnown (s.step greatest action) ∧
      ParseBooks id (s.step greatest action)
        (if parseDeferral id s action then deferrals + 1 else deferrals) := by
  have hu := h.sound.wellFormed.attachmentIds
  have hissued := (step_frame greatest s action).issued
  have hmove := step_move greatest h.sound action
  -- the steps that change no attempts, or none of an attachment
  have hkeep (hparse : action.parseJob = none) (hclaim : action.claimsParse = false)
      (hrows : ∀ a' ∈ (s.step greatest action).tables.attachments, ∃ a ∈ s.tables.attachments,
        a'.id = a.id ∧ a'.parse.attempts = a.parse.attempts ∧
          a'.parse.maxAttempts = a.parse.maxAttempts) :
      ParseKnown (s.step greatest action) ∧
        ParseBooks id (s.step greatest action) deferrals := by
    have hparsing := (step_frame greatest s action).parsing hclaim
    cases hmove with
    | nothing he =>
      rw [he]
      exact ⟨h.known, h.books⟩
    | aside _ haside _ =>
      exact ⟨h.known.aside h.parse haside hparsing,
        h.books.aside hu h.parse haside hrows hparsing hissued⟩
    | starts row _ hnew _ _ hattachments _ _ =>
      have hmem : row ∈ (s.step greatest action).tables.attachments := by
        rw [hattachments]
        exact List.mem_append_right _ List.mem_cons_self
      obtain ⟨a, ha, hid, -⟩ := hrows row hmem
      exact absurd (hid ▸ h.sound.known.attachmentIds a ha) hnew
    | claims _ _ _ haction _ _ _ _ =>
      rw [haction] at hclaim
      nomatch hclaim
    | works _ _ haction _ _ _ _ =>
      rw [hparse] at haction
      nomatch haction
    | saves _ _ _ _ _ haction _ _ _ _ _ =>
      rw [haction] at hparse
      nomatch hparse
  have hsame (hattachments : (s.step greatest action).tables.attachments = s.tables.attachments) :
      ∀ a' ∈ (s.step greatest action).tables.attachments, ∃ a ∈ s.tables.attachments,
        a'.id = a.id ∧ a'.parse.attempts = a.parse.attempts ∧
          a'.parse.maxAttempts = a.parse.maxAttempts :=
    fun a' ha' => ⟨a', hattachments ▸ ha', rfl, rfl, rfl⟩
  cases action with
  | initiate newId conversationId kind filename mimeType sizeBytes startedAt =>
    exact initiate_counted h newId conversationId kind filename mimeType sizeBytes startedAt
  | abortFile call => exact hkeep rfl rfl (hsame (abort_attachments greatest s call))
  | claimDeletion objectKey workerId leaseToken =>
    refine hkeep rfl rfl (hsame ?_)
    unfold Storage.step
    simp only
    split
    · rfl
    · exact worked_attachments (claimDeletion_worked objectKey workerId leaseToken s.now s.tables)
  | markDeletionSucceeded claimed =>
    exact hkeep rfl rfl (hsame (worked_attachments (deletionStep_worked fun b t' ht =>
      markDeletionSucceeded_worked ht)))
  | markDeletionFailed claimed message retryable retryAt =>
    exact hkeep rfl rfl (hsame (worked_attachments (deletionStep_worked fun b t' ht =>
      markDeletionFailed_worked ht)))
  | claimAttachmentParse claimed workerId leaseToken =>
    exact claim_counted h claimed workerId leaseToken hlimit
  | renewAttachmentLease job =>
    obtain ⟨hk, hb⟩ := parseStep_counted h fun a hmem hl _ => counts_renew job s.now hl
    rw [ite_self] at hb
    exact ⟨hk, hb⟩
  | markParserSubmitted job parserJobId provider retryAt =>
    exact parseStep_counted h fun a hmem hl _ =>
      ⟨rfl, rfl, Or.inl rfl, fun _ _ hledger => hledger.defer⟩
  | deferParserPoll job retryAt =>
    exact parseStep_counted h fun a hmem hl _ =>
      ⟨rfl, rfl, Or.inl rfl, fun _ _ hledger => hledger.defer⟩
  | saveChunksAndComplete job source provider => exact save_counted h job source provider
  | markAttachmentFailed job retryable retryAt =>
    obtain ⟨hk, hb⟩ := parseStep_counted h fun a hmem hl hjob =>
      counts_failed (h.known a hmem job hjob hl) retryable retryAt
    rw [ite_self] at hb
    exact ⟨hk, hb⟩
  | _ => exact hkeep rfl rfl (step_keeps h.sound rfl).rows

/-- **The books of a document balance**, over every run in which no claim takes over a job of
    the document at its limit. -/
theorem parse_books (actions : List Action) (id : Uuid)
    (h : Machine.Along (Storage.step greatest)
      (fun s action => reclaimsSpentParse id s action = false) .initial actions) :
    ParseBooks id (Storage.after greatest actions)
      (Machine.count (Storage.step greatest) (parseDeferral id) .initial actions) := by
  have h0 : ParseCounted id .initial 0 :=
    ⟨Storage.initial_sound, initial_parseSound, fun _ h => (nomatch h), .start id⟩
  have hrun := Machine.run_count (p := parseDeferral id) h0 (fun s action n hlimit hinv => ?_)
    actions h
  · rw [Nat.zero_add] at hrun
    exact hrun.books
  · obtain ⟨hknown, hbooks⟩ := parseBooks_step hinv action hlimit
    exact ⟨Storage.step_sound greatest_exact hinv.sound action,
      step_parse s action hinv.sound hinv.parse, hknown, hbooks⟩

end ParseSteps

/-! ## 3. Deletion jobs -/

def deletionPhase : DeletionJobStatus → Phase
  | .queued => .waiting
  | .running => .running
  | .succeeded => .ended
  | .failed => .ended

/-- How often the deletion of an object has been claimed. -/
def deletionClaims (objectKey : ObjectKey) (s : Storage) : Nat :=
  s.deleting.countP fun claimed => claimed.objectKey == objectKey

/-- A claim takes over a job whose worker was silent in its last attempt, or an abort resets a
    job that workers have claimed. -/
def reclaimsSpentDeletion (objectKey : ObjectKey) (s : Storage) : Action → Bool
  | .claimDeletion claimed _ _ =>
      claimed == objectKey && s.tables.jobs.any fun job =>
        job.objectKey == objectKey && job.status == .running && deletionClaimable s.now job &&
          decide (job.maxAttempts ≤ job.attempts)
  | .abortFile call =>
      call.objectKey == objectKey && s.persisting.contains call &&
        s.tables.jobs.any fun job => job.objectKey == objectKey && job.attempts != 0
  | _ => false

structure DeletionBooks (objectKey : ObjectKey) (s : Storage) : Prop where
  keys : UniqueOn (·.objectKey) s.tables.jobs
  tokens : ∀ claimed ∈ s.deleting, claimed.leaseToken ∈ s.issued
  known : ∀ job ∈ s.tables.jobs, ∀ claimed ∈ s.deleting, leasedDeletion claimed job = true →
    claimed.attempts = job.attempts ∧ claimed.maxAttempts = job.maxAttempts
  fresh : (∀ job ∈ s.tables.jobs, job.objectKey ≠ objectKey) → deletionClaims objectKey s = 0
  bound : deletionClaims objectKey s ≤ 5
  rows : ∀ job ∈ s.tables.jobs, job.objectKey = objectKey → job.maxAttempts = 5 ∧
    Ledger 5 (deletionClaims objectKey s) 0 (deletionPhase job.status) job.attempts

section DeletionBooks

variable {s s' : Storage} {objectKey : ObjectKey}

theorem DeletionBooks.start (objectKey : ObjectKey) : DeletionBooks objectKey .initial where
  keys := UniqueOn.nil _
  tokens := fun _ h => nomatch h
  known := fun _ h => nomatch h
  fresh := fun _ => rfl
  bound := Nat.zero_le _
  rows := fun _ h => nomatch h

theorem leasedDeletion_status {claimed : ClaimedDeletion} {job : DeletionJob}
    (h : leasedDeletion claimed job = true) :
    job.objectKey = claimed.objectKey ∧ job.status = .running ∧
      job.leaseToken = some claimed.leaseToken := by
  unfold leasedDeletion at h
  simp only [Bool.and_eq_true, beq_iff_eq] at h
  exact ⟨h.1.1.1, h.1.1.2, h.2⟩

/-- A key that no job has, none had. -/
theorem absent_of_keys {jobs jobs' : List DeletionJob}
    (hkeys : jobs'.map (·.objectKey) = jobs.map (·.objectKey))
    (hno : ∀ job ∈ jobs', job.objectKey ≠ objectKey) : ∀ job ∈ jobs, job.objectKey ≠ objectKey := by
  intro job hjob he
  have hmem : job.objectKey ∈ jobs'.map (·.objectKey) := by
    rw [hkeys]
    exact List.mem_map_of_mem hjob
  obtain ⟨job', hjob', he'⟩ := List.mem_map.mp hmem
  exact hno job' hjob' (he'.trans he)

/-- A step that is no worker's. -/
theorem DeletionBooks.keeps (h : DeletionBooks objectKey s)
    (hkeep : KeepsAttempts s.tables s'.tables) (hdeleting : s'.deleting = s.deleting)
    (hissued : ∀ id ∈ s.issued, id ∈ s'.issued) : DeletionBooks objectKey s' := by
  obtain ⟨more, hjobs, hmore⟩ := hkeep.jobs
  have hclaims : deletionClaims objectKey s' = deletionClaims objectKey s := by
    unfold deletionClaims
    rw [hdeleting]
  have hrow : ∀ job ∈ s'.tables.jobs, job ∈ s.tables.jobs ∨
      (job.First ∧ ∀ known ∈ s.tables.jobs, known.objectKey ≠ job.objectKey) := by
    intro job hjob
    rw [hjobs] at hjob
    exact (List.mem_append.mp hjob).imp_right (hmore job)
  refine ⟨hkeep.keys h.keys, fun claimed hc => ?_, fun job hjob claimed hc hl => ?_, fun hno => ?_,
    ?_, fun job hjob hkey => ?_⟩
  · rw [hdeleting] at hc
    exact hissued _ (h.tokens claimed hc)
  · rw [hdeleting] at hc
    rcases hrow job hjob with hold | ⟨hfirst, -⟩
    · exact h.known job hold claimed hc hl
    · have hstatus := (leasedDeletion_status hl).2.1
      rw [hfirst.status] at hstatus
      nomatch hstatus
  · rw [hclaims]
    refine h.fresh fun job hjob => hno job ?_
    rw [hjobs]
    exact List.mem_append_left _ hjob
  · rw [hclaims]
    exact h.bound
  · rw [hclaims]
    rcases hrow job hjob with hold | ⟨hfirst, hnew⟩
    · exact h.rows job hold hkey
    · rw [h.fresh fun known hknown => by rw [← hkey]; exact hnew known hknown, hfirst.status,
        hfirst.attempts]
      exact ⟨hfirst.maxAttempts, .start (by decide)⟩

/-- An update that takes its rows out of their workers' hands. -/
theorem DeletionBooks.updated (h : DeletionBooks objectKey s) {p : DeletionJob → Bool}
    {f : DeletionJob → DeletionJob} (hjobs : s'.tables.jobs = updateWhere p f s.tables.jobs)
    (hdeleting : s'.deleting = s.deleting) (hissued : s'.issued = s.issued)
    (hf : ∀ job ∈ s.tables.jobs, p job = true →
      (f job).objectKey = job.objectKey ∧ (f job).maxAttempts = job.maxAttempts ∧
      (f job).status ≠ .running ∧
      (job.objectKey = objectKey → job.maxAttempts = 5 → ∀ claims,
        Ledger 5 claims 0 (deletionPhase job.status) job.attempts →
        Ledger 5 claims 0 (deletionPhase (f job).status) (f job).attempts)) :
    DeletionBooks objectKey s' := by
  have hclaims : deletionClaims objectKey s' = deletionClaims objectKey s := by
    unfold deletionClaims
    rw [hdeleting]
  have hkeys : s'.tables.jobs.map (·.objectKey) = s.tables.jobs.map (·.objectKey) := by
    rw [hjobs]
    unfold updateWhere
    rw [List.map_map]
    refine List.map_congr_left fun job hjob => ?_
    show (if p job = true then f job else job).objectKey = job.objectKey
    split
    · next hl => exact (hf job hjob hl).1
    · rfl
  refine ⟨?_, fun c hc => ?_, fun job' hjob' c hc hl => ?_, fun hno => ?_, ?_,
    fun job' hjob' hkey => ?_⟩
  · unfold UniqueOn
    rw [hkeys]
    exact h.keys
  · rw [hdeleting] at hc
    rw [hissued]
    exact h.tokens c hc
  · rw [hdeleting] at hc
    rw [hjobs] at hjob'
    obtain ⟨job, hjob, rfl⟩ := mem_updateWhere.mp hjob'
    by_cases hheld : p job = true
    · rw [if_pos hheld] at hl
      exact absurd (leasedDeletion_status hl).2.1 (hf job hjob hheld).2.2.1
    · rw [if_neg hheld] at hl ⊢
      exact h.known job hjob c hc hl
  · rw [hclaims]
    exact h.fresh (absent_of_keys hkeys hno)
  · rw [hclaims]
    exact h.bound
  · rw [hclaims]
    rw [hjobs] at hjob'
    obtain ⟨job, hjob, rfl⟩ := mem_updateWhere.mp hjob'
    by_cases hheld : p job = true
    · rw [if_pos hheld] at hkey ⊢
      obtain ⟨hsame, hmax, -, hledger⟩ := hf job hjob hheld
      obtain ⟨hfive, hbooks⟩ := h.rows job hjob (hsame.symm.trans hkey)
      rw [hmax]
      exact ⟨hfive, hledger (hsame.symm.trans hkey) hfive _ hbooks⟩
    · rw [if_neg hheld] at hkey ⊢
      exact h.rows job hjob hkey

/-- The claim of a deletion that is not at its limit. -/
theorem DeletionBooks.claims (h : DeletionBooks objectKey s) (claimed : ObjectKey)
    (workerId : String) {token : Uuid} (hfresh : token ∉ s.issued)
    (hlimit : reclaimsSpentDeletion objectKey s (.claimDeletion claimed workerId token) = false) :
    DeletionBooks objectKey
      { s.draw token with
        tables := (claimDeletion claimed workerId token s.now s.tables).2
        deleting := (claimDeletion claimed workerId token s.now s.tables).1.toList ++
          s.deleting } := by
  have hissued : ∀ x ∈ s.issued, x ∈ token :: s.issued := fun x hx => List.mem_cons_of_mem _ hx
  unfold claimDeletion
  split
  · exact h.keeps (.refl _) rfl hissued
  · next job hfind =>
    have hmem := List.mem_of_find?_eq_some hfind
    have hcond := List.find?_some hfind
    rw [Bool.and_eq_true, beq_iff_eq] at hcond
    obtain ⟨rfl, hclaim⟩ := hcond
    have hone : ∀ job' ∈ s.tables.jobs, job'.objectKey = job.objectKey → job' = job :=
      fun job' hjob' he => h.keys.eq hjob' hmem he
    generalize hs' : ({ s.draw token with
      tables := { s.tables with jobs := updateWhere _ _ s.tables.jobs }
      deleting := _ } : Storage) = s'
    have hrow : ∀ job' ∈ s'.tables.jobs,
        job' = { job with
          status := .running
          attempts := job.attempts + 1
          lockedAt := some s.now
          lockedBy := some workerId
          leaseToken := some token } ∨
        (job' ∈ s.tables.jobs ∧ job'.objectKey ≠ job.objectKey) := by
      subst hs'
      intro job' hjob'
      obtain ⟨known, hknown, rfl⟩ := mem_updateWhere.mp hjob'
      split
      · next he =>
        rw [hone known hknown (beq_iff_eq.mp he)]
        exact Or.inl rfl
      · next he => exact Or.inr ⟨hknown, fun e => he (beq_iff_eq.mpr e)⟩
    have hclaims : deletionClaims objectKey s' =
        deletionClaims objectKey s + if job.objectKey = objectKey then 1 else 0 := by
      subst hs'
      unfold deletionClaims
      simp only [Option.toList_some, List.singleton_append, List.countP_cons, beq_iff_eq]
    have hdeleting : s'.deleting = ⟨job.objectKey, job.attempts + 1, job.maxAttempts, workerId,
        token⟩ :: s.deleting := by
      subst hs'
      rfl
    have hkeys : s'.tables.jobs.map (·.objectKey) = s.tables.jobs.map (·.objectKey) := by
      subst hs'
      refine map_updateWhere ?_ _
      exact fun _ => rfl
    have hissued' : s'.issued = token :: s.issued := by
      subst hs'
      rfl
    have hbooks : job.objectKey = objectKey → job.maxAttempts = 5 ∧
        Ledger 5 (deletionClaims objectKey s') 0 .running (job.attempts + 1) := by
      intro hkey
      obtain ⟨hfive, hledger⟩ := h.rows job hmem hkey
      rw [if_pos hkey] at hclaims
      rw [hclaims]
      refine ⟨hfive, hledger.claim ?_⟩
      cases hstatus : job.status with
      | queued => exact hledger.left (by rw [hstatus]; rfl)
      | running =>
        unfold reclaimsSpentDeletion at hlimit
        simp only [hkey, beq_self_eq_true, Bool.true_and] at hlimit
        have hrow := List.any_eq_false.mp hlimit job hmem
        rw [← hfive]
        simpa [hkey, hstatus, hclaim] using hrow
      | succeeded => simp [deletionClaimable, hstatus] at hclaim
      | failed => simp [deletionClaimable, hstatus] at hclaim
    refine ⟨?_, fun c hc => ?_, fun job' hjob' c hc hl => ?_, fun hno => ?_, ?_,
      fun job' hjob' hkey => ?_⟩
    · unfold UniqueOn
      rw [hkeys]
      exact h.keys
    · rw [hissued']
      rw [hdeleting] at hc
      rcases List.mem_cons.mp hc with rfl | hc
      · exact List.mem_cons_self
      · exact hissued _ (h.tokens c hc)
    · rw [hdeleting] at hc
      rcases hrow job' hjob' with rfl | ⟨hold, hne⟩
      · rcases List.mem_cons.mp hc with rfl | hc
        · exact ⟨rfl, rfl⟩
        · have htoken : token = c.leaseToken := Option.some.inj (leasedDeletion_status hl).2.2
          exact absurd (htoken ▸ h.tokens c hc) hfresh
      · rcases List.mem_cons.mp hc with rfl | hc
        · exact absurd (leasedDeletion_status hl).1 hne
        · exact h.known job' hold c hc hl
    · have hold := absent_of_keys hkeys hno
      rw [if_neg (hold job hmem), Nat.add_zero] at hclaims
      rw [hclaims]
      exact h.fresh hold
    · by_cases hkey : job.objectKey = objectKey
      · exact (hbooks hkey).2.bound
      · rw [if_neg hkey, Nat.add_zero] at hclaims
        rw [hclaims]
        exact h.bound
    · rcases hrow job' hjob' with rfl | ⟨hold, hne⟩
      · exact hbooks hkey
      · rw [if_neg fun e => hne (hkey.trans e.symm), Nat.add_zero] at hclaims
        rw [hclaims]
        exact h.rows job' hold hkey

/-- A step that leaves the jobs and the workers' copies alone. -/
theorem DeletionBooks.same (h : DeletionBooks objectKey s)
    (hjobs : s'.tables.jobs = s.tables.jobs) (hdeleting : s'.deleting = s.deleting)
    (hissued : ∀ id ∈ s.issued, id ∈ s'.issued) : DeletionBooks objectKey s' := by
  have hkeep : KeepsAttempts s.tables { s.tables with jobs := s'.tables.jobs } := .of_same rfl hjobs
  have hstep : DeletionBooks objectKey { s' with tables := { s.tables with jobs := s'.tables.jobs } } :=
    h.keeps hkeep hdeleting hissued
  exact ⟨hstep.keys, hstep.tokens, hstep.known, hstep.fresh, hstep.bound, hstep.rows⟩

/-- What the end of a deletion does to its row. -/
theorem markDeletionSucceeded_ok {claimed : ClaimedDeletion} {now : Int} {t t' : Tables} {r : Unit}
    (h : markDeletionSucceeded claimed now t = .ok (r, t')) :
    t' =
      { t with
        jobs := updateWhere (leasedDeletion claimed)
          (fun job =>
            { job with
              status := .succeeded
              completedAt := some now
              lastError := none
              lockedAt := none
              lockedBy := none
              leaseToken := none })
          t.jobs } := by
  unfold markDeletionSucceeded at h
  split at h
  · nomatch h
  · exact (congrArg Prod.snd (Except.ok.inj h)).symm

theorem markDeletionFailed_ok {claimed : ClaimedDeletion} {message : String} {retryable : Bool}
    {retryAt now : Int} {t t' : Tables} {r : Unit}
    (h : markDeletionFailed claimed message retryable retryAt now t = .ok (r, t')) :
    let terminal := claimed.attempts ≥ claimed.maxAttempts || !retryable
    t' =
      { t with
        jobs := updateWhere (leasedDeletion claimed)
          (fun job =>
            { job with
              status := if terminal then .failed else .queued
              runAt := retryAt
              lastError := some message
              completedAt := if terminal then some now else none
              lockedAt := none
              lockedBy := none
              leaseToken := none })
          t.jobs } := by
  unfold markDeletionFailed at h
  simp only at h
  split at h
  · nomatch h
  · exact (congrArg Prod.snd (Except.ok.inj h)).symm

/-- The end of a claimed deletion, under its lease. -/
theorem DeletionBooks.deletionStep (h : DeletionBooks objectKey s) {claimed : ClaimedDeletion}
    {tx : Tables → Except StorageError (Unit × Tables)} {f : DeletionJob → DeletionJob}
    (htx : ∀ b t', tx s.tables = .ok (b, t') →
      t' = { s.tables with jobs := updateWhere (leasedDeletion claimed) f s.tables.jobs })
    (hf : ∀ job ∈ s.tables.jobs, leasedDeletion claimed job = true → claimed ∈ s.deleting →
      (f job).objectKey = job.objectKey ∧ (f job).maxAttempts = job.maxAttempts ∧
      (f job).status ≠ .running ∧
      (job.maxAttempts = 5 → ∀ claims, Ledger 5 claims 0 .running job.attempts →
        Ledger 5 claims 0 (deletionPhase (f job).status) (f job).attempts)) :
    DeletionBooks objectKey (s.deletionStep claimed tx) := by
  unfold Storage.deletionStep
  split
  · next hmem =>
    unfold Storage.transact
    rcases Machine.commit_cases s.tables (tx s.tables) with he | ⟨b, t', ht, he⟩
    · rw [he]
      exact h
    · rw [he, htx b t' ht]
      refine h.updated rfl rfl rfl fun job hjob hl => ?_
      obtain ⟨hkey, hmax, hstatus, hledger⟩ := hf job hjob hl (List.contains_iff_mem.mp hmem)
      refine ⟨hkey, hmax, hstatus, fun _ hfive claims hbooks => ?_⟩
      rw [(leasedDeletion_status hl).2.1] at hbooks
      exact hledger hfive claims hbooks
  · exact h

/-- An abort that finds the deletion of its object unclaimed. -/
theorem DeletionBooks.abort (h : DeletionBooks objectKey s) (call : PersistCall)
    (hlimit : reclaimsSpentDeletion objectKey s (.abortFile call) = false) :
    DeletionBooks objectKey (s.abort greatest call) := by
  unfold Storage.abort
  split
  · exact h
  · next hcall =>
    rw [Bool.not_eq_true, Bool.not_eq_false'] at hcall
    show DeletionBooks objectKey { s with
      tables := Machine.commit s.tables (abortFile greatest call.fileId call.artifactId
        call.objectKey s.now s.tables)
      persisting := s.persisting.erase call }
    rcases Machine.commit_cases s.tables (abortFile greatest call.fileId call.artifactId
      call.objectKey s.now s.tables) with he | ⟨b, t', ht, he⟩
    · rw [he]
      exact h.keeps (.refl _) rfl fun _ hx => hx
    · rw [he]
      obtain ⟨hattachments, hjobs⟩ := abortFile_jobs ht
      unfold requeueJob at hjobs
      split at hjobs
      · refine h.updated hjobs rfl rfl fun job hjob hkey => ⟨rfl, rfl, fun e => (nomatch e),
          fun hown hfive claims hbooks => ?_⟩
        have hcallKey : call.objectKey = objectKey := (beq_iff_eq.mp hkey).symm.trans hown
        unfold reclaimsSpentDeletion at hlimit
        simp only [hcallKey, hcall, beq_self_eq_true, Bool.true_and] at hlimit
        have hzero := List.any_eq_false.mp hlimit job hjob
        simp only [hown, beq_self_eq_true, Bool.true_and, bne_iff_ne, ne_eq, not_not] at hzero
        rw [hzero] at hbooks
        exact hbooks.requeue (by decide)
      · refine h.keeps ?_ rfl fun _ hx => hx
        exact (KeepsAttempts.insertJob s.tables (queuedJob_first _ _ _ _)).trans
          (.of_same (hattachments.trans (insertJobs_attachments s.tables [_]).symm) hjobs)

end DeletionBooks

section DeletionSteps

variable [JsString.Sha256] {s : Storage} {objectKey : ObjectKey}

omit [JsString.Sha256] in
/-- What the operations on parse jobs leave alone. -/
theorem parseStep_jobs {job : ChatAttachmentParseJob}
    {tx : Tables → Except StorageError (Unit × Tables)}
    (h : ∀ b t', tx s.tables = .ok (b, t') → t'.jobs = s.tables.jobs) :
    (s.parseStep job tx).tables.jobs = s.tables.jobs := by
  unfold Storage.parseStep
  split
  · show (Machine.commit s.tables (tx s.tables)).jobs = _
    rcases Machine.commit_cases s.tables (tx s.tables) with he | ⟨b, t', ht, he⟩
    · rw [he]
    · rw [he]
      exact h b t' ht
  · rfl

omit [JsString.Sha256] in
theorem updateLeased_jobs {job : ChatAttachmentParseJob} {f : Attachment → Attachment}
    {t t' : Tables} {r : Unit} (h : updateLeased job f t = .ok (r, t')) : t'.jobs = t.jobs := by
  obtain ⟨-, rfl⟩ := updateLeased_ok h
  rfl

/-- **What one step does to the books of a deletion.** -/
theorem deletionBooks_step (hs : Sound s) (h : DeletionBooks objectKey s) (action : Action)
    (hlimit : reclaimsSpentDeletion objectKey s action = false) :
    DeletionBooks objectKey (s.step greatest action) := by
  have hissued := (step_frame greatest s action).issued
  have hsame (hworks : action.worksDeletion = false)
      (hjobs : (s.step greatest action).tables.jobs = s.tables.jobs) :
      DeletionBooks objectKey (s.step greatest action) := by
    have hdeleting := (step_frame greatest s action).deleting hworks
    exact h.same hjobs hdeleting hissued
  cases action with
  | initiate id conversationId kind filename mimeType sizeBytes startedAt =>
    refine hsame rfl ?_
    unfold Storage.step
    simp only
    split
    · rfl
    · unfold Storage.transact
      generalize (⟨id, conversationId, kind, filename, mimeType, sizeBytes, _, _, _⟩ :
        InitiateInput) = input
      rcases Machine.commit_cases (s.draw id).tables
        (initiate input s.now (s.draw id).tables) with he | ⟨b, t', ht, he⟩
      · rw [he]
        rfl
      · obtain ⟨-, -, -, -, -, rfl⟩ := initiate_ok ht
        rw [he]
        rfl
  | abortFile call => exact h.abort call hlimit
  | claimDeletion claimed workerId leaseToken =>
    unfold Storage.step
    simp only
    split
    · exact h
    · next hfresh => exact h.claims claimed workerId (by simpa using hfresh) hlimit
  | markDeletionSucceeded claimed =>
    refine h.deletionStep (fun b t' ht => markDeletionSucceeded_ok ht) fun job hjob hl _ => ?_
    exact ⟨rfl, rfl, fun e => (nomatch e), fun _ _ hbooks => hbooks.finish⟩
  | markDeletionFailed claimed message retryable retryAt =>
    refine h.deletionStep (fun b t' ht => markDeletionFailed_ok ht) fun job hjob hl hmem => ?_
    obtain ⟨hattempts, hmax⟩ := h.known job hjob claimed hmem hl
    refine ⟨rfl, rfl, ?_, fun hfive claims hbooks => ?_⟩
    · dsimp only
      split <;> exact fun e => nomatch e
    · dsimp only
      split
      · exact hbooks.finish
      · next hno =>
        rw [Bool.not_eq_true, Bool.or_eq_false_iff, decide_eq_false_iff_not, hattempts, hmax,
          hfive] at hno
        exact hbooks.retry (by omega)
  | claimAttachmentParse id workerId leaseToken =>
    refine hsame rfl ?_
    unfold Storage.step claimAttachmentParse
    simp only
    split
    · rfl
    · split <;> rfl
  | renewAttachmentLease job =>
    exact hsame rfl (parseStep_jobs fun b t' ht => updateLeased_jobs ht)
  | markParserSubmitted job parserJobId provider retryAt =>
    exact hsame rfl (parseStep_jobs fun b t' ht => updateLeased_jobs ht)
  | deferParserPoll job retryAt =>
    exact hsame rfl (parseStep_jobs fun b t' ht => updateLeased_jobs ht)
  | saveChunksAndComplete job source provider =>
    refine hsame rfl ?_
    unfold Storage.step
    simp only
    split
    · refine parseStep_jobs fun b t' ht => ?_
      obtain ⟨-, rfl⟩ := saveChunksAndComplete_ok ht
      rfl
    · rfl
  | markAttachmentFailed job retryable retryAt =>
    exact hsame rfl (parseStep_jobs fun b t' ht => updateLeased_jobs ht)
  | _ => exact h.keeps (step_keeps hs rfl) ((step_frame greatest s _).deleting rfl) hissued

/-- **The books of a deletion balance**, over every run in which no claim takes over the job at
    its limit and no abort resets it after a claim. -/
theorem deletion_books (actions : List Action) (objectKey : ObjectKey)
    (h : Machine.Along (Storage.step greatest)
      (fun s action => reclaimsSpentDeletion objectKey s action = false) .initial actions) :
    DeletionBooks objectKey (Storage.after greatest actions) := by
  have h0 : Sound .initial ∧ DeletionBooks objectKey .initial :=
    ⟨Storage.initial_sound, .start objectKey⟩
  have hrun := @Machine.run_invariant_along _ _ _ _
    (fun s => Sound s ∧ DeletionBooks objectKey s) _ h0 (fun s action hlimit hinv => ?_) actions h
  · exact hrun.2
  · exact ⟨Storage.step_sound greatest_exact hinv.1 action,
      deletionBooks_step hinv.1 hinv.2 action hlimit⟩

end DeletionSteps

end OpenVac.ChatStorage
