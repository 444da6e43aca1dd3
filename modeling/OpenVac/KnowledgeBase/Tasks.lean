/-
  File:      OpenVac/KnowledgeBase/Tasks.lean
  Subject:   The background tasks of the knowledge base, over every run.

  * `TaskEffect` -- what a step does to the tasks: nothing, one queued, one claimed, or an update
    by the worker that holds the lease.
  * `Consistent` -- a task's key, stage and payload are about one version; a lease token belongs
    to one claim; a worker that holds a lease knows the payload and the attempts of its task.
  * `consistent_after` -- **in every reachable state.**
-/
import OpenVac.KnowledgeBase.Identity

namespace OpenVac.KnowledgeBase

open Rows JsString JsUrl

/-! ## 1. What a step does to the tasks -/

/-- What is queued: the reading of an original, or the embedding of a reviewed text. -/
inductive Queueable (db : Database) : TaskKey → KnowledgeIngestionPayload → Prop where
  | ingestion {original : KnowledgeOriginal} {documentId : Uuid} (stored : original ∈ db.originals) :
      Queueable db (.ingestion original.versionId original.sha256)
        { stage := .ocr_pending, documentId := documentId, versionId := original.versionId }
  | embedding {documentId versionId : Uuid} {review : Review} {producer : EmbeddingProducer}
      (approved : review.status = .approved) :
      Queueable db (.embedding versionId review.contentHash producer)
        (embeddingPayload documentId versionId review)

def queuedTask (id : Uuid) (key : TaskKey) (payload : KnowledgeIngestionPayload) (runAt : Int) :
    BackgroundTask :=
  ⟨id, key, .queued, payload, 0, 3, runAt, none, none, none⟩

/-- What a worker does to the task it holds. -/
inductive HolderUpdate (now : Int) (job : KnowledgeIngestionJob) :
    (BackgroundTask → BackgroundTask) → Action → Prop where
  | update {f : BackgroundTask → BackgroundTask} {a : Action} (h : LeasedUpdate now job f a) :
      HolderUpdate now job f a
  | saveParsedForReview {parsed : ChatStorage.ParsedDocument} :
      HolderUpdate now job succeeded (.saveParsedForReview job parsed)
  | saveEmbeddingsAndComplete {chunkCount : Nat} :
      HolderUpdate now job succeeded (.saveEmbeddingsAndComplete job chunkCount)

inductive TaskEffect (s : Base) (tasks' : List BackgroundTask) : Action → Prop where
  | same {a : Action} (effect : tasks' = s.db.tasks) : TaskEffect s tasks' a
  | queued {a : Action} {id : Uuid} {key : TaskKey} {payload : KnowledgeIngestionPayload}
      (runAt : Int) (drawn : id = s.db.nextId)
      (fresh : ∀ t ∈ s.db.tasks, t.idempotencyKey ≠ key)
      (queueable : Queueable s.db key payload)
      (effect : tasks' = s.db.tasks ++ [queuedTask id key payload runAt]) : TaskEffect s tasks' a
  | claimed {taskId : Uuid} {workerId : Text} {task : BackgroundTask}
      (mem : task ∈ s.db.tasks) (hid : task.id = taskId)
      (claimable : taskClaimable s.now task = true)
      (effect : tasks' = updateWhere (fun t => t.id == task.id)
        (leasedTask workerId s.db.nextId s.now) s.db.tasks) :
      TaskEffect s tasks' (.claimNext taskId workerId)
  | held {a : Action} {job : KnowledgeIngestionJob} {f : BackgroundTask → BackgroundTask}
      (held : job ∈ s.jobs ∨ job ∈ s.embedding)
      (update : HolderUpdate s.now job f a)
      (effect : tasks' = updateWhere (holdsLease job) f s.db.tasks) : TaskEffect s tasks' a

/-- Queueing adds a task, or its key is taken. -/
theorem TaskEffect.of_queueTask {s : Base} {a : Action} {key : TaskKey}
    {payload : KnowledgeIngestionPayload} {db : Database} (runAt : Int)
    (ht : db.tasks = s.db.tasks) (hn : db.nextId = s.db.nextId)
    (hq : Queueable s.db key payload) :
    TaskEffect s (db.queueTask key payload runAt).tasks a := by
  rcases tasks_queueTask db key payload runAt with ⟨_, e⟩ | ⟨hfresh, e⟩
  · exact .same (e.trans ht)
  · rw [ht] at hfresh
    rw [e, ht]
    exact .queued runAt hn hfresh hq rfl

section Runs

variable [Sha256] [LocaleOrder] [UrlParser]

omit [LocaleOrder] [UrlParser] in
/-- The review that a transition queues is an approval of the version's content. -/
theorem transition_task {target : ReviewTransitionInput} {input : KnowledgeReviewInput}
    {transition : KnowledgeReviewTransition}
    (h : buildKnowledgeReviewTransition target input = .ok transition) :
    transition.contentHash = sha256KnowledgeContent target.content ∧
      transition.review.contentHash = transition.contentHash ∧
      transition.review.status = (if input.approved then .approved else .rejected) ∧
      transition.review.reviewedBy = .user target.reviewerId ∧
      ((input.approved = false ∧ transition.task = none ∧ transition.versionStatus = .draft ∧
        transition.documentStatus = .draft ∧ transition.embeddingStatus = .pending_review) ∨
      (input.approved = true ∧ transition.versionStatus = .review ∧
        transition.documentStatus = .review ∧
        ((target.ingestionMode = some .full_text ∧ transition.embeddingStatus = .queued ∧
          transition.task = some ⟨.embedding target.versionId transition.review.contentHash
            .version_review, embeddingPayload target.documentId target.versionId
              transition.review⟩) ∨
        (target.ingestionMode = some .metadata_only ∧
          transition.embeddingStatus = .not_applicable ∧ transition.task = none)))) := by
  unfold buildKnowledgeReviewTransition at h
  obtain ⟨_, _, h⟩ := Except.bind_ok_iff.mp h
  obtain ⟨mode, hmode, h⟩ := Except.bind_ok_iff.mp h
  obtain ⟨_, _, h⟩ := Except.bind_ok_iff.mp h
  cases hap : input.approved with
  | false =>
    rw [hap] at h
    cases h
    exact ⟨rfl, rfl, rfl, rfl, Or.inl ⟨rfl, rfl, rfl, rfl, rfl⟩⟩
  | true =>
    rw [hap] at h
    cases mode with
    | full_text =>
      cases h
      exact ⟨rfl, rfl, rfl, rfl, Or.inr ⟨rfl, rfl, rfl, Or.inl ⟨orThrow_ok.mp hmode, rfl, rfl⟩⟩⟩
    | metadata_only =>
      cases h
      exact ⟨rfl, rfl, rfl, rfl, Or.inr ⟨rfl, rfl, rfl, Or.inr ⟨orThrow_ok.mp hmode, rfl, rfl⟩⟩⟩

theorem task_effect {s : Base} (hk : Known s.db) (a : Action) :
    TaskEffect s (s.step a).db.tasks a := by
  cases step_effect hk.fresh a with
  | quiet _ _ effect => exact .same effect.tasks
  | activatePending _ _ _ _ effect => exact .same effect.tasks
  | createKnowledgeDraft effect => exact .same effect.tasks
  | importKnowledgeCandidate _ effect => exact .same effect.tasks
  | updateKnowledgeDraft _ _ _ _ _ _ effect => exact .same effect.tasks
  | reviewKnowledgeDocument _ _ _ _ _ _ built _ effect =>
    rw [effect.tasks]
    unfold queueReviewTask
    obtain ⟨_, _, hstatus, _, ⟨_, htask, _⟩ | ⟨hyes, _, _, ⟨_, _, htask⟩ | ⟨_, _, htask⟩⟩⟩ :=
      transition_task built
    · rw [htask]
      exact .same rfl
    · rw [htask]
      rw [hyes] at hstatus
      dsimp only
      split
      · exact .same rfl
      · exact .of_queueTask _ rfl rfl (.embedding hstatus)
    · rw [htask]
      exact .same rfl
  | publishKnowledgeDraft _ _ _ _ _ _ effect => exact .same effect.tasks
  | archiveKnowledgeDocument _ effect =>
    refine .same (effect.tasks.trans ?_)
    split <;> rfl
  | rollbackKnowledgeDocument _ _ _ _ _ _ effect => exact .same effect.tasks
  | completeReview _ _ _ _ _ _ _ effect =>
    rw [effect.tasks]
    split
    · exact .of_queueTask _ rfl rfl (@Queueable.embedding _ _ _ (PendingCompletion.jobReview _) _ rfl)
    · exact .same rfl
  | archive _ _ effect => exact .same effect.tasks
  | manual_approve_with_note _ _ _ _ _ _ effect =>
    rw [effect.tasks]
    unfold approveWithNote
    dsimp only
    split
    · exact .of_queueTask _ rfl rfl (@Queueable.embedding _ _ _ (manualReview _ _ _ _) _ rfl)
    · exact .same rfl
  | manual_edit_and_retry _ _ _ _ _ _ effect => exact .same effect.tasks
  | revised _ _ _ _ _ effect => exact .same effect.tasks
  | needsHuman _ _ effect => exact .same effect.tasks
  | verified _ _ _ _ _ effect =>
    rw [effect.tasks]
    unfold publishVerified
    dsimp only
    split
    · exact .of_queueTask _ rfl rfl (@Queueable.embedding _ _ _ (automationReview _ _ _ _) _ rfl)
    · exact .same rfl
  | initiateUpload _ effect => exact .same effect.tasks
  | completeUpload stored origin _ _ _ _ _ effect =>
    rw [effect.tasks]
    subst origin
    exact @TaskEffect.of_queueTask _ _ _ _ s.db _ rfl rfl (.ingestion stored)
  | claimNext mem hid claimable effect => exact .claimed mem hid claimable effect.tasks
  | leasedUpdate held update effect => exact .held (Or.inl held) (.update update) effect.tasks
  | saveParsedForReview held _ _ _ _ _ _ _ effect =>
    exact .held (Or.inl held) .saveParsedForReview effect.tasks
  | saveEmbeddingsAndComplete _ held _ _ _ _ _ _ _ _ _ _ _ effect =>
    exact .held (Or.inr held) .saveEmbeddingsAndComplete effect.tasks

omit [Sha256] [LocaleOrder] [UrlParser] in
/-- A claim leases one task under a new token, or finds none. -/
theorem claimNext_spec (taskId : Uuid) (workerId : Text) (now : Int) (db : Database) :
    claimNext taskId workerId now db = (none, db) ∨
      ∃ t ∈ db.tasks, t.id = taskId ∧ taskClaimable now t = true ∧
        claimNext taskId workerId now db =
          (some ⟨t.id, workerId, db.nextId, t.payload, t.attempts + 1, t.maxAttempts⟩,
            { db with
              nextId := db.nextId + 1
              tasks := updateWhere (fun u => u.id == t.id) (leasedTask workerId db.nextId now)
                db.tasks }) := by
  unfold claimNext
  split
  · exact Or.inl rfl
  · next t ht =>
      have hp := List.find?_some ht
      simp only [Bool.and_eq_true, beq_iff_eq] at hp
      exact Or.inr ⟨t, List.mem_of_find?_eq_some ht, hp.1, hp.2, rfl⟩

/-- No step gives an id back. -/
theorem nextId_le_step {s : Base} (hk : Known s.db) (a : Action) :
    s.db.nextId ≤ (s.step a).db.nextId := by
  cases step_effect hk.fresh a with
  | quiet _ _ effect => exact effect.next
  | activatePending _ _ _ _ effect => exact effect.next
  | createKnowledgeDraft effect => exact Nat.le_of_add_right_le effect.next
  | importKnowledgeCandidate _ effect => exact Nat.le_of_add_right_le effect.next
  | updateKnowledgeDraft _ _ _ _ _ _ effect => exact effect.next
  | reviewKnowledgeDocument _ _ _ _ _ _ _ _ effect =>
    refine Nat.le_trans ((queueReviewTask_rest ..).2.2.2 _ ?_) effect.next
    exact Nat.le_refl s.db.nextId
  | publishKnowledgeDraft _ _ _ _ _ _ effect => exact effect.next
  | archiveKnowledgeDocument _ effect =>
    refine Nat.le_trans ?_ effect.next
    split <;> exact Nat.le_refl _
  | rollbackKnowledgeDocument _ _ _ _ _ _ effect => exact Nat.le_of_succ_le effect.next
  | completeReview _ _ _ _ _ _ _ effect =>
    refine Nat.le_trans ((completeReview_rest ..).2.2.2 _ ?_) effect.next
    exact Nat.le_refl s.db.nextId
  | archive _ _ effect => exact effect.next
  | manual_approve_with_note _ _ _ _ _ _ effect =>
    refine Nat.le_trans ((approveWithNote_rest ..).2.2.2 _ ?_) effect.next
    exact Nat.le_refl s.db.nextId
  | manual_edit_and_retry _ _ _ _ _ _ effect => exact Nat.le_of_succ_le effect.next
  | revised _ _ _ _ _ effect => exact Nat.le_of_succ_le effect.next
  | needsHuman _ _ effect => exact effect.next
  | verified _ _ _ _ _ effect =>
    refine Nat.le_trans ((publishVerified_rest ..).2.2.2 _ ?_) effect.next
    exact Nat.le_refl s.db.nextId
  | initiateUpload _ effect => exact Nat.le_of_add_right_le effect.next
  | completeUpload _ _ _ _ _ _ _ effect =>
    exact Nat.le_trans (le_nextId_queueTask (Nat.le_refl s.db.nextId) ..) effect.next
  | claimNext _ _ _ effect => exact Nat.le_of_succ_le effect.next
  | leasedUpdate _ _ effect => exact effect.next
  | saveParsedForReview _ _ _ _ _ _ _ _ effect => exact effect.next
  | saveEmbeddingsAndComplete _ _ _ _ _ _ _ _ _ _ _ _ _ effect => exact effect.next

omit [Sha256] [LocaleOrder] [UrlParser] in
theorem jobStep_jobs (s : Base) (job : KnowledgeIngestionJob) (allowed : IngestionStage → Bool)
    (tx : Database → Except KnowledgeError (Unit × Database)) :
    (s.jobStep job allowed tx).jobs = s.jobs ∧ (s.jobStep job allowed tx).embedding = s.embedding := by
  unfold Base.jobStep
  split <;> exact ⟨rfl, rfl⟩

/-- A worker's jobs come from its claims. -/
theorem jobs_step (s : Base) (a : Action) :
    (s.step a).jobs = s.jobs ∨ ∃ taskId workerId, a = .claimNext taskId workerId ∧
      (s.step a).jobs = (claimNext taskId workerId s.now s.db).1.toList ++ s.jobs := by
  cases a with
  | claimNext taskId workerId => exact Or.inr ⟨taskId, workerId, rfl, rfl⟩
  | _ =>
    left
    unfold Base.step
    first
      | rfl
      | exact (jobStep_jobs ..).1
      | (dsimp only; split <;> rfl)

/-- What a worker embeds it has claimed. -/
theorem embedding_step (s : Base) (a : Action) :
    (s.step a).embedding = s.embedding ∨ ∃ job, a = .loadApprovedContent job ∧
      job ∈ s.jobs ∧ Base.embeddingStage job.payload.stage = true ∧
      (∃ t ∈ s.db.tasks, holdsLease job t = true) ∧
      (loadApprovedContent job s.db).isSome = true ∧
      (s.step a).embedding = job :: s.embedding := by
  cases a with
  | loadApprovedContent job =>
    unfold Base.step
    dsimp only
    split
    · next h =>
        simp only [Bool.and_eq_true, List.contains_iff_mem] at h
        obtain ⟨⟨⟨hj, hs⟩, hl⟩, hc⟩ := h
        refine Or.inr ⟨job, rfl, hj, hs, ?_, hc, rfl⟩
        unfold assertCurrentLease throwIf at hl
        split at hl
        · cases hl
        · next hany => exact List.any_eq_true.mp (by simpa using hany)
    · exact Or.inl rfl
  | _ =>
    left
    unfold Base.step
    first
      | rfl
      | exact (jobStep_jobs ..).2
      | (dsimp only; split <;> rfl)

/-! ## 2. Key, payload and lease belong together -/

/-- What a task's key names, its payload is about. -/
inductive AboutVersion (db : Database) : TaskKey → KnowledgeIngestionPayload → Prop where
  | ingestion {original : KnowledgeOriginal} {payload : KnowledgeIngestionPayload}
      (stored : original ∈ db.originals)
      (version : payload.versionId = original.versionId)
      (stage : payload.stage = .ocr_pending ∨ payload.stage = .ocr_processing) :
      AboutVersion db (.ingestion original.versionId original.sha256) payload
  | embedding {documentId versionId : Uuid} {review : Review} {producer : EmbeddingProducer}
      (approved : review.status = .approved) :
      AboutVersion db (.embedding versionId review.contentHash producer)
        (embeddingPayload documentId versionId review)

structure Consistent (s : Base) : Prop where
  about : ∀ t ∈ s.db.tasks, AboutVersion s.db t.idempotencyKey t.payload
  jobTokens : ∀ job ∈ s.jobs, job.leaseToken < s.db.nextId
  taskTokens : ∀ t ∈ s.db.tasks, ∀ token, t.leaseToken = some token → token < s.db.nextId
  payload : ∀ job ∈ s.jobs, ∀ t ∈ s.db.tasks, holdsLease job t = true →
    job.payload = t.payload ∧ job.attempts = t.attempts ∧ job.maxAttempts = t.maxAttempts
  embedding : ∀ job ∈ s.embedding, job ∈ s.jobs ∧ Base.embeddingStage job.payload.stage = true
  originalIds : ∀ o ∈ s.db.originals, o.versionId < s.db.nextId
  originals : UniqueOn (·.versionId) s.db.originals

omit [Sha256] [LocaleOrder] [UrlParser] in
theorem AboutVersion.mono {db db' : Database} {key : TaskKey} {payload : KnowledgeIngestionPayload}
    (h : AboutVersion db key payload) (ho : ∀ o ∈ db.originals, o ∈ db'.originals) :
    AboutVersion db' key payload := by
  cases h with
  | ingestion stored version stage => exact .ingestion (ho _ stored) version stage
  | embedding approved => exact .embedding approved

omit [Sha256] [LocaleOrder] [UrlParser] in
theorem Queueable.about {db : Database} {key : TaskKey} {payload : KnowledgeIngestionPayload}
    (h : Queueable db key payload) : AboutVersion db key payload := by
  cases h with
  | ingestion stored => exact .ingestion stored rfl (Or.inl rfl)
  | embedding approved => exact .embedding approved

omit [Sha256] [LocaleOrder] [UrlParser] in
theorem holdsLease_iff {job : KnowledgeIngestionJob} {t : BackgroundTask} :
    holdsLease job t = true ↔ t.id = job.id ∧ t.status = .running ∧
      t.lockedBy = some job.workerId ∧ t.leaseToken = some job.leaseToken := by
  simp only [holdsLease, Bool.and_eq_true, beq_iff_eq, and_assoc]

/-- The originals grow by uploads only. -/
theorem originals_step {s : Base} (hk : Known s.db) (a : Action) :
    (s.step a).db.originals = s.db.originals ∨ ∃ (o : KnowledgeOriginal) (v : KnowledgeVersion),
      o.versionId = s.db.nextId + 1 ∧ s.db.nextId + 2 ≤ (s.step a).db.nextId ∧
      (s.step a).db.originals = s.db.originals ++ [o] ∧
      v.id = o.versionId ∧ v.contentHash = none ∧
      (s.step a).db.versions = s.db.versions ++ [v] := by
  cases step_effect hk.fresh a with
  | initiateUpload _ effect =>
    exact Or.inr ⟨_, _, rfl, effect.next, effect.originals, rfl, rfl, effect.versions⟩
  | reviewKnowledgeDocument _ _ _ _ _ _ _ _ effect =>
    exact Or.inl (effect.originals.trans (queueReviewTask_rest ..).2.2.1)
  | archiveKnowledgeDocument _ effect =>
    refine Or.inl (effect.originals.trans ?_)
    split <;> rfl
  | completeReview _ _ _ _ _ _ _ effect =>
    exact Or.inl (effect.originals.trans (completeReview_rest ..).2.2.1)
  | manual_approve_with_note _ _ _ _ _ _ effect =>
    exact Or.inl (effect.originals.trans (approveWithNote_rest ..).2.2.1)
  | verified _ _ _ _ _ effect =>
    exact Or.inl (effect.originals.trans (publishVerified_rest ..).2.2.1)
  | completeUpload _ _ _ _ _ _ _ effect =>
    exact Or.inl (effect.originals.trans (originals_queueTask ..))
  | quiet _ _ effect => exact Or.inl effect.originals
  | activatePending _ _ _ _ effect => exact Or.inl effect.originals
  | createKnowledgeDraft effect => exact Or.inl effect.originals
  | importKnowledgeCandidate _ effect => exact Or.inl effect.originals
  | updateKnowledgeDraft _ _ _ _ _ _ effect => exact Or.inl effect.originals
  | publishKnowledgeDraft _ _ _ _ _ _ effect => exact Or.inl effect.originals
  | rollbackKnowledgeDocument _ _ _ _ _ _ effect => exact Or.inl effect.originals
  | archive _ _ effect => exact Or.inl effect.originals
  | manual_edit_and_retry _ _ _ _ _ _ effect => exact Or.inl effect.originals
  | revised _ _ _ _ _ effect => exact Or.inl effect.originals
  | needsHuman _ _ effect => exact Or.inl effect.originals
  | claimNext _ _ _ effect => exact Or.inl effect.originals
  | leasedUpdate _ _ effect => exact Or.inl effect.originals
  | saveParsedForReview _ _ _ _ _ _ _ _ effect => exact Or.inl effect.originals
  | saveEmbeddingsAndComplete _ _ _ _ _ _ _ _ _ _ _ _ _ effect => exact Or.inl effect.originals

omit [Sha256] [LocaleOrder] [UrlParser] in
/-- What a holder's update keeps, and what it leaves of the lease. -/
theorem HolderUpdate.cases {now : Int} {job : KnowledgeIngestionJob}
    {f : BackgroundTask → BackgroundTask} {a : Action} (h : HolderUpdate now job f a)
    (t : BackgroundTask) :
    (f t).idempotencyKey = t.idempotencyKey ∧ (f t).maxAttempts = t.maxAttempts ∧
      (((f t).leaseToken = none ∧ ((f t).payload = t.payload ∨
          ((job.payload.stage = .ocr_pending ∨ job.payload.stage = .ocr_processing) ∧
            (f t).payload.stage = .ocr_processing ∧
            (f t).payload.versionId = job.payload.versionId))) ∨
        ((f t).payload = t.payload ∧ (f t).attempts = t.attempts ∧ (f t).id = t.id ∧
          (f t).status = t.status ∧ (f t).lockedBy = t.lockedBy ∧
          (f t).leaseToken = t.leaseToken)) := by
  cases h with
  | update h =>
    cases h with
    | renewLease => exact ⟨rfl, rfl, Or.inr ⟨rfl, rfl, rfl, rfl, rfl, rfl⟩⟩
    | markOcrSubmitted stage =>
      exact ⟨rfl, rfl, Or.inl ⟨rfl, Or.inr ⟨Or.inl stage, rfl, rfl⟩⟩⟩
    | deferOcrPoll stage => exact ⟨rfl, rfl, Or.inl ⟨rfl, Or.inr ⟨Or.inr stage, rfl, rfl⟩⟩⟩
    | markReviewRequired _ => exact ⟨rfl, rfl, Or.inl ⟨rfl, Or.inl rfl⟩⟩
    | markFailed => exact ⟨rfl, rfl, Or.inl ⟨rfl, Or.inl rfl⟩⟩
  | saveParsedForReview => exact ⟨rfl, rfl, Or.inl ⟨rfl, Or.inl rfl⟩⟩
  | saveEmbeddingsAndComplete => exact ⟨rfl, rfl, Or.inl ⟨rfl, Or.inl rfl⟩⟩

omit [Sha256] [LocaleOrder] [UrlParser] in
/-- A key and a payload of the same version stay together under an update of the holder. -/
theorem Consistent.about_update {s : Base} (h : Consistent s) {job : KnowledgeIngestionJob}
    {f : BackgroundTask → BackgroundTask} {a : Action} (hj : job ∈ s.jobs)
    (hf : HolderUpdate s.now job f a) {t : BackgroundTask} (ht : t ∈ s.db.tasks)
    (hl : holdsLease job t = true) : AboutVersion s.db (f t).idempotencyKey (f t).payload := by
  obtain ⟨hkey, _, ⟨_, hp | ⟨hstage, hstage', hversion⟩⟩ | ⟨hp, _⟩⟩ := hf.cases t
  · rw [hkey, hp]
    exact h.about t ht
  · -- only a task of an original is deferred
    have hpayload := (h.payload job hj t ht hl).1
    rw [hpayload] at hstage hversion
    have habout := h.about t ht
    rw [hkey]
    generalize t.idempotencyKey = key at habout
    generalize t.payload = payload at habout hstage hversion
    cases habout with
    | ingestion stored version _ =>
      exact .ingestion stored (hversion.trans version) (Or.inr hstage')
    | embedding _ =>
      rcases hstage with hstage | hstage <;> cases hstage
  · rw [hkey, hp]
    exact h.about t ht

omit [Sha256] [LocaleOrder] [UrlParser] in
theorem Consistent.jobs_of_held {s : Base} (h : Consistent s) {job : KnowledgeIngestionJob}
    (hj : job ∈ s.jobs ∨ job ∈ s.embedding) : job ∈ s.jobs :=
  hj.elim id fun he => (h.embedding job he).1

/-- The part of `Consistent` that is about tasks and the workers that claimed them. -/
structure Held (s : Base) (db' : Database) (jobs' : List KnowledgeIngestionJob) : Prop where
  about : ∀ t ∈ db'.tasks, AboutVersion s.db t.idempotencyKey t.payload
  jobTokens : ∀ job ∈ jobs', job.leaseToken < db'.nextId
  taskTokens : ∀ t ∈ db'.tasks, ∀ token, t.leaseToken = some token → token < db'.nextId
  payload : ∀ job ∈ jobs', ∀ t ∈ db'.tasks, holdsLease job t = true →
    job.payload = t.payload ∧ job.attempts = t.attempts ∧ job.maxAttempts = t.maxAttempts

omit [Sha256] [LocaleOrder] [UrlParser] in
/-- A claim: its token is new, so no other worker holds the task. -/
theorem held_claimNext {s : Base} (hk : Known s.db) (h : Consistent s) (taskId : Uuid)
    (workerId : Text) :
    Held s (claimNext taskId workerId s.now s.db).2
      ((claimNext taskId workerId s.now s.db).1.toList ++ s.jobs) := by
  rcases claimNext_spec taskId workerId s.now s.db with e | ⟨task, hm, hid, hc, e⟩
  · rw [e]
    exact ⟨h.about, h.jobTokens, h.taskTokens, h.payload⟩
  · rw [e]
    have hrow : ∀ t ∈ updateWhere (fun u : BackgroundTask => u.id == task.id)
        (leasedTask workerId s.db.nextId s.now) s.db.tasks,
        (t = leasedTask workerId s.db.nextId s.now task) ∨ (t ∈ s.db.tasks ∧ t.id ≠ task.id) := by
      intro t ht
      obtain ⟨t₀, hm₀, rfl⟩ := mem_updateWhere.mp ht
      by_cases he : (t₀.id == task.id) = true
      · rw [if_pos he]
        exact Or.inl (by rw [hk.tasks.eq hm₀ hm (beq_iff_eq.mp he)])
      · rw [if_neg he]
        exact Or.inr ⟨hm₀, fun e => he (beq_iff_eq.mpr e)⟩
    refine ⟨fun t ht => ?_, fun job hj => ?_, fun t ht token htok => ?_, fun job hj t ht hl => ?_⟩
    · rcases hrow t ht with rfl | ⟨ht', _⟩
      · exact h.about task hm
      · exact h.about t ht'
    · rcases List.mem_cons.mp hj with rfl | hj
      · exact Nat.lt_succ_self _
      · exact Nat.lt_succ_of_lt (h.jobTokens job hj)
    · rcases hrow t ht with rfl | ⟨ht', _⟩
      · cases htok
        exact Nat.lt_succ_self _
      · exact Nat.lt_succ_of_lt (h.taskTokens t ht' token htok)
    · obtain ⟨hid', _, _, htok⟩ := holdsLease_iff.mp hl
      rcases List.mem_cons.mp hj with rfl | hj
      · rcases hrow t ht with rfl | ⟨ht', hne⟩
        · exact ⟨rfl, rfl, rfl⟩
        · exact absurd hid' hne
      · rcases hrow t ht with rfl | ⟨ht', _⟩
        · -- an older job does not know the new token
          have hlt := h.jobTokens job hj
          rw [← Option.some.inj htok] at hlt
          exact absurd hlt (Nat.lt_irrefl _)
        · exact h.payload job hj t ht' hl

omit [Sha256] [LocaleOrder] [UrlParser] in
/-- Any other step. -/
theorem held_step {s : Base} {db' : Database} {a : Action} (h : Consistent s)
    (hn : s.db.nextId ≤ db'.nextId) (ha : ∀ taskId workerId, a ≠ .claimNext taskId workerId)
    (ht : TaskEffect s db'.tasks a) : Held s db' s.jobs := by
  have hjobs : ∀ job ∈ s.jobs, job.leaseToken < db'.nextId := fun job hj =>
    Nat.lt_of_lt_of_le (h.jobTokens job hj) hn
  have htokens : ∀ t ∈ s.db.tasks, ∀ token, t.leaseToken = some token → token < db'.nextId :=
    fun t ht token htok => Nat.lt_of_lt_of_le (h.taskTokens t ht token htok) hn
  cases ht with
  | same effect =>
    rw [← effect] at htokens
    exact ⟨effect ▸ h.about, hjobs, htokens, effect ▸ h.payload⟩
  | queued runAt drawn fresh queueable effect =>
    refine ⟨fun t ht => ?_, hjobs, fun t ht token htok => ?_, fun job hj t ht hl => ?_⟩
    all_goals
      rw [effect] at ht
      rcases List.mem_append.mp ht with ht | ht
    · exact h.about t ht
    · rw [List.mem_singleton.mp ht]
      exact queueable.about
    · exact htokens t ht token htok
    · rw [List.mem_singleton.mp ht] at htok
      cases htok
    · exact h.payload job hj t ht hl
    · rw [List.mem_singleton.mp ht] at hl
      cases (holdsLease_iff.mp hl).2.1
  | claimed mem hid claimable effect => exact absurd rfl (ha _ _)
  | @held _ job f held update effect =>
    have hj := h.jobs_of_held held
    have hrow : ∀ t ∈ db'.tasks, t ∈ s.db.tasks ∨
        ∃ t₀ ∈ s.db.tasks, holdsLease job t₀ = true ∧ t = f t₀ := by
      intro t ht
      rw [effect] at ht
      obtain ⟨t₀, hm₀, rfl⟩ := mem_updateWhere.mp ht
      split
      · next hl => exact Or.inr ⟨t₀, hm₀, hl, rfl⟩
      · exact Or.inl hm₀
    refine ⟨fun t ht => ?_, hjobs, fun t ht token htok => ?_, fun job' hj' t ht hl => ?_⟩
    · rcases hrow t ht with ht' | ⟨t₀, hm₀, hl, rfl⟩
      · exact h.about t ht'
      · exact h.about_update hj update hm₀ hl
    · rcases hrow t ht with ht' | ⟨t₀, hm₀, hl, rfl⟩
      · exact htokens t ht' token htok
      · obtain ⟨_, _, ⟨hnone, _⟩ | ⟨_, _, _, _, _, hsame⟩⟩ := update.cases t₀
        · rw [hnone] at htok
          cases htok
        · exact htokens t₀ hm₀ token (hsame ▸ htok)
    · rcases hrow t ht with ht' | ⟨t₀, hm₀, hl₀, rfl⟩
      · exact h.payload job' hj' t ht' hl
      · obtain ⟨hid, hstatus, hby, htok⟩ := holdsLease_iff.mp hl
        obtain ⟨_, hmax, ⟨hnone, _⟩ | ⟨hp, hatt, e1, e2, e3, e4⟩⟩ := update.cases t₀
        · rw [hnone] at htok
          cases htok
        · rw [hp, hatt, hmax]
          refine h.payload job' hj' t₀ hm₀ (holdsLease_iff.mpr ⟨?_, ?_, ?_, ?_⟩)
          · exact e1 ▸ hid
          · exact e2 ▸ hstatus
          · exact e3 ▸ hby
          · exact e4 ▸ htok

/-- **One step keeps keys, payloads and leases together.** -/
theorem consistent_step {s : Base} (hk : Known s.db) (h : Consistent s) (a : Action) :
    Consistent (s.step a) := by
  have hn := nextId_le_step hk a
  have horiginals : ∀ o ∈ s.db.originals, o ∈ (s.step a).db.originals := by
    rcases originals_step hk a with e | ⟨o, _, _, _, e, _⟩
    · rw [e]
      exact fun o ho => ho
    · rw [e]
      exact fun o ho => List.mem_append_left _ ho
  have hembedding : ∀ job ∈ (s.step a).embedding,
      job ∈ s.jobs ∧ Base.embeddingStage job.payload.stage = true := by
    rcases embedding_step s a with e | ⟨job, _, hj, hs, _, _, e⟩
    · rw [e]
      exact h.embedding
    · rw [e]
      intro job' hj'
      rcases List.mem_cons.mp hj' with rfl | hj'
      · exact ⟨hj, hs⟩
      · exact h.embedding job' hj'
  have hids : ∀ o ∈ (s.step a).db.originals, o.versionId < (s.step a).db.nextId := by
    rcases originals_step hk a with e | ⟨o, _, ho, hlt, e, _⟩
    · rw [e]
      exact fun o ho => Nat.lt_of_lt_of_le (h.originalIds o ho) hn
    · rw [e]
      intro o' ho'
      rcases List.mem_append.mp ho' with ho' | ho'
      · exact Nat.lt_of_lt_of_le (h.originalIds o' ho') hn
      · rw [List.mem_singleton.mp ho', ho]
        exact hlt
  have hunique : UniqueOn (·.versionId) (s.step a).db.originals := by
    rcases originals_step hk a with e | ⟨o, _, ho, _, e, _⟩
    · rw [e]
      exact h.originals
    · rw [e]
      refine h.originals.append_one fun o' ho' => ?_
      rw [ho]
      exact Nat.ne_of_lt (Nat.lt_succ_of_lt (h.originalIds o' ho'))
  have hheld : Held s (s.step a).db (s.step a).jobs := by
    by_cases hc : ∃ taskId workerId, a = .claimNext taskId workerId
    · obtain ⟨taskId, workerId, rfl⟩ := hc
      exact held_claimNext hk h taskId workerId
    · have hne : ∀ taskId workerId, a ≠ .claimNext taskId workerId :=
        fun taskId workerId e => hc ⟨taskId, workerId, e⟩
      have hjobs : (s.step a).jobs = s.jobs := by
        rcases jobs_step s a with e | ⟨taskId, workerId, e, _⟩
        · exact e
        · exact absurd e (hne taskId workerId)
      rw [hjobs]
      exact held_step h hn hne (task_effect hk a)
  have hkept : ∀ job ∈ s.jobs, job ∈ (s.step a).jobs := by
    rcases jobs_step s a with e | ⟨taskId, workerId, _, e⟩
    · rw [e]
      exact fun job hj => hj
    · rw [e]
      exact fun job hj => List.mem_append_right _ hj
  exact ⟨fun t ht => (hheld.about t ht).mono horiginals, hheld.jobTokens, hheld.taskTokens,
    hheld.payload, fun job hj => ⟨hkept job (hembedding job hj).1, (hembedding job hj).2⟩, hids,
    hunique⟩

/-- **Every reachable state is consistent.** -/
theorem consistent_after (actions : List Action) : Consistent (Base.after actions) := by
  have hboth : Known (Base.after actions).db ∧ Consistent (Base.after actions) := by
    refine @Machine.run_invariant _ _ _ (fun s : Base => Known s.db ∧ Consistent s) _
      ⟨known_after [], ?_⟩ (fun s a h => ⟨known_step h.1 a, consistent_step h.1 h.2 a⟩) actions
    exact ⟨fun _ ht => absurd ht List.not_mem_nil, fun _ hj => absurd hj List.not_mem_nil,
      fun _ ht => absurd ht List.not_mem_nil, fun _ hj => absurd hj List.not_mem_nil,
      fun _ hj => absurd hj List.not_mem_nil, fun _ ho => absurd ho List.not_mem_nil,
      UniqueOn.nil _⟩
  exact hboth.2

end Runs

end OpenVac.KnowledgeBase
