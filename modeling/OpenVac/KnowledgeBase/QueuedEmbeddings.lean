/-
  File:      OpenVac/KnowledgeBase/QueuedEmbeddings.lean
  Subject:   Approved versions that wait for their embedding, and the tasks they wait for.

  * `Due` -- a version is approved and its embedding is said to be queued; `Embedding` -- a task
    that is to be done embeds a text.
  * `Asks` -- an action records an approval that queues an embedding; `Ends` -- a worker ends its
    task without a result. `KeepsTasks` -- nothing is asked for under the key of a task that has
    ended, and no task ends that a version waits for.
  * `due_step` -- which versions wait after a step; `embedded_step` -- which texts are still
    embedded.
  * `embeddings_have_tasks` -- **over every run whose steps keep the tasks.**
-/
import OpenVac.KnowledgeBase.EmbeddingReviews
import OpenVac.KnowledgeBase.PublishedContent

namespace OpenVac.KnowledgeBase

open Rows JsString JsUrl

/-! ## 1. What waits for what -/

/-- A version is approved, and its embedding is said to be queued. -/
structure Due (v : KnowledgeVersion) : Prop where
  approved : v.metadata.reviewStatus = some .approved
  queued : v.metadata.embeddingStatus = some .queued

/-- A task under one of the keys of a text's embedding. -/
def Embeds (versionId : Uuid) (hash : Text) (t : BackgroundTask) : Prop :=
  ∃ producer, t.idempotencyKey = .embedding versionId hash producer

/-- A text is being embedded, or will be. -/
def Embedding (db : Database) (versionId : Uuid) (hash : Text) : Prop :=
  ∃ t ∈ db.tasks, t.status.open_ ∧ Embeds versionId hash t

/-- Every version that waits for its embedding has a task. -/
def EmbeddingsHaveTasks (db : Database) : Prop :=
  ∀ v ∈ db.versions, Due v → ∃ hash, v.contentHash = some hash ∧ Embedding db v.id hash

section Conditions

variable [Sha256] [LocaleOrder] [UrlParser]

/-- **What queues an embedding**: the approval of a version, the completion of its sections, an
    approval with a note, a verification that finds its version ready. -/
inductive Asks (s : Base) : Action → Uuid → Text → EmbeddingProducer → Prop where
  | reviewKnowledgeDocument {documentId : Uuid} {input : KnowledgeReviewInput} {actor : UserId}
      {document : KnowledgeDocument} {version : KnowledgeVersion}
      (ok : (KnowledgeBase.reviewKnowledgeDocument documentId input actor s.now s.db).isOk = true)
      (found : s.db.document documentId = some document)
      (current : document.currentVersionId = some version.id)
      (mem : version ∈ s.db.versions)
      (owner : version.documentId = documentId)
      (approved : input.approved = true)
      (mode : version.citationMetadata.ingestionMode = some .full_text)
      (preserved : preserveCompletedEmbedding document version
        (sha256KnowledgeContent version.content) s.db = false) :
      Asks s (.reviewKnowledgeDocument documentId input actor) version.id
        (sha256KnowledgeContent version.content) .version_review
  | completeReview {pending : PendingCompletion}
      (checked : pending ∈ s.completions)
      (ok : (KnowledgeBase.completeReview pending s.db).isOk = true)
      (mode : pending.ingestionMode = .full_text) :
      Asks s (.completeReview pending) pending.versionId pending.contentHash .section_review
  | resolve {input : KnowledgeManualReviewTarget} {resolution : KnowledgeManualResolution}
      {note : Text} {target : CurrentTarget}
      (ok : (KnowledgeBase.resolve input resolution s.now s.db).isOk = true)
      (parsed : parseResolution resolution = some (.manual_approve_with_note note))
      (found : loadCurrentTarget input s.db = .ok target)
      (mode : target.version.citationMetadata.ingestionMode = some .full_text) :
      Asks s (.resolve input resolution) target.version.id target.contentHash .manual
  | submitResult {input : CompleteInput} {version : KnowledgeVersion}
      (ready : judgedReady input s.now s.db = true)
      (mem : version ∈ s.db.versions)
      (hid : version.id = input.inputVersionId)
      (mode : version.citationMetadata.ingestionMode = some .full_text) :
      Asks s (.submitResult input) input.inputVersionId input.inputContentHash .automation

/-- A worker ends the task it holds, and no result is stored. -/
inductive Ends (s : Base) : Action → KnowledgeIngestionJob → Prop where
  | markReviewRequired {job : KnowledgeIngestionJob} (held : job ∈ s.jobs)
      (stage : job.payload.stage ≠ .ocr_pending ∧ job.payload.stage ≠ .ocr_processing) :
      Ends s (.markReviewRequired job) job
  | markFailed {job : KnowledgeIngestionJob} {retryable : Bool} {retryAt : Int}
      (held : job ∈ s.jobs)
      (terminal : (decide (job.maxAttempts ≤ job.attempts) || !retryable) = true) :
      Ends s (.markFailed job retryable retryAt) job

/-- **What a step has to heed**, in the state before it: where it asks for an embedding, the key
    is free or the text is being embedded; the task it ends is not the last one that a version
    waits for. -/
structure KeepsTasks (s : Base) (a : Action) : Prop where
  asks : ∀ versionId hash producer, Asks s a versionId hash producer →
    Embedding s.db versionId hash ∨
      ∀ t ∈ s.db.tasks, t.idempotencyKey ≠ .embedding versionId hash producer
  ends : ∀ job, Ends s a job → ∀ t ∈ s.db.tasks, holdsLease job t = true →
    ∀ v ∈ s.db.versions, Due v → ∀ hash, v.contentHash = some hash → Embeds v.id hash t →
      ∃ other ∈ s.db.tasks, other.id ≠ t.id ∧ other.status.open_ ∧ Embeds v.id hash other

omit [Sha256] [LocaleOrder] [UrlParser] in
/-- A step ends one task. -/
theorem Ends.job_eq {s : Base} {a : Action} {job other : KnowledgeIngestionJob} (h : Ends s a job)
    (h' : Ends s a other) : job = other := by
  cases h <;> cases h' <;> rfl

end Conditions

/-! ## 2. Versions that wait -/

/-- A version that waits after a step waited before it. -/
def Stem (versions : List KnowledgeVersion) (v' : KnowledgeVersion) : Prop :=
  ∃ v ∈ versions, v.id = v'.id ∧ v.contentHash = v'.contentHash ∧ Due v

theorem stem_self {versions : List KnowledgeVersion} {v : KnowledgeVersion} (h : v ∈ versions)
    (hdue : Due v) : Stem versions v := ⟨v, h, rfl, rfl, hdue⟩

/-- An update under which no version begins to wait. -/
theorem stem_updateWhere {versions : List KnowledgeVersion} {p : KnowledgeVersion → Bool}
    {f : KnowledgeVersion → KnowledgeVersion}
    (hf : ∀ v ∈ versions, p v = true → Due (f v) →
      (f v).id = v.id ∧ (f v).contentHash = v.contentHash ∧ Due v) :
    ∀ v' ∈ updateWhere p f versions, Due v' → Stem versions v' := by
  intro v' hv' hdue
  obtain ⟨v, hv, rfl⟩ := mem_updateWhere.mp hv'
  by_cases hp : p v = true
  · rw [if_pos hp] at hdue ⊢
    obtain ⟨hid, hhash, hold⟩ := hf v hv hp hdue
    exact ⟨v, hv, hid.symm, hhash.symm, hold⟩
  · rw [if_neg hp] at hdue ⊢
    exact stem_self hv hdue

/-- The same where a version is inserted that does not wait. -/
theorem stem_append {versions versions' : List KnowledgeVersion} {new : KnowledgeVersion}
    (h : ∀ v' ∈ versions', Due v' → Stem versions v') (hnew : ¬ Due new) :
    ∀ v' ∈ versions' ++ [new], Due v' → Stem versions v' := by
  intro v' hv' hdue
  rcases List.mem_append.mp hv' with hv' | hv'
  · exact h v' hv' hdue
  · rw [List.mem_singleton.mp hv'] at hdue
    exact absurd hdue hnew

theorem stem_same {versions : List KnowledgeVersion} :
    ∀ v' ∈ versions, Due v' → Stem versions v' := fun _ hv hdue => stem_self hv hdue

theorem not_due_of_review {v : KnowledgeVersion} (status : ReviewStatus)
    (h : v.metadata.reviewStatus = some status) (hne : status ≠ .approved) : ¬ Due v := by
  intro hdue
  have happroved := hdue.approved
  rw [h] at happroved
  exact hne (Option.some.inj happroved)

theorem not_due_of_embedding {v : KnowledgeVersion} (status : EmbeddingStatus)
    (h : v.metadata.embeddingStatus = some status) (hne : status ≠ .queued) : ¬ Due v := by
  intro hdue
  have hqueued := hdue.queued
  rw [h] at hqueued
  exact hne (Option.some.inj hqueued)

section Versions

variable [Sha256Digest] {v : KnowledgeVersion}

/-- An update of a draft that leaves the version waiting leaves its text. -/
theorem due_updated (h : Sound v) (hs : editable v.status = true) (document : KnowledgeDocument)
    (input : KnowledgeDraftUpdate) (hdue : Due (updatedVersion document input v)) :
    (updatedVersion document input v).contentHash = v.contentHash ∧ Due v := by
  have hupdated := h.updated hs document input
  obtain ⟨review', hreview', -, hhash'⟩ := (hupdated.approved hdue.approved).2
  by_cases hinv : reviewInvalidated document input v = true
  · -- the review is required again
    exfalso
    refine not_due_of_review .required ?_ (by decide) hdue
    unfold updatedVersion
    dsimp only
    by_cases he : knowledgeEvidenceMetadataChanged document.sourceId input = true
    · rw [if_pos he]
      rfl
    · have ht : (hashTransition input v).1 = true := by
        simpa [reviewInvalidated, he] using hinv
      rw [if_neg he, if_pos ht]
      unfold hashTransition invalidateKnowledgeReviewAfterHashChange at ht ⊢
      split at ht
      · cases ht
      · next hne =>
          rw [if_neg hne]
          rfl
  · have hmeta : (updatedVersion document input v).metadata = v.metadata := by
      simp only [reviewInvalidated, Bool.not_eq_true, Bool.or_eq_false_iff] at hinv
      unfold updatedVersion
      dsimp only
      rw [hinv.1, hinv.2]
      rfl
    have hold : Due v := ⟨hmeta ▸ hdue.approved, hmeta ▸ hdue.queued⟩
    obtain ⟨review, hreview, -, hhash⟩ := (h.approved hold.approved).2
    -- both hashes are that of the one review
    rw [hmeta, hreview] at hreview'
    rw [← Option.some.inj hreview'] at hhash'
    exact ⟨hhash'.trans hhash.symm, hold⟩

end Versions

/-- The task was queued, unless its key was taken. -/
def Asked (db db' : Database) (key : TaskKey) : Prop :=
  ∃ (before : Database) (payload : KnowledgeIngestionPayload) (runAt : Int),
    before.tasks = db.tasks ∧ db'.tasks = (before.queueTask key payload runAt).tasks

theorem Asked.of_queueTask {db db' before : Database} {key : TaskKey}
    {payload : KnowledgeIngestionPayload} {runAt : Int}
    (h : db'.tasks = (before.queueTask key payload runAt).tasks)
    (hbefore : before.tasks = db.tasks) : Asked db db' key :=
  ⟨before, payload, runAt, hbefore, h⟩

/-- A version that waits after a step waited before it, or has just been asked for. -/
inductive Waits [Sha256] [LocaleOrder] [UrlParser] (s : Base) (db' : Database) (a : Action)
    (v' : KnowledgeVersion) : Prop where
  | before (stem : Stem s.db.versions v')
  | asked (hash : Text) (producer : EmbeddingProducer) (contentHash : v'.contentHash = some hash)
      (asks : Asks s a v'.id hash producer)
      (tasks : Asked s.db db' (.embedding v'.id hash producer))

/-- What goes to a person does not wait for an embedding. -/
theorem stem_needsHuman {versions versions' : List KnowledgeVersion}
    (h : ∀ v' ∈ versions', Due v' → Stem versions v') (p : KnowledgeVersion → Bool) :
    ∀ v' ∈ updateWhere p needsHumanVersion versions', Due v' → Stem versions v' := by
  intro v' hv' hdue
  obtain ⟨v, hv, rfl⟩ := mem_updateWhere.mp hv'
  by_cases hp : p v = true
  · rw [if_pos hp] at hdue
    exact absurd hdue (not_due_of_review .required rfl (by decide))
  · rw [if_neg hp] at hdue ⊢
    exact h v hv hdue

/-- Of a transaction that fails nothing is left. -/
theorem transact_failed {β : Type} {s : Base}
    {tx : Database → Except KnowledgeError (β × Database)} (h : ¬ (tx s.db).isOk = true) :
    (s.transact tx).db = s.db := by
  show Machine.commit s.db (tx s.db) = s.db
  cases htx : tx s.db with
  | error e => rfl
  | ok r => exact absurd (by rw [htx]; rfl) h

/-- What may be rolled back to waits for no embedding. -/
theorem not_queued_of_reviewed [Sha256] {input : KnowledgePublicationGateInput} {now : Int}
    {u : Unit} (h : assertReviewedKnowledgeEvidence input now = .ok u) :
    input.metadata.embeddingStatus ≠ some .queued := by
  obtain ⟨_, _, h⟩ := Except.bind_ok_iff.mp h
  obtain ⟨_, _, h⟩ := Except.bind_ok_iff.mp h
  obtain ⟨_, _, h⟩ := Except.bind_ok_iff.mp h
  obtain ⟨_, _, h⟩ := Except.bind_ok_iff.mp h
  obtain ⟨_, _, h⟩ := Except.bind_ok_iff.mp h
  obtain ⟨_, _, h⟩ := Except.bind_ok_iff.mp h
  intro hqueued
  split at h
  · have hstatus := throwIf_ok.mp h
    rw [hqueued] at hstatus
    nomatch hstatus
  · have hstatus := throwIf_ok.mp h
    rw [hqueued] at hstatus
    nomatch hstatus
  · nomatch h

section Steps

variable [Sha256Digest] [LocaleOrder] [UrlParser]

/-- One version is updated, and may begin to wait. -/
theorem waits_setVersion {s : Base} {db' : Database} {a : Action} (hk : Known s.db)
    {version : KnowledgeVersion} (hm : version ∈ s.db.versions)
    {f : KnowledgeVersion → KnowledgeVersion}
    (hv : db'.versions = updateWhere (fun v => v.id == version.id) f s.db.versions)
    (hf : Due (f version) → Waits s db' a (f version)) :
    ∀ v' ∈ db'.versions, Due v' → Waits s db' a v' := by
  intro v' hv' hdue
  rw [hv] at hv'
  obtain ⟨v, hmem, rfl⟩ := mem_updateWhere.mp hv'
  by_cases hid : (v.id == version.id) = true
  · rw [if_pos hid] at hdue ⊢
    rw [hk.version_eq hmem hm (beq_iff_eq.mp hid)] at hdue ⊢
    exact hf hdue
  · rw [if_neg hid] at hdue ⊢
    exact .before (stem_self hmem hdue)

theorem waits_of_stem {s : Base} {db' : Database} {a : Action}
    {versions : List KnowledgeVersion} (hv : db'.versions = versions)
    (h : ∀ v' ∈ versions, Due v' → Stem s.db.versions v') :
    ∀ v' ∈ db'.versions, Due v' → Waits s db' a v' := by
  intro v' hv' hdue
  rw [hv] at hv'
  exact .before (h v' hv' hdue)

omit [LocaleOrder] in
/-- A result of the automation that is not that of a ready verification lets no version wait. -/
theorem submitResult_stem {s : Base} {input : CompleteInput} {outcome : AutomationReviewOutcome}
    {db' : Database} (h : submitResult input s.now s.db = .ok (outcome, db'))
    (hno : ¬ judgedReady input s.now s.db = true) :
    ∀ v' ∈ db'.versions, Due v' → Stem s.db.versions v' := by
  obtain ⟨parsed, hp, ⟨_, rfl, _⟩ | ⟨r, version, document, j, db₁, hl, hj, houtcome, hdb⟩⟩ :=
    submitResult_ok h
  · exact stem_same
  have hversions : db'.versions = (settle parsed document.id r.model j s.now
      (storeResult parsed j s.now db₁)).2.versions := by
    rw [hdb]
    rfl
  rw [hversions]
  unfold settle
  by_cases happroved : (j.decision == .approved) = true
  · rw [if_pos happroved]
    cases hphase : parsed.phase with
    | initial =>
      dsimp only
      rw [(Agree.insertRun ..).versions]
      show ∀ v' ∈ db₁.versions, _
      rcases judge_ok hj with ⟨rfl, -⟩ | ⟨content, number, -, -, -, -, -, -, rfl⟩
      · exact stem_same
      · exact stem_append stem_same (not_due_of_review .required rfl (by decide))
    | verify =>
      rcases judge_ok hj with ⟨rfl, hcur, hhash, -⟩ | ⟨_, _, hinitial, -⟩
      · dsimp only
        unfold settleVerified
        dsimp only
        by_cases hready : publicationReady (verifiedReadiness document.id j
            (storeResult parsed j s.now s.db)) = true
        · -- the verification is ready after all
          exfalso
          apply hno
          unfold judgedReady
          rw [h]
          dsimp only
          have hinput : input.phase = .verify := (parseResult_ok hp).2.1.symm.trans hphase
          rw [hinput, houtcome]
          unfold settle
          rw [if_pos happroved, hphase]
          dsimp only
          unfold settleVerified
          dsimp only
          rw [if_pos hready]
          rfl
        · rw [if_neg hready]
          exact stem_needsHuman stem_same _
      · rw [hphase] at hinitial
        nomatch hinitial
  · rw [if_neg happroved]
    dsimp only
    show ∀ v' ∈ updateWhere _ needsHumanVersion db₁.versions, _
    refine stem_needsHuman ?_ _
    rcases judge_ok hj with ⟨rfl, -⟩ | ⟨content, number, -, -, -, -, -, -, rfl⟩
    · exact stem_same
    · exact stem_append stem_same (not_due_of_review .required rfl (by decide))

/-- A ready verification publishes its version, or queues its embedding. -/
theorem judgedReady_waits {s : Base} (hk : Known s.db) {input : CompleteInput}
    (hready : judgedReady input s.now s.db = true) :
    ∀ v' ∈ (s.step (.submitResult input)).db.versions, Due v' →
      Waits s (s.step (.submitResult input)).db (.submitResult input) v' := by
  obtain ⟨parsed, r, version, document, hp, h⟩ := judgedReady_ok hready
  obtain ⟨-, -, -, hversionId, hhash⟩ := parseResult_ok hp
  have hid : version.id = input.inputVersionId := by
    rw [← hversionId, ← h.versionId, h.hid]
  have hmem : version ∈ s.db.versions := List.mem_of_find?_eq_some h.row
  have hstep : (s.step (.submitResult input)).db =
      Machine.commit s.db (submitResult input s.now s.db) := rfl
  rw [hstep]
  generalize Machine.commit s.db (submitResult input s.now s.db) = db' at h ⊢
  have hversions : db'.versions = updateWhere (fun v => v.id == version.id)
      (verifiedVersion (verifiedReview parsed version s.now s.db)
        (version.citationMetadata.ingestionMode == some .full_text) s.now) s.db.versions := by
    rw [h.result]
    exact (publishVerified_rest ..).1
  refine waits_setVersion hk hmem hversions fun hdue => ?_
  by_cases hmode : version.citationMetadata.ingestionMode = some .full_text
  · refine .asked input.inputContentHash .automation ?_ ?_ ?_
    · show version.contentHash = _
      rw [h.hash, h.contentHash, hhash]
    · show Asks s _ version.id _ _
      rw [hid]
      exact .submitResult hready hmem hid hmode
    · have htasks : db'.tasks = (verifiedPublication parsed version document s.now s.db).2.tasks := by
        rw [h.result]
        rfl
      unfold verifiedPublication publishVerified at htasks
      dsimp only at htasks
      rw [if_pos (beq_iff_eq.mpr hmode)] at htasks
      rw [← hhash]
      exact .of_queueTask htasks rfl
  · refine absurd hdue (not_due_of_embedding .metadata_only ?_ (by decide))
    show some (if (version.citationMetadata.ingestionMode == some .full_text) = true then
      EmbeddingStatus.queued else .metadata_only) = _
    rw [if_neg (by rw [beq_iff_eq]; exact hmode)]

/-- **Which versions wait after a step.** -/
theorem due_step {s : Base} (hk : Known s.db) (hs : ∀ v ∈ s.db.versions, Sound v) (a : Action) :
    ∀ v' ∈ (s.step a).db.versions, Due v' → Waits s (s.step a).db a v' := by
  cases step_effect hk.fresh a with
  | quiet _ _ effect => exact waits_of_stem effect.versions stem_same
  | activatePending _ _ _ _ effect =>
    refine waits_of_stem effect.versions (stem_updateWhere fun v _ _ hdue => ?_)
    refine absurd hdue (not_due_of_embedding _ rfl ?_)
    split <;> decide
  | createKnowledgeDraft effect =>
    exact waits_of_stem effect.versions
      (stem_append stem_same (not_due_of_review .required rfl (by decide)))
  | importKnowledgeCandidate _ effect =>
    exact waits_of_stem effect.versions
      (stem_append stem_same (not_due_of_review .required rfl (by decide)))
  | updateKnowledgeDraft _ _ _ mem _ versionStatus effect =>
    refine waits_setVersion hk mem effect.versions fun hdue => .before ?_
    obtain ⟨hhash, hold⟩ := due_updated (hs _ mem) versionStatus _ _ hdue
    exact ⟨_, mem, rfl, hhash.symm, hold⟩
  | @reviewKnowledgeDocument documentId input actor document version transition found current _ mem
      owner _ built _ effect =>
      by_cases hok : (reviewKnowledgeDocument documentId input actor s.now s.db).isOk = true
      swap
      · exact waits_of_stem (congrArg Database.versions (transact_failed hok)) stem_same
      refine waits_setVersion hk mem (effect.versions.trans (queueReviewTask_rest ..).1)
        fun hdue => ?_
      obtain ⟨hhash, hreview, -, -, ⟨hno, -⟩ | ⟨hyes, -, -, ⟨hmode, -, htask⟩ | ⟨-, hnone, -⟩⟩⟩ :=
        transition_task built
      · refine absurd hdue (not_due_of_review .rejected ?_ (by decide))
        show some (if input.approved then ReviewStatus.approved else .rejected) = _
        rw [hno]
        rfl
      · cases hkept : preserveCompletedEmbedding document version transition.contentHash s.db with
        | true =>
          rw [hkept] at hdue
          exact absurd hdue (not_due_of_embedding .completed rfl (by decide))
        | false =>
          refine .asked transition.contentHash .version_review rfl ?_ ?_
          · show Asks s _ version.id _ _
            rw [hhash] at hkept ⊢
            exact .reviewKnowledgeDocument hok found current mem owner hyes hmode hkept
          · have htasks := effect.tasks
            unfold queueReviewTask at htasks
            rw [htask, hkept] at htasks
            dsimp only at htasks
            rw [if_neg Bool.false_ne_true, hreview] at htasks
            exact .of_queueTask htasks rfl
      · have hwaits := hdue.queued
        change some (if preserveCompletedEmbedding document version transition.contentHash s.db then
          EmbeddingStatus.completed else transition.embeddingStatus) = some .queued at hwaits
        rw [hnone] at hwaits
        split at hwaits <;> nomatch hwaits
  | publishKnowledgeDraft _ _ _ _ _ _ effect =>
    exact waits_of_stem effect.versions (stem_updateWhere fun v _ _ hdue => ⟨rfl, rfl, hdue.1, hdue.2⟩)
  | archiveKnowledgeDocument _ effect =>
    have e := effect.versions
    split at e
    · exact waits_of_stem e (stem_updateWhere fun v _ _ hdue => ⟨rfl, rfl, hdue.1, hdue.2⟩)
    · exact waits_of_stem e stem_same
  | rollbackKnowledgeDocument _ _ _ mem _ reviewed effect =>
    refine waits_of_stem effect.versions (stem_append
      (stem_updateWhere fun v _ _ hdue => ⟨rfl, rfl, hdue.1, hdue.2⟩) fun hdue => ?_)
    exact not_queued_of_reviewed reviewed hdue.queued
  | @completeReview pending version _ checked mem hid _ hash _ _ effect =>
    by_cases hok : (completeReview pending s.db).isOk = true
    swap
    · refine waits_of_stem ?_ stem_same
      show (ite _ _ _ : Base).db.versions = _
      split
      · exact congrArg Database.versions (transact_failed hok)
      · rfl
    have hversions := effect.versions.trans (completeReview_rest ..).1
    change _ = updateWhere (fun v => v.id == pending.versionId) (sectionsCompleted pending)
      s.db.versions at hversions
    rw [← hid] at hversions
    refine waits_setVersion hk mem hversions fun hdue => ?_
    by_cases hmode : pending.ingestionMode = .full_text
    · refine .asked pending.contentHash .section_review hash ?_ ?_
      · show Asks s _ version.id _ _
        rw [hid]
        exact .completeReview checked hok hmode
      · have htasks := effect.tasks
        rw [if_pos hmode] at htasks
        show Asked _ _ (.embedding version.id _ _)
        rw [hid]
        exact .of_queueTask htasks rfl
    · have hwaits := hdue.queued
      change some (if pending.ingestionMode = .full_text then EmbeddingStatus.queued
        else .not_applicable) = some .queued at hwaits
      rw [if_neg hmode] at hwaits
      nomatch hwaits
  | archive _ _ effect =>
    exact waits_of_stem effect.versions (stem_updateWhere fun v _ _ hdue => ⟨rfl, rfl, hdue.1, hdue.2⟩)
  | @manual_approve_with_note input resolution note loaded target _ parsed found _ version hash
      effect =>
      by_cases hok : (resolve input resolution s.now s.db).isOk = true
      swap
      · exact waits_of_stem (congrArg Database.versions (transact_failed hok)) stem_same
      obtain ⟨-, -, hm, hh, -⟩ := loadCurrentTarget_ok found
      rw [← version] at hm hh
      refine waits_setVersion hk hm (effect.versions.trans (approveWithNote_rest ..).1)
        fun hdue => ?_
      by_cases hmode : target.version.citationMetadata.ingestionMode = some .full_text
      · refine .asked target.contentHash .manual ?_ ?_ ?_
        · exact hh.trans (congrArg some hash.symm)
        · show Asks s _ target.version.id _ _
          rw [hash]
          rw [version] at hmode ⊢
          exact .resolve hok parsed found hmode
        · have htasks := effect.tasks
          unfold approveWithNote at htasks
          dsimp only at htasks
          rw [if_pos (beq_iff_eq.mpr hmode)] at htasks
          exact .of_queueTask htasks rfl
      · have hwaits := hdue.queued
        change some (if (target.version.citationMetadata.ingestionMode == some .full_text) = true then
          EmbeddingStatus.queued else .not_applicable) = some .queued at hwaits
        rw [if_neg (by rw [beq_iff_eq]; exact hmode)] at hwaits
        nomatch hwaits
  | manual_edit_and_retry _ _ _ _ _ _ effect =>
    exact waits_of_stem effect.versions
      (stem_append stem_same (not_due_of_review .required rfl (by decide)))
  | revised _ _ _ _ _ effect =>
    exact waits_of_stem effect.versions
      (stem_append stem_same (not_due_of_review .required rfl (by decide)))
  | needsHuman _ _ effect =>
    exact waits_of_stem effect.versions (stem_needsHuman stem_same _)
  | @verified input _ _ _ _ _ _ _ _ _ effect =>
    by_cases hready : judgedReady input s.now s.db = true
    · exact judgedReady_waits hk hready
    · refine waits_of_stem rfl ?_
      show ∀ v' ∈ (Machine.commit s.db (submitResult input s.now s.db)).versions, _
      cases htx : submitResult input s.now s.db with
      | error e => exact stem_same
      | ok r => exact submitResult_stem htx hready
  | initiateUpload _ effect =>
    exact waits_of_stem effect.versions
      (stem_append stem_same (not_due_of_review .required rfl (by decide)))
  | completeUpload _ _ _ _ _ _ _ effect =>
    have e := effect.versions
    change _ = updateWhere _ _ (Database.queueTask _ _ _ _).versions at e
    rw [versions_queueTask] at e
    exact waits_of_stem e (stem_updateWhere fun v _ _ hdue => ⟨rfl, rfl, hdue.1, hdue.2⟩)
  | claimNext _ _ _ effect => exact waits_of_stem effect.versions stem_same
  | leasedUpdate _ _ effect => exact waits_of_stem effect.versions stem_same
  | saveParsedForReview _ _ _ _ _ _ _ _ effect =>
    refine waits_of_stem effect.versions (stem_updateWhere fun v _ _ hdue => ?_)
    exact absurd hdue (not_due_of_review .required rfl (by decide))
  | saveEmbeddingsAndComplete _ _ _ _ _ _ _ _ _ _ _ _ _ effect =>
    refine waits_of_stem effect.versions (stem_updateWhere fun v _ _ hdue => ?_)
    exact absurd hdue (not_due_of_embedding .completed rfl (by decide))

/-! ## 3. Texts that are embedded -/

/-- The text of an open task is still embedded after a step, unless the step ends the task. -/
theorem embedded_step {s : Base} (hk : Known s.db) (hc : Consistent s) (a : Action)
    {t : BackgroundTask} (ht : t ∈ s.db.tasks) (hopen : t.status.open_) {versionId : Uuid}
    {hash : Text} (hembeds : Embeds versionId hash t) :
    Embedding (s.step a).db versionId hash ∨
      (∃ job, Ends s a job ∧ holdsLease job t = true) ∨
      ∃ job chunkCount, a = .saveEmbeddingsAndComplete job chunkCount ∧
        job.payload.versionId = versionId := by
  cases task_effect hk a with
  | same effect => exact .inl ⟨t, effect ▸ ht, hopen, hembeds⟩
  | queued _ _ _ _ effect =>
    exact .inl ⟨t, effect ▸ List.mem_append_left _ ht, hopen, hembeds⟩
  | @claimed _ workerId task mem _ _ effect =>
    left
    have hmem := mem_updateWhere_of_mem (p := fun t => t.id == task.id)
      (f := leasedTask workerId s.db.nextId s.now) ht
    rw [← effect] at hmem
    refine ⟨_, hmem, ?_⟩
    split
    · exact ⟨.inr rfl, hembeds⟩
    · exact ⟨hopen, hembeds⟩
  | @held _ job f held update effect =>
    have hmem := mem_updateWhere_of_mem (p := holdsLease job) (f := f) ht
    rw [← effect] at hmem
    by_cases hl : holdsLease job t = true
    swap
    · rw [if_neg hl] at hmem
      exact .inl ⟨t, hmem, hopen, hembeds⟩
    rw [if_pos hl] at hmem
    have hkey := (update.cases t).1
    have hstill : (f t).status.open_ → Embedding (s.step a).db versionId hash := by
      intro hstatus
      obtain ⟨producer, he⟩ := hembeds
      exact ⟨f t, hmem, hstatus, producer, hkey.trans he⟩
    have hjob := hc.jobs_of_held held
    have hpayload := (hc.payload job hjob t ht hl).1
    have habout := hc.about t ht
    obtain ⟨producer, he⟩ := hembeds
    rw [he, ← hpayload] at habout
    cases update with
    | update h =>
      cases h with
      | renewLease => exact .inl (hstill hopen)
      | markOcrSubmitted _ => exact .inl (hstill (.inl rfl))
      | deferOcrPoll _ => exact .inl (hstill (.inl rfl))
      | markReviewRequired stage => exact .inr (.inl ⟨job, .markReviewRequired hjob stage, hl⟩)
      | @markFailed retryable retryAt =>
        by_cases hterminal : (decide (job.maxAttempts ≤ job.attempts) || !retryable) = true
        · exact .inr (.inl ⟨job, .markFailed hjob hterminal, hl⟩)
        · refine .inl (hstill (.inl ?_))
          show (if _ then TaskStatus.failed else .queued) = _
          rw [if_neg hterminal]
    | @saveParsedForReview parsed =>
      -- a document is parsed under a task that embeds nothing
      left
      cases step_effect hk.fresh (.saveParsedForReview job parsed) with
      | quiet _ _ same => exact ⟨t, same.tasks ▸ ht, hopen, producer, he⟩
      | leasedUpdate _ update _ => nomatch update
      | saveParsedForReview _ stage =>
        exfalso
        generalize job.payload = payload at habout stage
        cases habout with
        | embedding => nomatch stage
    | @saveEmbeddingsAndComplete chunkCount =>
      refine .inr (.inr ⟨job, chunkCount, rfl, ?_⟩)
      generalize job.payload = payload at habout
      cases habout with
      | embedding => rfl

/-- Where the embedding of a version is completed, the version no longer waits. -/
theorem not_due_completed {s : Base} (hk : Known s.db) {job : KnowledgeIngestionJob}
    {chunkCount : Nat} :
    (s.step (.saveEmbeddingsAndComplete job chunkCount)).db.tasks = s.db.tasks ∨
      ∀ v ∈ (s.step (.saveEmbeddingsAndComplete job chunkCount)).db.versions,
        v.id = job.payload.versionId → ¬ Due v := by
  cases step_effect hk.fresh (.saveEmbeddingsAndComplete job chunkCount) with
  | quiet _ _ effect => exact .inl effect.tasks
  | leasedUpdate _ update _ => nomatch update
  | saveEmbeddingsAndComplete _ _ _ _ _ _ _ _ _ _ _ _ _ effect =>
    refine .inr fun v' hv' hid => ?_
    rw [effect.versions] at hv'
    obtain ⟨v, _, rfl⟩ := mem_updateWhere.mp hv'
    by_cases hv : (v.id == job.payload.versionId) = true
    · rw [if_pos hv]
      exact not_due_of_embedding .completed rfl (by decide)
    · rw [if_neg hv] at hid
      exact absurd (beq_iff_eq.mpr hid) hv

/-! ## 4. Runs -/

/-- **One step** keeps a task for every version that waits. -/
theorem embeddings_step {s : Base} (hk : Known s.db) (hc : Consistent s)
    (hs : ∀ v ∈ s.db.versions, Sound v) (h : EmbeddingsHaveTasks s.db) {a : Action}
    (hkeeps : KeepsTasks s a) : EmbeddingsHaveTasks (s.step a).db := by
  intro v' hv' hdue
  cases due_step hk hs a v' hv' hdue with
  | before stem =>
    obtain ⟨v, hv, hid, hhash, hold⟩ := stem
    obtain ⟨hash, hsome, t, ht, hopen, hembeds⟩ := h v hv hold
    refine ⟨hash, hhash.symm.trans hsome, ?_⟩
    rw [← hid]
    rcases embedded_step hk hc a ht hopen hembeds with hstill | ⟨job, hends, hl⟩ |
      ⟨job, chunkCount, rfl, hversion⟩
    · exact hstill
    · -- another task is open, and it is not the one that ends
      obtain ⟨other, hother, hne, hopen', hembeds'⟩ :=
        hkeeps.ends job hends t ht hl v hv hold hash hsome hembeds
      rcases embedded_step hk hc a hother hopen' hembeds' with hstill | ⟨job', hends', hl'⟩ |
        ⟨job', chunkCount, rfl, -⟩
      · exact hstill
      · rw [hends'.job_eq hends] at hl'
        exact absurd ((holdsLease_iff.mp hl').1.trans (holdsLease_iff.mp hl).1.symm) hne
      · nomatch hends
    · rcases @not_due_completed _ _ _ s hk job chunkCount with hsame | hnone
      · exact ⟨t, hsame ▸ ht, hopen, hembeds⟩
      · exact absurd hdue (hnone v' hv' (hid.symm.trans hversion.symm))
  | asked hash producer hsome asks tasks =>
    refine ⟨hash, hsome, ?_⟩
    obtain ⟨before, payload, runAt, hbefore, htasks⟩ := tasks
    rcases tasks_queueTask before (.embedding v'.id hash producer) payload runAt with
      ⟨⟨t, ht, hkey⟩, hsame⟩ | ⟨-, hnew⟩
    · -- the key is taken
      rw [hbefore] at ht
      rcases hkeeps.asks _ _ _ asks with ⟨t', ht', hopen, hembeds⟩ | hfree
      · rw [hsame, hbefore] at htasks
        exact ⟨t', htasks ▸ ht', hopen, hembeds⟩
      · exact absurd hkey (hfree t ht)
    · rw [hnew] at htasks
      refine ⟨_, htasks ▸ List.mem_append_right _ List.mem_cons_self, .inl rfl, producer, rfl⟩

/-- **Queued embeddings have a task**, in the last state of every run whose steps all keep the
    tasks that versions wait for. -/
theorem embeddings_have_tasks (actions : List Action)
    (h : Machine.Along Base.step KeepsTasks .initial actions) :
    EmbeddingsHaveTasks (Base.after actions).db := by
  have hrule := @Machine.run_invariant_along _ _ Base.step KeepsTasks
    (fun s : Base => Known s.db ∧ Consistent s ∧ (∀ v ∈ s.db.versions, Sound v) ∧
      EmbeddingsHaveTasks s.db) .initial
    ⟨known_after [], consistent_after [], sound_after [], fun v hv => nomatch hv⟩
    (fun s a hc hinv => ⟨known_step hinv.1 a, consistent_step hinv.1 hinv.2.1 a,
      sound_step hinv.1 hinv.2.2.1 a,
      embeddings_step hinv.1 hinv.2.1 hinv.2.2.1 hinv.2.2.2 hc⟩) actions h
  exact hrule.2.2.2

omit [LocaleOrder] in
/-- Where there is no task, a step keeps the tasks. -/
theorem keepsTasks_of_no_task {s : Base} (h : s.db.tasks = []) (a : Action) : KeepsTasks s a := by
  refine ⟨fun _ _ _ _ => .inr ?_, fun _ _ t ht => ?_⟩
  · intro t ht
    rw [h] at ht
    nomatch ht
  · rw [h] at ht
    nomatch ht

end Steps

/-- A draft is approved. -/
def approvedOnce : List Action :=
  [.putSource ownSource,
    .createKnowledgeDraft
      ⟨some 100, .full_text, "a".toList, ⟨some .full_text, none, none, none, none⟩⟩ 1,
    .reviewKnowledgeDocument 0 ⟨1, lengthDigest "a".toList, true, none⟩ 2]

theorem lengthDigest_isSha256Hex (text : Text) : isSha256Hex (lengthDigest text) = true := by
  have hdigit : ∀ k < 10, isHexDigit (Char.ofNat (48 + k)) = true := by decide
  have hk := hdigit (text.length % 10) (Nat.mod_lt _ (by decide))
  simp only [isSha256Hex, lengthDigest, List.length_replicate, beq_self_eq_true, Bool.true_and,
    List.all_replicate, hk]
  rfl

theorem embeddings_have_tasks_approved_once :
    let _ : Sha256Digest := { hex := lengthDigest, hex_isSha256Hex := lengthDigest_isSha256Hex }
    let _ : LocaleOrder := ⟨fun _ _ => true⟩
    let _ : UrlParser := ⟨httpsUrl⟩
    (Base.after approvedOnce).db.tasks.length = 1 ∧
      EmbeddingsHaveTasks (Base.after approvedOnce).db := by
  let _ : Sha256Digest := { hex := lengthDigest, hex_isSha256Hex := lengthDigest_isSha256Hex }
  let _ : LocaleOrder := ⟨fun _ _ => true⟩
  let _ : UrlParser := ⟨httpsUrl⟩
  refine ⟨by decide +kernel, embeddings_have_tasks approvedOnce ⟨?_, ?_, ?_, trivial⟩⟩
  · exact keepsTasks_of_no_task rfl _
  · exact keepsTasks_of_no_task rfl _
  · exact keepsTasks_of_no_task rfl _

/-- The approval is taken back, the worker ends the task without a result, and the draft is
    approved again. -/
def approvedAgain : List Action :=
  approvedOnce ++
    [.reviewKnowledgeDocument 0 ⟨1, lengthDigest "a".toList, false, some "no".toList⟩ 2,
      .claimNext 2 "w".toList,
      .loadApprovedContent embeddingJob,
      .markReviewRequired embeddingJob,
      .reviewKnowledgeDocument 0 ⟨1, lengthDigest "a".toList, true, none⟩ 2]

/-- The version that was approved again waits, and no task is open. -/
theorem approved_again_waits :
    ¬ ∀ [Sha256] [LocaleOrder] [UrlParser] (actions : List Action),
      EmbeddingsHaveTasks (Base.after actions).db := by
  intro hclaim
  let _ : Sha256 := ⟨lengthDigest⟩
  let _ : LocaleOrder := ⟨fun _ _ => true⟩
  let _ : UrlParser := ⟨httpsUrl⟩
  have hsome : ∃ v ∈ (Base.after approvedAgain).db.versions,
      v.metadata.reviewStatus = some .approved ∧ v.metadata.embeddingStatus = some .queued := by
    decide +kernel
  have hdone : ∀ t ∈ (Base.after approvedAgain).db.tasks, t.status = .succeeded := by
    decide +kernel
  obtain ⟨v, hv, happroved, hqueued⟩ := hsome
  obtain ⟨hash, -, t, ht, hopen, -⟩ := hclaim approvedAgain v hv ⟨happroved, hqueued⟩
  rcases hopen with hopen | hopen
  · rw [hdone t ht] at hopen
    nomatch hopen
  · rw [hdone t ht] at hopen
    nomatch hopen

end OpenVac.KnowledgeBase
