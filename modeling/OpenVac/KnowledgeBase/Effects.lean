/-
  File:      OpenVac/KnowledgeBase/Effects.lean
  Subject:   The transactions of the knowledge base, taken apart.

  * One inversion lemma for each transaction, `…_ok`: the guards it passed and the tables it
    leaves.
  * `submitResult_ok` -- a result of the automation changes tables only under a held lease.
-/
import OpenVac.KnowledgeBase.Base

namespace OpenVac.KnowledgeBase

open Rows JsString JsUrl
open ChatStorage (ParsedDocument)

/-! ## 1. Taking transactions apart -/

theorem insertVersion_ok {db db' : Database} {v : KnowledgeVersion} :
    db.insertVersion v = .ok db' ↔
      (∀ known ∈ db.versions, ¬(known.documentId = v.documentId ∧ known.version = v.version)) ∧
        db' = { db with versions := db.versions ++ [v] } := by
  unfold Database.insertVersion
  by_cases h : (db.versions.any fun known =>
      known.documentId == v.documentId && known.version == v.version) = true
  · simp only [h, if_true]
    refine ⟨fun e => (nomatch e), fun hn => ?_⟩
    obtain ⟨known, hk, he⟩ := List.any_eq_true.mp h
    simp only [Bool.and_eq_true, beq_iff_eq] at he
    exact absurd he (hn.1 known hk)
  · simp only [h, Bool.false_eq_true, if_false]
    have hn : ∀ known ∈ db.versions,
        ¬(known.documentId = v.documentId ∧ known.version = v.version) := by
      intro known hk he
      refine h (List.any_eq_true.mpr ⟨known, hk, ?_⟩)
      simp only [he.1, he.2, beq_self_eq_true, Bool.and_self]
    refine ⟨fun e => ⟨hn, ?_⟩, fun e => ?_⟩
    · injection e with e
      exact e.symm
    · rw [e.2]

theorem withPolicy_ok {result : Except KnowledgeSourcePolicyError Unit}
    {wrap : KnowledgeSourcePolicyError → KnowledgeError} {u : Unit} :
    withPolicy result wrap = .ok u ↔ result = .ok () := by
  rcases result with e | u' <;> simp [withPolicy]

theorem updateLeased_ok {job : KnowledgeIngestionJob} {f : BackgroundTask → BackgroundTask}
    {db db' : Database} (h : updateLeased job f db = .ok db') :
    (∃ t ∈ db.tasks, holdsLease job t = true) ∧
      db' = { db with tasks := updateWhere (holdsLease job) f db.tasks } := by
  unfold updateLeased at h
  split at h
  · next hany =>
      injection h with h
      exact ⟨List.any_eq_true.mp hany, h.symm⟩
  · cases h

theorem updateLeased_bind_ok {job : KnowledgeIngestionJob} {f : BackgroundTask → BackgroundTask}
    {db db' : Database} {u : Unit}
    (h : (do let db ← updateLeased job f db; return ((), db) :
      Except KnowledgeError (Unit × Database)) = .ok (u, db')) :
    (∃ t ∈ db.tasks, holdsLease job t = true) ∧
      db' = { db with tasks := updateWhere (holdsLease job) f db.tasks } := by
  obtain ⟨db₁, h1, h⟩ := Except.bind_ok_iff.mp h
  cases h
  exact updateLeased_ok h1

section Effects

variable [Sha256] [LocaleOrder] [UrlParser]

omit [LocaleOrder] [UrlParser] in
theorem createKnowledgeDraft_ok {input : KnowledgeDraftInput} {actor : UserId}
    {db db' : Database} {r : Uuid} (h : createKnowledgeDraft input actor db = .ok (r, db')) :
    db' = { db with
      nextId := db.nextId + 2
      documents := db.documents ++
        [⟨db.nextId, input.sourceId, none, .draft, some (db.nextId + 1)⟩]
      versions := db.versions ++ [draftVersion input actor db.nextId (db.nextId + 1)]
      audit := db.audit ++ [⟨actor, .draft_create, db.nextId, some (db.nextId + 1)⟩] } := by
  obtain ⟨_, _, h⟩ := Except.bind_ok_iff.mp h
  obtain ⟨db₁, h1, h⟩ := Except.bind_ok_iff.mp h
  cases h
  obtain ⟨_, rfl⟩ := insertVersion_ok.mp h1
  rfl

theorem importKnowledgeCandidate_ok {input : KnowledgeCandidate} {actor : UserId}
    {db db' : Database} {r : Uuid} (h : importKnowledgeCandidate input actor db = .ok (r, db')) :
    ∃ source sections,
      source ∈ db.sources ∧
      assertKnowledgeSourceAuthorized (some source) input.citation.citationMetadata = .ok () ∧
      buildCandidateKnowledgeReviewSections input (db.nextId + 1)
        (sha256KnowledgeContent (renderKnowledgeCandidate input)) (rightsSnapshot source) =
          .ok sections ∧
      db' = (({ db with
        nextId := db.nextId + 2
        documents := db.documents ++
          [⟨db.nextId, some source.id, some input.externalKey, .review, some (db.nextId + 1)⟩]
        versions := db.versions ++ [candidateVersion input actor db.nextId (db.nextId + 1)] } :
          Database).insertSections sections).writeAudit actor .candidate_import db.nextId
            (some (db.nextId + 1)) := by
  obtain ⟨source, hs, h⟩ := Except.bind_ok_iff.mp h
  obtain ⟨_, hp, h⟩ := Except.bind_ok_iff.mp h
  obtain ⟨_, _, h⟩ := Except.bind_ok_iff.mp h
  obtain ⟨sections, hb, h⟩ := Except.bind_ok_iff.mp h
  obtain ⟨db₁, h1, h⟩ := Except.bind_ok_iff.mp h
  cases h
  obtain ⟨_, rfl⟩ := insertVersion_ok.mp h1
  exact ⟨source, sections, List.mem_of_find?_eq_some (orThrow_ok.mp hs), withPolicy_ok.mp hp,
    hb, rfl⟩

omit [LocaleOrder] [UrlParser] in
theorem updateKnowledgeDraft_ok {document : KnowledgeDocument} {input : KnowledgeDraftUpdate}
    {actor : UserId} {db db' : Database} {r : Option Uuid}
    (h : updateKnowledgeDraft document input actor db = .ok (r, db')) :
    db' = db ∨ ∃ versionId version,
      editable document.status = true ∧ document.currentVersionId = some versionId ∧
      db.version versionId = some version ∧ version.documentId = document.id ∧
      editable version.status = true ∧
      db' = ((db.setDocument document.id
        (updatedDocument (reviewInvalidated document input version) input)).setVersion versionId
          (updatedVersion document input)).writeAudit actor .draft_update document.id
            (some versionId) := by
  unfold updateKnowledgeDraft at h
  split at h
  · cases h
    exact Or.inl rfl
  · next hed =>
      split at h
      · next versionId hc =>
          split at h
          · next version hv =>
              split at h
              · cases h
                exact Or.inl rfl
              · next hok =>
                  obtain ⟨_, _, h⟩ := Except.bind_ok_iff.mp h
                  cases h
                  simp only [Bool.or_eq_true, bne_iff_ne, ne_eq, Bool.not_eq_true', not_or,
                    Decidable.not_not, Bool.not_eq_false] at hok hed
                  exact Or.inr ⟨versionId, version, hed, hc, hv, hok.1, hok.2, rfl⟩
          · cases h
            exact Or.inl rfl
      · cases h
        exact Or.inl rfl

omit [LocaleOrder] in
theorem reviewKnowledgeDocument_ok {documentId : Uuid} {input : KnowledgeReviewInput}
    {actor : UserId} {now : Int} {db db' : Database} {r : Option Uuid}
    (h : reviewKnowledgeDocument documentId input actor now db = .ok (r, db')) :
    db' = db ∨ ∃ document version transition,
      db.document documentId = some document ∧ document.currentVersionId = some version.id ∧
      (editable document.status = true ∨ document.status = .published) ∧
      version ∈ db.versions ∧ version.documentId = documentId ∧
      (editable version.status = true ∨ publishedPendingReview document version = true) ∧
      buildKnowledgeReviewTransition
        ⟨documentId, version.id, version.content, version.contentHash,
          version.citationMetadata.ingestionMode, actor, now⟩ input = .ok transition ∧
      (publishedPendingReview document version = true → input.approved = true →
        version.citationMetadata.ingestionMode = some .full_text →
          preserveCompletedEmbedding document version transition.contentHash db = true) ∧
      db' = (queueReviewTask transition
        (preserveCompletedEmbedding document version transition.contentHash db) now
        ((db.setVersion version.id
          (reviewedVersion input.approved (publishedPendingReview document version)
            (preserveCompletedEmbedding document version transition.contentHash db)
              transition)).setDocument documentId
            (withStatus (if publishedPendingReview document version then
              settledStatus input.approved else transition.documentStatus)))).writeAudit actor
          (if input.approved then .review_approve else .review_reject) documentId
            (some version.id) := by
  unfold reviewKnowledgeDocument at h
  split at h
  swap
  · cases h
    exact Or.inl rfl
  next document hd =>
  obtain ⟨versionId, hc, h⟩ := Except.bind_ok_iff.mp h
  obtain ⟨_, hs, h⟩ := Except.bind_ok_iff.mp h
  split at h
  swap
  · cases h
    exact Or.inl rfl
  next version hv =>
  split at h
  · cases h
    exact Or.inl rfl
  next hdoc =>
  obtain ⟨_, hst, h⟩ := Except.bind_ok_iff.mp h
  obtain ⟨transition, ht, h⟩ := Except.bind_ok_iff.mp h
  have hid : version.id = versionId := by simpa using List.find?_some hv
  subst hid
  have hmem := List.mem_of_find?_eq_some hv
  have hs' := throwIf_ok.mp hs
  have hst' := throwIf_ok.mp hst
  simp only [Bool.and_eq_false_iff, Bool.not_eq_false', bne_eq_false_iff_eq] at hs' hst'
  have hdoc' : version.documentId = documentId := by simpa using hdoc
  obtain ⟨_, _, h⟩ := Except.bind_ok_iff.mp h
  obtain ⟨_, hpe, h⟩ := Except.bind_ok_iff.mp h
  cases h
  have hpe' := throwIf_ok.mp hpe
  refine Or.inr ⟨document, version, transition, hd, orThrow_ok.mp hc, hs', hmem, hdoc', hst', ht,
    fun h1 h2 h3 => ?_, rfl⟩
  simpa [h1, h2, h3] using hpe'

theorem publishKnowledgeDraft_ok {documentId : Uuid} {actor : UserId} {now : Int}
    {db db' : Database} {r : Option Uuid}
    (h : publishKnowledgeDraft documentId actor now db = .ok (r, db')) :
    db' = db ∨ ∃ document version,
      db.document documentId = some document ∧ document.currentVersionId = some version.id ∧
      version ∈ db.versions ∧ assertPublishable document version now db = .ok () ∧
      version.status = .review ∧ document.status = .review ∧
      db' = ((db.setVersion version.id (publishedVersion now)).setDocument documentId
        (withStatus .published)).writeAudit actor .publish documentId (some version.id) := by
  unfold publishKnowledgeDraft at h
  split at h
  swap
  · cases h
    exact Or.inl rfl
  next document hd =>
  split at h
  swap
  · cases h
    exact Or.inl rfl
  next versionId hc =>
  split at h
  swap
  · cases h
    exact Or.inl rfl
  next version hv =>
  obtain ⟨_, hp, h⟩ := Except.bind_ok_iff.mp h
  obtain ⟨_, hvs, h⟩ := Except.bind_ok_iff.mp h
  obtain ⟨_, hds, h⟩ := Except.bind_ok_iff.mp h
  have hid : version.id = versionId := by simpa using List.find?_some hv
  subst hid
  cases h
  refine Or.inr ⟨document, version, hd, hc, List.mem_of_find?_eq_some hv, hp, ?_, ?_, rfl⟩
  · simpa using throwIf_ok.mp hvs
  · simpa using throwIf_ok.mp hds

omit [Sha256] [LocaleOrder] [UrlParser] in
theorem archiveKnowledgeDocument_ok {documentId : Uuid} {actor : UserId} {db db' : Database}
    {r : Option (Uuid × Bool)} (h : archiveKnowledgeDocument documentId actor db = .ok (r, db')) :
    db' = db ∨ ∃ document, db.document documentId = some document ∧
      db' = ((match document.currentVersionId with
        | some versionId => db.setVersion versionId archivedVersion
        | none => db).setDocument documentId (withStatus .archived)).writeAudit actor .archive
          documentId document.currentVersionId := by
  unfold archiveKnowledgeDocument at h
  split at h
  swap
  · cases h
    exact Or.inl rfl
  next document hd =>
  split at h
  · cases h
    exact Or.inl rfl
  · cases h
    exact Or.inr ⟨document, hd, rfl⟩

omit [LocaleOrder] in
theorem rollbackKnowledgeDocument_ok {documentId versionId : Uuid} {actor : UserId} {now : Int}
    {db db' : Database} {r : Option Uuid}
    (h : rollbackKnowledgeDocument documentId versionId actor now db = .ok (r, db')) :
    db' = db ∨ ∃ document target number,
      db.document documentId = some document ∧ document.status = .published ∧
      target ∈ db.versions ∧ target.documentId = documentId ∧
      assertReviewedKnowledgeEvidence
        ⟨document.status, target.status, target.content, target.contentHash,
          target.citationMetadata, target.metadata, db.chunkCount target.id⟩ now = .ok () ∧
      db' = ((({ db with
          nextId := db.nextId + 1
          versions := (db.archivePublished documentId).versions ++
            [rolledBackVersion target db.nextId number actor now] } : Database).copyChunks
          target.id db.nextId).setDocument documentId
            (withCurrent .published db.nextId)).writeAudit actor .rollback documentId
              (some db.nextId) := by
  unfold rollbackKnowledgeDocument at h
  split at h
  swap
  · cases h
    exact Or.inl rfl
  next document hd =>
  obtain ⟨_, hst, h⟩ := Except.bind_ok_iff.mp h
  obtain ⟨currentVersionId, _, h⟩ := Except.bind_ok_iff.mp h
  split at h
  swap
  · cases h
    exact Or.inl rfl
  next target hv =>
  split at h
  · cases h
    exact Or.inl rfl
  next hdoc =>
  obtain ⟨_, _, h⟩ := Except.bind_ok_iff.mp h
  obtain ⟨_, hev, h⟩ := Except.bind_ok_iff.mp h
  obtain ⟨_, _, h⟩ := Except.bind_ok_iff.mp h
  obtain ⟨db₁, h1, h⟩ := Except.bind_ok_iff.mp h
  cases h
  obtain ⟨_, rfl⟩ := insertVersion_ok.mp h1
  have hst' : document.status = .published := by simpa using throwIf_ok.mp hst
  have hdoc' : target.documentId = documentId := by simpa using hdoc
  exact Or.inr ⟨document, target, _, hd, hst', List.mem_of_find?_eq_some hv, hdoc', hev, rfl⟩

omit [Sha256] [LocaleOrder] [UrlParser] in
theorem completeReview_ok {input : PendingCompletion} {db db' : Database} {u : Unit}
    (h : completeReview input db = .ok (u, db')) :
    ∃ version document,
      db.version input.versionId = some version ∧ version.documentId = input.documentId ∧
      version.contentHash = some input.contentHash ∧
      db.document input.documentId = some document ∧
      document.currentVersionId = some input.versionId ∧
      db' = (if input.ingestionMode = .full_text then
        ((db.setVersion input.versionId (sectionsCompleted input)).setDocument input.documentId
          (withStatus .review)).queueTask input.key input.payload input.reviewedAt
        else (db.setVersion input.versionId (sectionsCompleted input)).setDocument
          input.documentId (withStatus .review)).writeAudit input.reviewerId
            .section_review_complete input.documentId (some input.versionId) := by
  obtain ⟨version, hv, h⟩ := Except.bind_ok_iff.mp h
  obtain ⟨_, h1, h⟩ := Except.bind_ok_iff.mp h
  obtain ⟨_, h2, h⟩ := Except.bind_ok_iff.mp h
  cases h
  have h1' := throwIf_ok.mp h1
  simp only [Bool.or_eq_false_iff, bne_eq_false_iff_eq] at h1'
  have h2' := throwIf_ok.mp h2
  simp only [Bool.not_eq_false'] at h2'
  obtain ⟨document, hd, hc⟩ := (Option.any_eq_true _ _).mp h2'
  exact ⟨version, document, orThrow_ok.mp hv, h1'.1, h1'.2, hd, by simpa using hc, rfl⟩

/-! ## 2. Manual resolutions -/

omit [Sha256] [LocaleOrder] [UrlParser] in
theorem loadCurrentTarget_ok {input : KnowledgeManualReviewTarget} {db : Database}
    {target : CurrentTarget} (h : loadCurrentTarget input db = .ok target) :
    db.document input.documentId = some target.document ∧
      target.document.currentVersionId = some target.version.id ∧
      target.version ∈ db.versions ∧ target.version.contentHash = some target.contentHash ∧
      openToManualReview target.document.status = true ∧
      target.version.createdBy = some target.createdBy ∧
      target.version.id = input.expectedVersionId ∧
      target.contentHash = input.expectedContentHash := by
  obtain ⟨document, hd, h⟩ := Except.bind_ok_iff.mp h
  obtain ⟨version, hv, h⟩ := Except.bind_ok_iff.mp h
  obtain ⟨_, h1, h⟩ := Except.bind_ok_iff.mp h
  obtain ⟨_, _, h⟩ := Except.bind_ok_iff.mp h
  obtain ⟨createdBy, hb, h⟩ := Except.bind_ok_iff.mp h
  cases h
  have h1' := throwIf_ok.mp h1
  simp only [Bool.or_eq_false_iff, bne_eq_false_iff_eq, Bool.not_eq_false'] at h1'
  obtain ⟨versionId, hc, hv'⟩ := Option.bind_eq_some_iff.mp (orThrow_ok.mp hv)
  have hid : version.id = versionId := by simpa using List.find?_some hv'
  subst hid
  exact ⟨orThrow_ok.mp hd, hc, List.mem_of_find?_eq_some hv', h1'.1.2, h1'.2, orThrow_ok.mp hb,
    h1'.1.1, rfl⟩

omit [Sha256] [LocaleOrder] [UrlParser] in
/-- Linking a source changes the document's source at most. -/
theorem resolveCurrentSourceLink_spec (target : CurrentTarget) (db : Database) :
    (resolveCurrentSourceLink target db).1.document = target.document ∧
      (resolveCurrentSourceLink target db).1.version = target.version ∧
      (resolveCurrentSourceLink target db).1.contentHash = target.contentHash ∧
      (resolveCurrentSourceLink target db).1.createdBy = target.createdBy ∧
      ((resolveCurrentSourceLink target db).2 = db ∨ ∃ sourceId,
        (resolveCurrentSourceLink target db).2 =
          db.setDocument target.document.id fun d => { d with sourceId := some sourceId }) := by
  unfold resolveCurrentSourceLink
  split
  · split
    · exact ⟨rfl, rfl, rfl, rfl, Or.inl rfl⟩
    · split
      · next source _ => exact ⟨rfl, rfl, rfl, rfl, Or.inr ⟨source.id, rfl⟩⟩
      · exact ⟨rfl, rfl, rfl, rfl, Or.inl rfl⟩
  · exact ⟨rfl, rfl, rfl, rfl, Or.inl rfl⟩

/-- A document gets a source, or stays as it is. -/
def linked (sourceId : Option Uuid) (d : KnowledgeDocument) : KnowledgeDocument :=
  { d with sourceId := sourceId.or d.sourceId }

omit [Sha256] [LocaleOrder] [UrlParser] in
theorem setDocument_linked_none (db : Database) (documentId : Uuid) :
    db.setDocument documentId (linked none) = db := by
  have h : updateWhere (fun d => d.id == documentId) (linked none) db.documents = db.documents :=
    updateWhere_eq_self fun d _ _ => rfl
  unfold Database.setDocument
  rw [h]

omit [Sha256] [LocaleOrder] in
theorem authorizedTarget_ok {input : KnowledgeManualReviewTarget} {db db' : Database}
    {target : CurrentTarget} (h : authorizedTarget input db = .ok (target, db')) :
    (∃ loaded, loadCurrentTarget input db = .ok loaded ∧ target.document = loaded.document ∧
      target.version = loaded.version ∧ target.contentHash = loaded.contentHash ∧
      target.createdBy = loaded.createdBy) ∧
      ∃ sourceId, db' = db.setDocument target.document.id (linked sourceId) := by
  obtain ⟨loaded, hl, h⟩ := Except.bind_ok_iff.mp h
  obtain ⟨_, _, h⟩ := Except.bind_ok_iff.mp h
  have hspec := resolveCurrentSourceLink_spec loaded db
  injection h with h
  rw [h] at hspec
  obtain ⟨h1, h2, h3, h4, h5⟩ := hspec
  refine ⟨⟨loaded, hl, h1, h2, h3, h4⟩, ?_⟩
  rw [h1]
  rcases h5 with rfl | ⟨sourceId, rfl⟩
  · exact ⟨none, (setDocument_linked_none db' loaded.document.id).symm⟩
  · exact ⟨some sourceId, rfl⟩

omit [Sha256] [LocaleOrder] [UrlParser] in
theorem queueAutomationRun_ok {versionId : Uuid} {contentHash : Text} {phase : ReviewPhase}
    {db db' : Database} (h : queueAutomationRun versionId contentHash phase db = .ok db') :
    ((∀ r ∈ db.runs, Database.runConflicts phase versionId contentHash r = false) ∧
      db' = db.insertRun phase versionId contentHash REVIEW_MODEL) ∨
    ∃ run ∈ db.runs, Database.runConflicts phase versionId contentHash run = true ∧
      restartable run.status = true ∧ db' = db.setRun run.id restarted := by
  unfold queueAutomationRun at h
  split at h
  · next hf =>
      cases h
      exact Or.inl ⟨fun r hr => by simpa using List.find?_eq_none.mp hf r hr, rfl⟩
  · next run hf =>
      split at h
      · next hr =>
          cases h
          exact Or.inr ⟨run, List.mem_of_find?_eq_some hf, List.find?_some hf, hr, rfl⟩
      · cases h

omit [LocaleOrder] [Sha256] in
theorem retry_ok {input : KnowledgeManualReviewTarget} {db db' : Database} {u : Unit}
    (h : retry input db = .ok (u, db')) :
    ∃ target db₁ db₂, authorizedTarget input db = .ok (target, db₁) ∧
      queueAutomationRun target.version.id target.contentHash .initial db₁ = .ok db₂ ∧
      db' = db₂.writeAudit input.actorId .automation_review_retry input.documentId
        (some target.version.id) := by
  obtain ⟨⟨target, db₁⟩, ha, h⟩ := Except.bind_ok_iff.mp h
  obtain ⟨db₂, hq, h⟩ := Except.bind_ok_iff.mp h
  cases h
  exact ⟨target, db₁, db₂, ha, hq, rfl⟩

omit [LocaleOrder] [UrlParser] in
theorem insertManualEdit_ok {target : CurrentTarget} {content : Text} {db db' : Database}
    {versionId : Uuid} (h : insertManualEdit target content db = .ok (versionId, db')) :
    versionId = db.nextId ∧
      db' = ({ db with
        nextId := db.nextId + 1
        versions := db.versions ++ [editedVersion target content db.nextId] } :
          Database).setDocument target.document.id (withCurrent .review db.nextId) := by
  obtain ⟨db₁, h1, h⟩ := Except.bind_ok_iff.mp h
  cases h
  obtain ⟨_, rfl⟩ := insertVersion_ok.mp h1
  exact ⟨rfl, rfl⟩

omit [LocaleOrder] in
theorem resolve_ok {input : KnowledgeManualReviewTarget} {resolution : KnowledgeManualResolution}
    {now : Int} {db db' : Database} {u : Unit}
    (h : resolve input resolution now db = .ok (u, db')) :
    ∃ parsed, parseResolution resolution = some parsed ∧
      match parsed with
      | .archive => ∃ target, loadCurrentTarget input db = .ok target ∧
          db' = ((db.setVersion target.version.id archivedVersion).setDocument target.document.id
            (withStatus .archived)).writeAudit input.actorId .manual_review_archived
              input.documentId (some target.version.id)
      | .manual_approve_with_note note => ∃ target db₁,
          authorizedTarget input db = .ok (target, db₁) ∧
          db' = (approveWithNote target input.actorId note now db₁).writeAudit input.actorId
            .manual_review_approved input.documentId (some target.version.id)
      | .manual_edit_and_retry content => ∃ target db₁ versionId db₂ db₃,
          authorizedTarget input db = .ok (target, db₁) ∧
          insertManualEdit target content db₁ = .ok (versionId, db₂) ∧
          queueAutomationRun versionId (sha256KnowledgeContent content) .initial db₂ = .ok db₃ ∧
          db' = db₃.writeAudit input.actorId .manual_review_edited_retry input.documentId
            (some versionId)
      | .adopt_revision_and_retry => ∃ target db₁ db₂,
          authorizedTarget input db = .ok (target, db₁) ∧
          queueAutomationRun target.version.id target.contentHash .verify db₁ = .ok db₂ ∧
          db' = db₂.writeAudit input.actorId .manual_review_adopted_retry input.documentId
            (some target.version.id) := by
  obtain ⟨parsed, hp, h⟩ := Except.bind_ok_iff.mp h
  refine ⟨parsed, orThrow_ok.mp hp, ?_⟩
  cases parsed with
  | archive =>
    obtain ⟨target, ht, h⟩ := Except.bind_ok_iff.mp h
    cases h
    exact ⟨target, ht, rfl⟩
  | manual_approve_with_note note =>
    obtain ⟨⟨target, db₁⟩, ha, h⟩ := Except.bind_ok_iff.mp h
    cases h
    exact ⟨target, db₁, ha, rfl⟩
  | manual_edit_and_retry content =>
    obtain ⟨⟨target, db₁⟩, ha, h⟩ := Except.bind_ok_iff.mp h
    obtain ⟨⟨versionId, db₂⟩, hi, h⟩ := Except.bind_ok_iff.mp h
    obtain ⟨db₃, hq, h⟩ := Except.bind_ok_iff.mp h
    cases h
    exact ⟨target, db₁, versionId, db₂, db₃, ha, hi, hq, rfl⟩
  | adopt_revision_and_retry =>
    obtain ⟨⟨target, db₁⟩, ha, h⟩ := Except.bind_ok_iff.mp h
    obtain ⟨db₂, hq, h⟩ := Except.bind_ok_iff.mp h
    cases h
    exact ⟨target, db₁, db₂, ha, hq, rfl⟩

/-! ## 3. Results of the automation -/

omit [LocaleOrder] [UrlParser] in
theorem insertRevision_ok {version : KnowledgeVersion} {content : Text} {db db' : Database}
    {versionId : Uuid} (h : insertRevision version content db = .ok (versionId, db')) :
    versionId = db.nextId ∧ ∃ number,
      db' = ({ db with
        nextId := db.nextId + 1
        versions := db.versions ++ [revisedVersion version content db.nextId number] } :
          Database).setDocument version.documentId (withCurrent .review db.nextId) := by
  obtain ⟨db₁, h1, h⟩ := Except.bind_ok_iff.mp h
  cases h
  obtain ⟨_, rfl⟩ := insertVersion_ok.mp h1
  exact ⟨rfl, _, rfl⟩

/-- A run whose input is the current version of its document, with the content it names. -/
structure CurrentInput (db : Database) (r : ReviewRun) (version : KnowledgeVersion)
    (document : KnowledgeDocument) : Prop where
  mem : version ∈ db.versions
  hid : version.id = r.inputVersionId
  found : db.document version.documentId = some document
  current : document.currentVersionId = some version.id
  hash : version.contentHash = some r.inputContentHash

omit [Sha256] [LocaleOrder] [UrlParser] in
theorem currentInput_ok {db : Database} {r : ReviewRun} {version : KnowledgeVersion}
    {document : KnowledgeDocument} (h : currentInput db r = some (version, document)) :
    CurrentInput db r version document := by
  unfold currentInput at h
  split at h
  · cases h
  · next v hv =>
      split at h
      · cases h
      · next d hd =>
          split at h
          · next hc =>
              cases h
              simp only [Bool.and_eq_true, beq_iff_eq] at hc
              exact ⟨List.mem_of_find?_eq_some hv, by simpa using List.find?_some hv, hd, hc.1,
                hc.2⟩
          · cases h

/-- The holder of an unexpired lease, whose input is still current. -/
structure LeasedTarget (input : CompleteInput) (now : Int) (db : Database) (r : ReviewRun)
    (version : KnowledgeVersion) (document : KnowledgeDocument) : Prop extends
    CurrentInput db r version document where
  run : r ∈ db.runs
  runId : r.id = input.id
  phase : r.phase = input.phase
  token : r.leaseTokenHash = some input.leaseTokenHash
  versionId : r.inputVersionId = input.inputVersionId
  contentHash : r.inputContentHash = input.inputContentHash
  status : r.status = .leased
  expiry : ∃ t, r.leaseExpiresAt = some t ∧ now < t

omit [Sha256] [LocaleOrder] [UrlParser] in
theorem leasedTarget_ok {input : CompleteInput} {now : Int} {db : Database} {r : ReviewRun}
    {version : KnowledgeVersion} {document : KnowledgeDocument}
    (h : leasedTarget input now db = some (r, version, document)) :
    LeasedTarget input now db r version document := by
  unfold leasedTarget at h
  split at h
  · cases h
  · next run hr =>
      obtain ⟨target, ht, e⟩ := Option.map_eq_some_iff.mp h
      cases e
      have hp := List.find?_some hr
      simp only [Bool.and_eq_true, beq_iff_eq] at hp
      obtain ⟨t, ht', hlt⟩ := (Option.any_eq_true _ _).mp hp.2
      obtain ⟨⟨⟨⟨⟨⟨hid, hphase⟩, htoken⟩, hversion⟩, hhash⟩, hstatus⟩, _⟩ := hp
      exact ⟨currentInput_ok ht, List.mem_of_find?_eq_some hr, hid, hphase, htoken, hversion,
        hhash, hstatus, t, ht', of_decide_eq_true hlt⟩

omit [LocaleOrder] in
/-- Judging a result inserts a revision, or leaves the tables alone. -/
theorem judge_ok {input : CompleteInput} {version : KnowledgeVersion}
    {document : KnowledgeDocument} {db db' : Database} {j : Judged}
    (h : judge input version document db = .ok (j, db')) :
    (db' = db ∧ j.currentVersionId = version.id ∧
      j.currentContentHash = input.inputContentHash ∧ j.revisedVersionId = none) ∨
    ∃ content number, input.phase = .initial ∧ input.report.decision = .approved ∧
      input.revisedContent = some content ∧
      j.currentVersionId = db.nextId ∧ j.currentContentHash = Sha256.hex content ∧
      j.revisedVersionId = some db.nextId ∧
      db' = ({ db with
        nextId := db.nextId + 1
        versions := db.versions ++ [revisedVersion version content db.nextId number] } :
          Database).setDocument version.documentId (withCurrent .review db.nextId) := by
  unfold judge at h
  dsimp only at h
  by_cases hphase : input.phase = .initial ∧
      (if isSourceAuthorized (db.source document.sourceId) version.citationMetadata then
        input.report.decision else .needs_human) = .approved
  swap
  · rw [if_neg hphase] at h
    cases h
    exact Or.inl ⟨rfl, rfl, rfl, rfl⟩
  rw [if_pos hphase] at h
  have hdec : input.report.decision = .approved := by
    have h2 := hphase.2
    split at h2
    · exact h2
    · cases h2
  cases hv : revise input version db with
  | error e =>
    rw [hv] at h
    cases h
  | ok revised =>
    rw [hv] at h
    cases h
    unfold revise at hv
    split at hv
    · cases hv
      exact Or.inl ⟨rfl, rfl, rfl, rfl⟩
    · next content hc =>
        split at hv
        · next versionId db₁ hi =>
            cases hv
            obtain ⟨rfl, number, rfl⟩ := insertRevision_ok hi
            exact Or.inr ⟨content, number, hphase.1, hdec, hc, rfl, rfl, rfl, rfl⟩
        · cases hv

omit [LocaleOrder] in
/-- **A result changes the tables only under a lease that is held.** -/
theorem submitResult_ok {input : CompleteInput} {now : Int} {db db' : Database}
    {outcome : AutomationReviewOutcome} (h : submitResult input now db = .ok (outcome, db')) :
    ∃ parsed, parseResult input = .ok parsed ∧
      ((leasedTarget parsed now db = none ∧ db' = db ∧
        ∃ r, replay parsed db = some r ∧ replayOutcome r = .ok outcome) ∨
      ∃ r version document j db₁,
        leasedTarget parsed now db = some (r, version, document) ∧
        judge parsed version document db = .ok (j, db₁) ∧
        outcome = ⟨parsed.id,
          (settle parsed document.id r.model j now (storeResult parsed j now db₁)).1.status,
          (settle parsed document.id r.model j now (storeResult parsed j now db₁)).1.decision,
          j.currentVersionId,
          (settle parsed document.id r.model j now (storeResult parsed j now db₁)).1.queuedPhase,
          false⟩ ∧
        db' = recordSettled parsed.id
          (settle parsed document.id r.model j now (storeResult parsed j now db₁)).1
          (settle parsed document.id r.model j now (storeResult parsed j now db₁)).2) := by
  obtain ⟨parsed, hp, h⟩ := Except.bind_ok_iff.mp h
  refine ⟨parsed, hp, ?_⟩
  unfold complete at h
  cases hl : leasedTarget parsed now db with
  | none =>
    rw [hl] at h
    dsimp only at h
    split at h
    · next r hr =>
        split at h
        · next o ho =>
            cases h
            exact Or.inl ⟨rfl, rfl, r, hr, ho⟩
        · cases h
    · cases h
  | some target =>
    obtain ⟨r, version, document⟩ := target
    rw [hl] at h
    dsimp only at h
    split at h
    · cases h
    · next j db₁ hj =>
        cases h
        exact Or.inr ⟨r, version, document, j, db₁, rfl, hj, rfl, rfl⟩

/-! ## 4. Uploads and the worker -/

omit [Sha256] [LocaleOrder] [UrlParser] in
theorem initiateUpload_ok {input : KnowledgeUploadInput} {db db' : Database} {r : Uuid}
    (h : initiateUpload input db = .ok (r, db')) :
    ∃ sourceId, db' = { db with
      nextId := db.nextId + 2
      documents := db.documents ++
        [⟨db.nextId, sourceId, none, .processing, some (db.nextId + 1)⟩]
      versions := db.versions ++ [uploadedVersion input db.nextId (db.nextId + 1)]
      originals := db.originals ++ [⟨db.nextId + 1, input.sha256, input.uploadedBy⟩] } := by
  obtain ⟨db₁, h1, h⟩ := Except.bind_ok_iff.mp h
  cases h
  obtain ⟨_, rfl⟩ := insertVersion_ok.mp h1
  exact ⟨_, rfl⟩

omit [Sha256] [LocaleOrder] [UrlParser] in
theorem completeUpload_ok {versionId : Uuid} {uploadedBy : UserId} {now : Int}
    {db db' : Database} {u : Unit} (h : completeUpload versionId uploadedBy now db = .ok (u, db')) :
    db' = db ∨ ∃ original version document,
      original ∈ db.originals ∧ original.versionId = versionId ∧
      db.version versionId = some version ∧ db.document version.documentId = some document ∧
      document.currentVersionId = some versionId ∧
      (∀ task ∈ db.tasks, task.idempotencyKey ≠ .ingestion versionId original.sha256) ∧
      db' = ((db.queueTask (.ingestion versionId original.sha256)
        { stage := .ocr_pending, documentId := document.id, versionId := versionId }
          now).setVersion versionId processingVersion).setDocument document.id
            (withStatus .processing) := by
  unfold completeUpload at h
  obtain ⟨original, ho, h⟩ := Except.bind_ok_iff.mp h
  obtain ⟨version, hv, h⟩ := Except.bind_ok_iff.mp h
  obtain ⟨document, hd, h⟩ := Except.bind_ok_iff.mp h
  obtain ⟨_, hc, h⟩ := Except.bind_ok_iff.mp h
  dsimp only at h
  split at h
  · cases h
    exact Or.inl rfl
  next hany =>
  cases h
  have ho' := orThrow_ok.mp ho
  have hov := List.find?_some ho'
  simp only [Bool.and_eq_true, beq_iff_eq] at hov
  refine Or.inr ⟨original, version, document, List.mem_of_find?_eq_some ho', hov.1,
    orThrow_ok.mp hv, orThrow_ok.mp hd, by simpa using throwIf_ok.mp hc, fun task ht e => ?_, rfl⟩
  exact hany (List.any_eq_true.mpr ⟨task, ht, beq_iff_eq.mpr e⟩)

omit [LocaleOrder] [UrlParser] in
theorem storeParsed_tasks (documentId versionId : Uuid) (content : Text)
    (sections : List KnowledgeReviewSection) (db : Database) :
    (storeParsed documentId versionId content sections db).tasks = db.tasks := by
  unfold storeParsed Database.insertRun
  dsimp only
  split <;> rfl

theorem saveParsedForReview_ok {job : KnowledgeIngestionJob} {parsed : ParsedDocument}
    {db db' : Database} {u : Unit} (h : saveParsedForReview job parsed db = .ok (u, db')) :
    ∃ version document sections,
      (∃ t ∈ db.tasks, holdsLease job t = true) ∧
      db.version job.payload.versionId = some version ∧
      db.document version.documentId = some document ∧
      version.documentId = job.payload.documentId ∧
      document.currentVersionId = some job.payload.versionId ∧
      db' = { storeParsed job.payload.documentId job.payload.versionId
          (renderParsedDocument parsed) sections db with
        tasks := updateWhere (holdsLease job) succeeded db.tasks } := by
  obtain ⟨_, hl, h⟩ := Except.bind_ok_iff.mp h
  obtain ⟨version, hv, h⟩ := Except.bind_ok_iff.mp h
  obtain ⟨document, hd, h⟩ := Except.bind_ok_iff.mp h
  obtain ⟨_, hc, h⟩ := Except.bind_ok_iff.mp h
  obtain ⟨snapshot, _, h⟩ := Except.bind_ok_iff.mp h
  obtain ⟨_, _, h⟩ := Except.bind_ok_iff.mp h
  obtain ⟨db₁, h1, h⟩ := Except.bind_ok_iff.mp h
  cases h
  obtain ⟨_, rfl⟩ := updateLeased_ok h1
  have hl' := throwIf_ok.mp hl
  have hc' := throwIf_ok.mp hc
  simp only [Bool.or_eq_false_iff, bne_eq_false_iff_eq, Bool.not_eq_false'] at hc' hl'
  have hlease := List.any_eq_true.mp hl'
  let sections := buildPageAwareKnowledgeReviewSections
    { versionId := job.payload.versionId
      versionContentHash := Sha256.hex (renderParsedDocument parsed)
      contentZh := renderParsedDocument parsed
      officialText := version.citationMetadata.officialText.getD (renderParsedDocument parsed)
      rightsSnapshot := snapshot
      pages := some (parsedPages parsed) }
  refine ⟨version, document, sections, hlease, orThrow_ok.mp hv, orThrow_ok.mp hd, hc'.1, hc'.2,
    ?_⟩
  rw [storeParsed_tasks]

omit [LocaleOrder] [Sha256] in
theorem saveEmbeddingsAndComplete_ok {job : KnowledgeIngestionJob} {chunkCount : Nat} {now : Int}
    {db db' : Database} {u : Unit}
    (h : saveEmbeddingsAndComplete job chunkCount now db = .ok (u, db')) :
    ∃ review version document,
      job.payload.review = some review ∧ validJobReview review = true ∧
      (∃ t ∈ db.tasks, holdsLease job t = true) ∧
      db.version job.payload.versionId = some version ∧
      version.documentId = job.payload.documentId ∧ version.status = .review ∧
      version.contentHash = some review.contentHash ∧
      db.document job.payload.documentId = some document ∧
      document.currentVersionId = some job.payload.versionId ∧ document.status = .review ∧
      db' = { (((db.replaceChunks job.payload.versionId chunkCount).setVersion
          job.payload.versionId
          (embeddedVersion review (isAutomationPublicationReady job db) now)).setDocument
            job.payload.documentId
            (withStatus (if isAutomationPublicationReady job db then .published else .review)))
          with tasks := updateWhere (holdsLease job) succeeded db.tasks } := by
  obtain ⟨review, hr, h⟩ := Except.bind_ok_iff.mp h
  obtain ⟨_, hl, h⟩ := Except.bind_ok_iff.mp h
  obtain ⟨_, hv, h⟩ := Except.bind_ok_iff.mp h
  obtain ⟨_, hd, h⟩ := Except.bind_ok_iff.mp h
  obtain ⟨db₁, h1, h⟩ := Except.bind_ok_iff.mp h
  cases h
  obtain ⟨_, rfl⟩ := updateLeased_ok h1
  have hr' := Option.filter_eq_some_iff.mp (orThrow_ok.mp hr)
  have hl' := throwIf_ok.mp hl
  have hv' := throwIf_ok.mp hv
  have hd' := throwIf_ok.mp hd
  simp only [Bool.not_eq_false'] at hl' hv' hd'
  obtain ⟨version, hvv, hvc⟩ := (Option.any_eq_true _ _).mp hv'
  obtain ⟨document, hdd, hdc⟩ := (Option.any_eq_true _ _).mp hd'
  simp only [Bool.and_eq_true, beq_iff_eq] at hvc hdc
  exact ⟨review, version, document, hr'.1, hr'.2, List.any_eq_true.mp hl', hvv, hvc.1.1, hvc.1.2,
    hvc.2, hdd, hdc.1, hdc.2, rfl⟩

end Effects

end OpenVac.KnowledgeBase
