/-
  File:      OpenVac/KnowledgeBase/EmbeddingReviews.lean
  Subject:   What the completion of an embedding does to the review of its version.

  * `ReviewLedger` -- the base, and for each version the review last recorded: what the last
    action left that was no completion of an embedding.
  * `Faithful` -- the stored reviews are the recorded ones.
  * `CarriesReview` -- a completion that commits carries the review that is stored.
  * `embedding_keeps_review_iff` -- the reviews of a run are kept just when its completions all
    carry them.
-/
import OpenVac.KnowledgeBase.PairAgreement

namespace OpenVac.KnowledgeBase

open Rows JsString JsUrl

/-! ## 1. The record -/

/-- The review that is stored with a version. -/
def Base.reviewOf (s : Base) (versionId : Uuid) : Option Review :=
  (s.db.version versionId).bind (·.metadata.review)

structure ReviewLedger where
  base : Base
  record : Uuid → Option Review

def ReviewLedger.initial : ReviewLedger := ⟨.initial, fun _ => none⟩

/-- The stored reviews are those last recorded. -/
def ReviewLedger.Faithful (l : ReviewLedger) : Prop :=
  ∀ versionId, l.base.reviewOf versionId = l.record versionId

theorem faithful_initial : ReviewLedger.initial.Faithful := fun _ => rfl

section Records

variable [Sha256] [LocaleOrder] [UrlParser]

/-- Decisions, edits and readings put a review on record, or take it back; the completion of an
    embedding does not. -/
def ReviewLedger.step (l : ReviewLedger) (a : Action) : ReviewLedger :=
  ⟨l.base.step a,
    match a with
    | .saveEmbeddingsAndComplete _ _ => l.record
    | _ => (l.base.step a).reviewOf⟩

def ReviewLedger.after (actions : List Action) : ReviewLedger := Machine.run step .initial actions

/-- The completion of an embedding goes through. -/
def Base.completes (s : Base) (job : KnowledgeIngestionJob) (chunkCount : Nat) : Bool :=
  s.embedding.contains job && decide (0 < chunkCount) &&
    (saveEmbeddingsAndComplete job chunkCount s.now s.db).isOk

/-- What a completion that goes through carries is the review of its version. -/
def CarriesReview (s : Base) : Action → Prop
  | .saveEmbeddingsAndComplete job chunkCount =>
      s.completes job chunkCount = true → s.reviewOf job.payload.versionId = job.payload.review
  | _ => True

instance (s : Base) : (a : Action) → Decidable (CarriesReview s a)
  | .saveEmbeddingsAndComplete _ _ => inferInstanceAs (Decidable (_ → _))
  | .tick _ | .putSource _ | .activatePending _ _ | .createKnowledgeDraft _ _
  | .importKnowledgeCandidate _ _ | .readDraft _ | .updateKnowledgeDraft _ _ _
  | .reviewKnowledgeDocument _ _ _ | .publishKnowledgeDraft _ _ | .archiveKnowledgeDocument _ _
  | .rollbackKnowledgeDocument _ _ _ | .openWorkspace _ | .insertRequiredSections _ | .decide _
  | .writeDecision _ | .completeSections _ | .completeReview _ | .retry _ | .resolve _ _
  | .claim _ _ | .submitResult _ | .requeuePending | .initiateUpload _ | .completeUpload _ _
  | .claimNext _ _ | .renewLease _ | .markOcrSubmitted _ _ _ | .deferOcrPoll _ _
  | .saveParsedForReview _ _ | .loadApprovedContent _ | .markReviewRequired _
  | .markFailed _ _ _ => inferInstanceAs (Decidable True)

/-! ## 2. Completions -/

/-- **A completion stores the review it carries**, and no other version's. -/
theorem reviewOf_completed {s : Base} {job : KnowledgeIngestionJob} {chunkCount : Nat}
    (h : s.completes job chunkCount = true) (versionId : Uuid) :
    (s.step (.saveEmbeddingsAndComplete job chunkCount)).reviewOf versionId =
      if versionId = job.payload.versionId then job.payload.review else s.reviewOf versionId := by
  unfold Base.completes at h
  rw [Bool.and_eq_true] at h
  obtain ⟨hheld, hok⟩ := h
  cases htx : saveEmbeddingsAndComplete job chunkCount s.now s.db with
  | error e =>
    rw [htx] at hok
    nomatch hok
  | ok result =>
    obtain ⟨u, db'⟩ := result
    have hstep : (s.step (.saveEmbeddingsAndComplete job chunkCount)).db = db' := by
      show (ite _ _ _ : Base).db = db'
      rw [if_pos hheld]
      show Machine.commit s.db (saveEmbeddingsAndComplete job chunkCount s.now s.db) = db'
      rw [htx]
      rfl
    obtain ⟨review, version, _, hreview, -, -, hversion, -, -, -, -, -, -, rfl⟩ :=
      saveEmbeddingsAndComplete_ok htx
    have hid : version.id = job.payload.versionId := by simpa using List.find?_some hversion
    unfold Base.reviewOf
    rw [hstep]
    have hrow : ∀ id, Database.version { (((s.db.replaceChunks job.payload.versionId
        chunkCount).setVersion job.payload.versionId (embeddedVersion review
          (isAutomationPublicationReady job s.db) s.now)).setDocument job.payload.documentId
            (withStatus (if isAutomationPublicationReady job s.db then .published else .review)))
        with tasks := updateWhere (holdsLease job) succeeded s.db.tasks } id =
          (s.db.version id).map fun v => if v.id == job.payload.versionId then
            embeddedVersion review (isAutomationPublicationReady job s.db) s.now v else v :=
      fun id => find?_updateWhere_stable (q := fun v : KnowledgeVersion => v.id == id)
        (f := embeddedVersion review (isAutomationPublicationReady job s.db) s.now)
        (fun _ => rfl) _
    rw [hrow]
    by_cases heq : versionId = job.payload.versionId
    · rw [if_pos heq, heq, hversion, Option.map_some, if_pos (beq_iff_eq.mpr hid),
        Option.bind_some, hreview]
      rfl
    · rw [if_neg heq]
      cases hother : s.db.version versionId with
      | none => rfl
      | some other =>
        have hotherId : other.id = versionId := by simpa using List.find?_some hother
        rw [Option.map_some, if_neg (by rw [beq_iff_eq, hotherId]; exact heq)]

/-- A completion that fails leaves the tables as they were. -/
theorem reviewOf_failed {s : Base} {job : KnowledgeIngestionJob} {chunkCount : Nat}
    (h : ¬ s.completes job chunkCount = true) (versionId : Uuid) :
    (s.step (.saveEmbeddingsAndComplete job chunkCount)).reviewOf versionId =
      s.reviewOf versionId := by
  have hstep : (s.step (.saveEmbeddingsAndComplete job chunkCount)).db = s.db := by
    show (ite _ _ _ : Base).db = s.db
    unfold Base.completes at h
    rw [Bool.and_eq_true] at h
    by_cases hheld : (s.embedding.contains job && decide (0 < chunkCount)) = true
    · rw [if_pos hheld]
      show Machine.commit s.db (saveEmbeddingsAndComplete job chunkCount s.now s.db) = s.db
      cases htx : saveEmbeddingsAndComplete job chunkCount s.now s.db with
      | error e => rfl
      | ok result => exact absurd ⟨hheld, by rw [htx]; rfl⟩ h
    · rw [if_neg hheld]
  unfold Base.reviewOf
  rw [hstep]

/-! ## 3. Runs -/

/-- **One step**: from a faithful ledger to a faithful one just when the step carries the review. -/
theorem faithful_step_iff {l : ReviewLedger} (h : l.Faithful) (a : Action) :
    (l.step a).Faithful ↔ CarriesReview l.base a := by
  cases a with
  | saveEmbeddingsAndComplete job chunkCount =>
    show (∀ versionId, (l.base.step _).reviewOf versionId = l.record versionId) ↔ (_ → _)
    by_cases hdone : l.base.completes job chunkCount = true
    · constructor
      · intro hall _
        have hself := hall job.payload.versionId
        rw [reviewOf_completed hdone, if_pos rfl, ← h job.payload.versionId] at hself
        exact hself.symm
      · intro hcarries versionId
        rw [reviewOf_completed hdone]
        split
        · next heq => rw [heq, ← h job.payload.versionId, hcarries hdone]
        · exact h versionId
    · constructor
      · exact fun _ hyes => absurd hyes hdone
      · intro _ versionId
        rw [reviewOf_failed hdone]
        exact h versionId
  | _ => exact iff_of_true (fun _ => rfl) trivial

/-- The rule for the states a run passes. -/
theorem faithful_run_iff {l : ReviewLedger} (h : l.Faithful) (actions : List Action) :
    (∀ before, before <+: actions → (Machine.run ReviewLedger.step l before).Faithful) ↔
      Machine.Along ReviewLedger.step (fun l a => CarriesReview l.base a) l actions := by
  induction actions generalizing l with
  | nil =>
    constructor
    · exact fun _ => trivial
    · intro _ before hbefore
      rw [List.prefix_nil.mp hbefore]
      exact h
  | cons a rest ih =>
    show _ ↔ CarriesReview l.base a ∧ Machine.Along ReviewLedger.step _ (l.step a) rest
    constructor
    · intro hall
      have hnext : (l.step a).Faithful := hall [a] ⟨rest, rfl⟩
      refine ⟨(faithful_step_iff h a).mp hnext, (ih hnext).mp fun before hbefore => ?_⟩
      exact hall (a :: before) (List.cons_prefix_cons.mpr ⟨rfl, hbefore⟩)
    · rintro ⟨hcarries, hmore⟩ before hbefore
      have hnext := (faithful_step_iff h a).mpr hcarries
      cases before with
      | nil => exact h
      | cons b before =>
        obtain ⟨rfl, hrest⟩ := List.cons_prefix_cons.mp hbefore
        exact (ih hnext).mpr hmore before hrest

/-- **Embeddings keep the review of their version**, in every state of a run, just when each
    completion that goes through carries the review that is stored then. -/
theorem embedding_keeps_review_iff (actions : List Action) :
    (∀ before, before <+: actions → (ReviewLedger.after before).Faithful) ↔
      Machine.Along ReviewLedger.step (fun l a => CarriesReview l.base a) .initial actions :=
  faithful_run_iff faithful_initial actions

end Records

/-! ## 4. A review that is superseded -/

def approval (reviewedBy : UserId) (reviewedAt : Int) : Review :=
  { status := .approved
    reviewedBy := .user reviewedBy
    reviewedAt := reviewedAt
    contentHash := lengthDigest "a".toList }

def embeddingJob : KnowledgeIngestionJob :=
  let payload : KnowledgeIngestionPayload :=
    { stage := .embedding_pending
      documentId := 0
      versionId := 1
      review := some (approval 2 0) }
  ⟨2, "w".toList, 3, payload, 1, 3⟩

/-- A draft is approved twice before its embedding is completed. -/
def approvedTwice : List Action :=
  [.putSource ownSource,
    .createKnowledgeDraft
      ⟨some 100, .full_text, "a".toList, ⟨some .full_text, none, none, none, none⟩⟩ 1,
    .reviewKnowledgeDocument 0 ⟨1, lengthDigest "a".toList, true, none⟩ 2,
    .claimNext 2 "w".toList,
    .loadApprovedContent embeddingJob,
    .tick 60000,
    .reviewKnowledgeDocument 0 ⟨1, lengthDigest "a".toList, true, none⟩ 3,
    .saveEmbeddingsAndComplete embeddingJob 1]

/-- **The earlier approval comes back** with the embedding that it had queued. -/
theorem superseded_review_restored :
    ¬ ∀ [Sha256] [LocaleOrder] [UrlParser] (actions : List Action),
      (ReviewLedger.after actions).Faithful := by
  intro hclaim
  let _ : Sha256 := ⟨lengthDigest⟩
  let _ : LocaleOrder := ⟨fun _ _ => true⟩
  let _ : UrlParser := ⟨httpsUrl⟩
  have hkept := hclaim approvedTwice 1
  have hstored : (ReviewLedger.after approvedTwice).base.reviewOf 1 = some (approval 2 0) := by
    decide +kernel
  have hrecord : (ReviewLedger.after approvedTwice).record 1 = some (approval 3 60000) := by
    decide +kernel
  rw [hstored, hrecord] at hkept
  exact absurd hkept (by decide)

end OpenVac.KnowledgeBase
