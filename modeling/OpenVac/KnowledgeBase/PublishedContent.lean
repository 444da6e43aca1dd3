/-
  File:      OpenVac/KnowledgeBase/PublishedContent.lean
  Subject:   Published content integrity.

  * `Sound v` -- the hash of a version is that of its content, an approved version carries an
    approval of that hash, and a published version is approved or was activated before its
    review.
  * `sound_step`, `sound_after` -- every version of every reachable state.
  * `Unread`, `unread_after` -- the task that reads an original works on a version that has no
    text yet; so no worker writes into a published version.
  * `text_step` -- what a step can change of a version's content.
-/
import OpenVac.KnowledgeBase.Tasks

namespace OpenVac.KnowledgeBase

open Rows JsString JsUrl

/-! ## 1. Sound versions -/

/-- The review of a version approves the content with the version's hash. -/
def ApprovedReview (v : KnowledgeVersion) : Prop :=
  v.metadata.reviewStatus = some .approved ∧
    ∃ review, v.metadata.review = some review ∧ review.status = .approved ∧
      v.contentHash = some review.contentHash

/-- The version was activated before its review, for the content with the version's hash. -/
def ActivatedPendingReview (v : KnowledgeVersion) : Prop :=
  v.metadata.reviewStatus = some .required ∧
    v.metadata.retrievalStatus = some .active_pending_review ∧
    ∃ h, v.contentHash = some h ∧ v.metadata.retrievalContentHash = some h

structure Sound [Sha256] (v : KnowledgeVersion) : Prop where
  hash : ∀ h, v.contentHash = some h → h = Sha256.hex v.content
  /-- A version without a text waits for one, or is archived. -/
  untexted : v.contentHash = none → v.status = .processing ∨ v.status = .archived
  approved : v.metadata.reviewStatus = some .approved → ApprovedReview v
  published : v.status = .published → ApprovedReview v ∨ ActivatedPendingReview v

/-- An update of one version keeps what holds of all, if it holds of the updated version. -/
theorem forall_setVersion {P : KnowledgeVersion → Prop} {versions : List KnowledgeVersion}
    (hu : UniqueOn (·.id) versions) (h : ∀ v ∈ versions, P v) {version : KnowledgeVersion}
    (hm : version ∈ versions) {id : Uuid} (hid : version.id = id)
    {f : KnowledgeVersion → KnowledgeVersion} (hf : P (f version)) :
    ∀ v ∈ updateWhere (fun v => v.id == id) f versions, P v := by
  intro v hv
  obtain ⟨v₀, hm₀, rfl⟩ := mem_updateWhere.mp hv
  split
  · next he =>
      rw [hu.eq hm₀ hm ((beq_iff_eq.mp he).trans hid.symm)]
      exact hf
  · exact h v₀ hm₀

theorem forall_updateWhere {P : KnowledgeVersion → Prop} {versions : List KnowledgeVersion}
    {p : KnowledgeVersion → Bool} {f : KnowledgeVersion → KnowledgeVersion}
    (h : ∀ v ∈ versions, P v) (hf : ∀ v, P v → P (f v)) : ∀ v ∈ updateWhere p f versions, P v := by
  intro v hv
  obtain ⟨v₀, hm₀, rfl⟩ := mem_updateWhere.mp hv
  split
  · exact hf v₀ (h v₀ hm₀)
  · exact h v₀ hm₀

theorem forall_append_one {P : KnowledgeVersion → Prop} {versions : List KnowledgeVersion}
    (h : ∀ v ∈ versions, P v) {v : KnowledgeVersion} (hv : P v) : ∀ w ∈ versions ++ [v], P w := by
  intro w hw
  rcases List.mem_append.mp hw with hw | hw
  · exact h w hw
  · rw [List.mem_singleton.mp hw]
    exact hv

namespace Sound

section Moves

variable [Sha256] {v : KnowledgeVersion}

/-- A version whose review is still required and that is not published. -/
theorem of_required (hh : v.contentHash = some (Sha256.hex v.content))
    (hr : v.metadata.reviewStatus = some .required) (hs : v.status ≠ .published) : Sound v where
  hash h e := by
    rw [hh] at e
    exact (Option.some.inj e).symm
  untexted e := by
    rw [hh] at e
    cases e
  approved e := by
    rw [hr] at e
    cases e
  published e := absurd e hs

/-- A version with a review of its content. -/
theorem of_review {review : Review} {h : Text} (hash : ∀ h, v.contentHash = some h →
      h = Sha256.hex v.content) (hh : v.contentHash = some h)
    (hr : v.metadata.reviewStatus = some .approved) (hm : v.metadata.review = some review)
    (hs : review.status = .approved) (hc : review.contentHash = h) : Sound v where
  hash := hash
  untexted e := by
    rw [hh] at e
    cases e
  approved _ := ⟨hr, review, hm, hs, by rw [hc, hh]⟩
  published _ := Or.inl ⟨hr, review, hm, hs, by rw [hc, hh]⟩

/-- Another status than `published`. -/
theorem withStatus (h : Sound v) {status : KnowledgeStatus} (hs : status ≠ .published)
    (hu : v.contentHash = none → status = .processing ∨ status = .archived) :
    Sound { v with status := status } :=
  ⟨h.hash, hu, h.approved, fun e => absurd e hs⟩

/-- An approved version under another status, as another row. -/
theorem republished (h : Sound v) (hr : v.metadata.reviewStatus = some .approved)
    {w : KnowledgeVersion} (hc : w.content = v.content) (hh : w.contentHash = v.contentHash)
    (hm : w.metadata = v.metadata) : Sound w := by
  obtain ⟨hr, review, hrev, hs, he⟩ := h.approved hr
  refine of_review (fun c e => ?_) (hh.trans he) (hm ▸ hr) (hm ▸ hrev) hs rfl
  rw [hc]
  exact h.hash c (hh ▸ e)

theorem archived (h : Sound v) : Sound (archivedVersion v) :=
  h.withStatus (by decide) fun _ => Or.inr rfl

theorem texted (h : Sound v) (hs : v.status ≠ .processing) (hs' : v.status ≠ .archived) :
    v.contentHash = some (Sha256.hex v.content) := by
  cases hc : v.contentHash with
  | none => exact absurd (h.untexted hc) (fun e => e.elim hs hs')
  | some c => rw [h.hash c hc]

theorem texted_of_editable (h : Sound v) (hs : editable v.status = true) :
    v.contentHash = some (Sha256.hex v.content) := by
  refine h.texted (fun e => ?_) fun e => ?_
  · rw [e] at hs
    cases hs
  · rw [e] at hs
    cases hs

/-- **Activation** keeps an approval of the content, or says that the review is still due. -/
theorem activated (h : Sound v) (hh : v.contentHash = some (Sha256.hex v.content))
    (chunkCount : Nat) (now : Int) :
    Sound (activatedVersion (Sha256.hex v.content) chunkCount now v) := by
  by_cases hap : (v.metadata.reviewStatus == some .approved &&
      v.metadata.review.any fun r =>
        r.status == .approved && r.contentHash == Sha256.hex v.content) = true
  · have hboth := hap
    simp only [Bool.and_eq_true, beq_iff_eq] at hboth
    obtain ⟨_, review, hrev, hs, hc⟩ := h.approved hboth.1
    have hr : (activatedVersion (Sha256.hex v.content) chunkCount now v).metadata.reviewStatus =
        some .approved := by
      unfold activatedVersion buildPendingReviewActivationMetadata
      simp only [hap, if_true]
    rw [hh] at hc
    exact of_review h.hash hh hr hrev hs (Option.some.inj hc).symm
  · have hr : (activatedVersion (Sha256.hex v.content) chunkCount now v).metadata.reviewStatus =
        some .required := by
      unfold activatedVersion buildPendingReviewActivationMetadata
      simp only [hap, Bool.false_eq_true, if_false]
    have ha : (activatedVersion (Sha256.hex v.content) chunkCount now v).metadata.retrievalStatus =
        some .active_pending_review := by
      unfold activatedVersion buildPendingReviewActivationMetadata
      simp only [hap, Bool.false_eq_true, if_false]
    refine ⟨h.hash, fun e => ?_, fun e => ?_, fun _ => Or.inr ⟨hr, ha, _, hh, rfl⟩⟩
    · exact absurd (hh.symm.trans e) (Option.some_ne_none _)
    · rw [hr] at e
      cases e

end Moves

section Operations

variable [Sha256Digest] {v : KnowledgeVersion}

/-- **An update of a draft** keeps the review only where content and evidence stay. -/
theorem updated (h : Sound v) (hs : editable v.status = true) (document : KnowledgeDocument)
    (input : KnowledgeDraftUpdate) : Sound (updatedVersion document input v) := by
  have hhash := h.texted_of_editable hs
  have hprev : previousContentHash v = Sha256.hex v.content := by
    unfold previousContentHash
    rw [hhash]
    rfl
  have hnext : nextContentHash input v = Sha256.hex (input.content.getD v.content) := by
    unfold nextContentHash
    cases hc : input.content with
    | none => exact hprev
    | some content => rfl
  have hnew : (updatedVersion document input v).contentHash =
      some (Sha256.hex (input.content.getD v.content)) := by
    unfold updatedVersion
    dsimp only
    split
    · rw [hnext]
    · next hn =>
        have hnone : input.content = none := by simpa using hn
        rw [hhash, hnone]
        rfl
  have hstatus : (updatedVersion document input v).status ≠ .published := by
    unfold updatedVersion
    dsimp only
    split
    · decide
    · intro e
      rw [e] at hs
      cases hs
  by_cases hinv : reviewInvalidated document input v = true
  · refine of_required hnew ?_ hstatus
    unfold updatedVersion
    dsimp only
    split
    · rfl
    · next he =>
        have ht : (hashTransition input v).1 = true := by
          simpa [reviewInvalidated, he] using hinv
        rw [if_pos ht]
        unfold hashTransition invalidateKnowledgeReviewAfterHashChange at ht ⊢
        split at ht
        · cases ht
        · next hne =>
            rw [if_neg hne]
            rfl
  · simp only [reviewInvalidated, Bool.not_eq_true, Bool.or_eq_false_iff] at hinv
    -- neither hash nor evidence changed: the metadata stay, and so does the hash
    have hmeta : (updatedVersion document input v).metadata = v.metadata := by
      unfold updatedVersion
      dsimp only
      rw [hinv.1, hinv.2]
      rfl
    have hsame : nextContentHash input v = previousContentHash v := by
      have h1 := hinv.1
      unfold hashTransition invalidateKnowledgeReviewAfterHashChange at h1
      rw [hprev, hnext] at h1 ⊢
      simp only [lowerAscii_hex] at h1
      split at h1
      · next e => exact e.symm
      · cases h1
    have hkept : (updatedVersion document input v).contentHash = v.contentHash := by
      rw [hnew, hhash, ← hnext, hsame, hprev]
    refine ⟨fun c hc => ?_, fun e => ?_, fun e => ?_, fun e => absurd e hstatus⟩
    · rw [hnew] at hc
      exact (Option.some.inj hc).symm
    · rw [hnew] at e
      cases e
    · rw [hmeta] at e
      obtain ⟨h1, review, h2, h3, h4⟩ := h.approved e
      exact ⟨hmeta ▸ h1, review, hmeta ▸ h2, h3, hkept.trans h4⟩

theorem reviewed {target : ReviewTransitionInput} {input : KnowledgeReviewInput}
    {transition : KnowledgeReviewTransition} {pending preserve : Bool}
    (hb : buildKnowledgeReviewTransition target input = .ok transition)
    (hc : target.content = v.content) :
    Sound (reviewedVersion input.approved pending preserve transition v) := by
  obtain ⟨hhash, hreview, hstatus, _, hcase⟩ := transition_task hb
  have hnew : (reviewedVersion input.approved pending preserve transition v).contentHash =
      some (Sha256.hex v.content) := by
    show some transition.contentHash = _
    rw [hhash, hc]
    rfl
  cases hap : input.approved with
  | true =>
    rw [hap] at hstatus hnew
    refine of_review (fun c e => ?_) hnew rfl rfl hstatus ?_
    · rw [hnew] at e
      exact (Option.some.inj e).symm
    · rw [hreview, hhash, hc]
      rfl
  | false =>
    rw [hap] at hnew
    obtain ⟨_, _, hvs, _⟩ | ⟨hno, _⟩ := hcase
    · have hrejected : (reviewedVersion false pending preserve transition v).status ≠ .published := by
        show (if pending then settledStatus false else transition.versionStatus) ≠ _
        rw [hvs]
        cases pending <;> decide
      refine ⟨fun c e => ?_, fun e => ?_, fun e => ?_, fun e => absurd e hrejected⟩
      · rw [hnew] at e
        exact (Option.some.inj e).symm
      · rw [hnew] at e
        cases e
      · cases e
    · rw [hap] at hno
      cases hno

end Operations

end Sound

/-! ## 2. Every step keeps versions sound -/

theorem reviewStatus_of_reviewed [Sha256] {input : KnowledgePublicationGateInput} {now : Int}
    {u : Unit} (h : assertReviewedKnowledgeEvidence input now = .ok u) :
    input.metadata.reviewStatus = some .approved := by
  obtain ⟨_, h1, _⟩ := Except.bind_ok_iff.mp h
  simpa using throwIf_ok.mp h1

theorem reviewStatus_of_publishable [Sha256] [LocaleOrder] [UrlParser]
    {document : KnowledgeDocument} {version : KnowledgeVersion} {now : Int} {db : Database}
    {u : Unit} (h : assertPublishable document version now db = .ok u) :
    version.metadata.reviewStatus = some .approved := by
  obtain ⟨_, h1, _⟩ := Except.bind_ok_iff.mp h
  obtain ⟨_, _, h2⟩ := Except.bind_ok_iff.mp h1
  exact reviewStatus_of_reviewed h2

theorem status_of_validJobReview {review : Review} (h : validJobReview review = true) :
    review.status = .approved := by
  simp only [validJobReview, Bool.and_eq_true, beq_iff_eq] at h
  exact h.1

section Steps

variable [Sha256Digest] [LocaleOrder] [UrlParser]

/-- **One step keeps every version sound.** -/
theorem sound_step {s : Base} (hk : Known s.db) (h : ∀ v ∈ s.db.versions, Sound v)
    (a : Action) : ∀ v ∈ (s.step a).db.versions, Sound v := by
  cases step_effect hk.fresh a with
  | quiet _ _ effect => exact effect.versions ▸ h
  | activatePending _ _ mem hash effect =>
    rw [effect.versions]
    exact forall_setVersion hk.versions h mem rfl ((h _ mem).activated hash _ _)
  | createKnowledgeDraft effect =>
    rw [effect.versions]
    exact forall_append_one h (.of_required rfl rfl fun e => nomatch e)
  | importKnowledgeCandidate _ effect =>
    rw [effect.versions]
    exact forall_append_one h (.of_required rfl rfl fun e => nomatch e)
  | updateKnowledgeDraft _ _ _ mem _ versionStatus effect =>
    rw [effect.versions]
    exact forall_setVersion hk.versions h mem rfl ((h _ mem).updated versionStatus _ _)
  | reviewKnowledgeDocument _ _ _ mem _ _ built _ effect =>
    rw [effect.versions, (queueReviewTask_rest ..).1]
    exact forall_setVersion hk.versions h mem rfl (Sound.reviewed built rfl)
  | publishKnowledgeDraft _ _ mem publishable _ _ effect =>
    rw [effect.versions]
    refine forall_setVersion hk.versions h mem rfl ?_
    exact (h _ mem).republished (reviewStatus_of_publishable publishable) rfl rfl rfl
  | archiveKnowledgeDocument _ effect =>
    rw [effect.versions]
    split
    · exact forall_updateWhere h fun v hv => hv.archived
    · exact h
  | rollbackKnowledgeDocument _ _ _ mem _ reviewed effect =>
    rw [effect.versions]
    refine forall_append_one (forall_updateWhere h fun v hv => hv.archived) ?_
    exact (h _ mem).republished (reviewStatus_of_reviewed reviewed) rfl rfl rfl
  | completeReview _ mem hid _ hash _ _ effect =>
    rw [effect.versions, (completeReview_rest ..).1]
    exact forall_setVersion hk.versions h mem hid
      (.of_review (h _ mem).hash hash rfl rfl rfl rfl)
  | archive _ loaded effect =>
    rw [effect.versions]
    have hm := (loadCurrentTarget_ok loaded).2.2.1
    exact forall_setVersion hk.versions h hm rfl (h _ hm).archived
  | manual_approve_with_note _ _ found _ version hash effect =>
    rw [effect.versions, (approveWithNote_rest ..).1]
    obtain ⟨_, _, hm, hh, _⟩ := loadCurrentTarget_ok found
    rw [← version] at hm hh
    exact forall_setVersion hk.versions h hm rfl
      (.of_review (h _ hm).hash hh rfl rfl rfl hash)
  | manual_edit_and_retry _ _ _ _ _ _ effect =>
    rw [effect.versions]
    exact forall_append_one h (.of_required rfl rfl fun e => nomatch e)
  | revised _ _ _ _ _ effect =>
    rw [effect.versions]
    exact forall_append_one h (.of_required rfl rfl fun e => nomatch e)
  | needsHuman _ leased effect =>
    rw [effect.versions]
    have target := leasedTarget_ok leased
    refine forall_setVersion hk.versions h target.mem rfl (.of_required ?_ rfl fun e => nomatch e)
    have hh := target.hash
    rw [(h _ target.mem).hash _ hh] at hh
    exact hh
  | verified _ _ _ leased _ effect =>
    rw [effect.versions, (publishVerified_rest ..).1]
    have target := leasedTarget_ok leased
    have hh := target.hash
    rw [target.contentHash] at hh
    exact forall_setVersion hk.versions h target.mem rfl
      (.of_review (h _ target.mem).hash hh rfl rfl rfl rfl)
  | initiateUpload _ effect =>
    rw [effect.versions]
    refine forall_append_one h ⟨fun _ e => (nomatch e), fun _ => Or.inl rfl,
      fun e => (nomatch e), fun e => (nomatch e)⟩
  | completeUpload _ _ mem hid _ _ _ effect =>
    rw [effect.versions]
    show ∀ v ∈ updateWhere _ _ (Database.queueTask _ _ _ _).versions, Sound v
    rw [versions_queueTask]
    exact forall_setVersion hk.versions h mem hid
      ((h _ mem).withStatus (by decide) fun _ => Or.inl rfl)
  | claimNext _ _ _ effect => exact effect.versions ▸ h
  | leasedUpdate _ _ effect => exact effect.versions ▸ h
  | saveParsedForReview _ _ _ mem hid _ _ _ effect =>
    rw [effect.versions]
    exact forall_setVersion hk.versions h mem hid (.of_required rfl rfl fun e => nomatch e)
  | saveEmbeddingsAndComplete _ _ _ valid _ mem hid _ _ hash _ _ _ effect =>
    rw [effect.versions]
    exact forall_setVersion hk.versions h mem hid
      (.of_review (h _ mem).hash hash rfl rfl (status_of_validJobReview valid) rfl)

/-- **Every version of every reachable state is sound.** -/
theorem sound_after (actions : List Action) : ∀ v ∈ (Base.after actions).db.versions, Sound v := by
  have hboth : Known (Base.after actions).db ∧ ∀ v ∈ (Base.after actions).db.versions, Sound v :=
    @Machine.run_invariant _ _ _ (fun s : Base => Known s.db ∧ ∀ v ∈ s.db.versions, Sound v) _
      ⟨known_after [], fun _ hv => absurd hv List.not_mem_nil⟩
      (fun s a h => ⟨known_step h.1 a, sound_step h.1 h.2 a⟩) actions
  exact hboth.2

/-! ## 3. Who writes the text of a version -/

/-- The text and the hash of a version stay. -/
def SameText (v v' : KnowledgeVersion) : Prop :=
  v'.content = v.content ∧ v'.contentHash = v.contentHash

/-- The worker that holds a task saves the text of an original. -/
structure Reads (s : Base) (a : Action) (versionId : Uuid) : Prop where
  job : ∃ job ∈ s.jobs, job.payload.stage = .ocr_processing ∧ job.payload.versionId = versionId ∧
    (∃ t ∈ s.db.tasks, holdsLease job t = true) ∧
    (s.step a).db.tasks = updateWhere (holdsLease job) succeeded s.db.tasks

/-- Where a version's text comes from: the version is new, or it was there before. -/
def TextFrom (s : Base) (a : Action) (v' : KnowledgeVersion) : Prop :=
  s.db.nextId ≤ v'.id ∨ ∃ v ∈ s.db.versions, v'.id = v.id ∧
    (SameText v v' ∨ editable v.status = true ∨ Reads s a v.id)

section TextFrom

variable {s : Base} {a : Action}

theorem TextFrom.same : ∀ v' ∈ s.db.versions, TextFrom s a v' :=
  fun v' hv' => Or.inr ⟨v', hv', rfl, Or.inl ⟨rfl, rfl⟩⟩

theorem TextFrom.of_updateWhere {p : KnowledgeVersion → Bool}
    {f : KnowledgeVersion → KnowledgeVersion} {versions : List KnowledgeVersion}
    (e : versions = updateWhere p f s.db.versions) (hid : ∀ v, (f v).id = v.id)
    (hf : ∀ v ∈ s.db.versions, p v = true →
      SameText v (f v) ∨ editable v.status = true ∨ Reads s a v.id) :
    ∀ v' ∈ versions, TextFrom s a v' := by
  intro v' hv'
  rw [e] at hv'
  obtain ⟨v, hv, rfl⟩ := mem_updateWhere.mp hv'
  refine Or.inr ⟨v, hv, ?_⟩
  split
  · next hp => exact ⟨hid v, hf v hv hp⟩
  · exact ⟨rfl, Or.inl ⟨rfl, rfl⟩⟩

theorem TextFrom.of_append {versions versions' : List KnowledgeVersion} {w : KnowledgeVersion}
    (e : versions = versions' ++ [w]) (h : ∀ v' ∈ versions', TextFrom s a v')
    (hw : s.db.nextId ≤ w.id) : ∀ v' ∈ versions, TextFrom s a v' := by
  intro v' hv'
  rw [e] at hv'
  rcases List.mem_append.mp hv' with hv' | hv'
  · exact h v' hv'
  · rw [List.mem_singleton.mp hv']
    exact Or.inl hw

end TextFrom

/-- **What can change the text of a version**: the update of a draft, and the worker that reads
    an original. -/
theorem text_step {s : Base} (hk : Known s.db) (hs : ∀ v ∈ s.db.versions, Sound v) (a : Action) :
    ∀ v' ∈ (s.step a).db.versions, TextFrom s a v' := by
  cases step_effect hk.fresh a with
  | quiet _ _ effect => exact effect.versions ▸ .same
  | activatePending _ _ _ _ effect =>
    exact .of_updateWhere effect.versions (fun _ => rfl) fun _ _ _ => Or.inl ⟨rfl, rfl⟩
  | createKnowledgeDraft effect =>
    exact .of_append effect.versions .same (Nat.le_succ _)
  | importKnowledgeCandidate _ effect =>
    exact .of_append effect.versions .same (Nat.le_succ _)
  | updateKnowledgeDraft _ _ _ mem _ versionStatus effect =>
    refine .of_updateWhere effect.versions (fun _ => rfl) fun v hv he => Or.inr (Or.inl ?_)
    rw [hk.version_eq hv mem (beq_iff_eq.mp he)]
    exact versionStatus
  | reviewKnowledgeDocument _ _ _ mem _ _ built _ effect =>
    refine .of_updateWhere (effect.versions.trans (queueReviewTask_rest ..).1) (fun _ => rfl)
      fun v hv he => Or.inl ⟨rfl, ?_⟩
    obtain rfl := hk.version_eq hv mem (beq_iff_eq.mp he)
    -- the reviewer saw the stored hash, which is that of the content
    obtain ⟨_, hchecked, _⟩ := Except.bind_ok_iff.mp built
    have hstored := throwIf_ok.mp hchecked
    simp only [Bool.or_eq_false_iff, bne_eq_false_iff_eq] at hstored
    obtain ⟨c, hc, _⟩ := Option.map_eq_some_iff.mp hstored.1.2
    show some _ = v.contentHash
    rw [(transition_task built).1]
    exact (hc.trans (congrArg some ((hs v hv).hash c hc))).symm
  | publishKnowledgeDraft _ _ _ _ _ _ effect =>
    exact .of_updateWhere effect.versions (fun _ => rfl) fun _ _ _ => Or.inl ⟨rfl, rfl⟩
  | archiveKnowledgeDocument _ effect =>
    have e := effect.versions
    split at e
    · exact .of_updateWhere e (fun _ => rfl) fun _ _ _ => Or.inl ⟨rfl, rfl⟩
    · exact e ▸ .same
  | rollbackKnowledgeDocument _ _ _ _ _ _ effect =>
    refine .of_append effect.versions (.of_updateWhere rfl (fun _ => rfl) ?_) (Nat.le_refl _)
    exact fun _ _ _ => Or.inl ⟨rfl, rfl⟩
  | completeReview _ _ _ _ _ _ _ effect =>
    exact .of_updateWhere (effect.versions.trans (completeReview_rest ..).1) (fun _ => rfl)
      fun _ _ _ => Or.inl ⟨rfl, rfl⟩
  | archive _ _ effect =>
    exact .of_updateWhere effect.versions (fun _ => rfl) fun _ _ _ => Or.inl ⟨rfl, rfl⟩
  | manual_approve_with_note _ _ _ _ _ _ effect =>
    exact .of_updateWhere (effect.versions.trans (approveWithNote_rest ..).1) (fun _ => rfl)
      fun _ _ _ => Or.inl ⟨rfl, rfl⟩
  | manual_edit_and_retry _ _ _ _ _ _ effect =>
    exact .of_append effect.versions .same (Nat.le_refl _)
  | revised _ _ _ _ _ effect =>
    exact .of_append effect.versions .same (Nat.le_refl _)
  | needsHuman _ _ effect =>
    exact .of_updateWhere effect.versions (fun _ => rfl) fun _ _ _ => Or.inl ⟨rfl, rfl⟩
  | verified _ _ _ _ _ effect =>
    exact .of_updateWhere (effect.versions.trans (publishVerified_rest ..).1) (fun _ => rfl)
      fun _ _ _ => Or.inl ⟨rfl, rfl⟩
  | initiateUpload _ effect =>
    exact .of_append effect.versions .same (Nat.le_succ _)
  | completeUpload _ _ _ _ _ _ _ effect =>
    have e := effect.versions
    change _ = updateWhere _ _ (Database.queueTask _ _ _ _).versions at e
    rw [versions_queueTask] at e
    exact .of_updateWhere e (fun _ => rfl) fun _ _ _ => Or.inl ⟨rfl, rfl⟩
  | claimNext _ _ _ effect => exact effect.versions ▸ .same
  | leasedUpdate _ _ effect => exact effect.versions ▸ .same
  | @saveParsedForReview job _ _ _ held stage lease _ _ _ _ _ effect =>
    refine .of_updateWhere effect.versions (fun _ => rfl) fun v hv he => Or.inr (Or.inr ?_)
    exact ⟨job, held, stage, (beq_iff_eq.mp he).symm, lease, effect.tasks⟩
  | saveEmbeddingsAndComplete _ _ _ _ _ _ _ _ _ _ _ _ _ effect =>
    exact .of_updateWhere effect.versions (fun _ => rfl) fun _ _ _ => Or.inl ⟨rfl, rfl⟩

/-! ## 4. Originals that are still to be read -/

/-- Whether a task is still to be done. -/
def TaskStatus.open_ (status : TaskStatus) : Prop := status = .queued ∨ status = .running

/-- An original whose task has not ended has left its version without a text. -/
def Unread (db : Database) : Prop :=
  ∀ o ∈ db.originals,
    (∀ t ∈ db.tasks, t.idempotencyKey = .ingestion o.versionId o.sha256 → t.status.open_) →
    ∀ v ∈ db.versions, v.id = o.versionId → v.contentHash = none

/-- A task that is to be done after a step was to be done before it. -/
theorem open_before {s : Base} (hk : Known s.db) (a : Action) {key : TaskKey}
    (h : ∀ t ∈ (s.step a).db.tasks, t.idempotencyKey = key → t.status.open_) :
    ∀ t ∈ s.db.tasks, t.idempotencyKey = key → t.status.open_ := by
  intro t ht hkey
  cases task_effect hk a with
  | same effect => exact h t (effect ▸ ht) hkey
  | queued _ _ _ _ effect =>
    rw [effect] at h
    exact h t (List.mem_append_left _ ht) hkey
  | @claimed _ workerId task mem _ claimable effect =>
    by_cases hid : (t.id == task.id) = true
    · rw [hk.tasks.eq ht mem (beq_iff_eq.mp hid)]
      simp only [taskClaimable, Bool.or_eq_true, Bool.and_eq_true, beq_iff_eq] at claimable
      exact claimable.imp And.left And.left
    · rw [effect] at h
      have hm := mem_updateWhere_of_mem (p := fun t => t.id == task.id)
        (f := leasedTask workerId s.db.nextId s.now) ht
      rw [if_neg hid] at hm
      exact h t hm hkey
  | @held _ job f _ _ effect =>
    by_cases hl : holdsLease job t = true
    · exact Or.inr (holdsLease_iff.mp hl).2.1
    · rw [effect] at h
      have hm := mem_updateWhere_of_mem (p := holdsLease job) (f := f) ht
      rw [if_neg hl] at hm
      exact h t hm hkey

/-- The saved task of an original has ended. -/
theorem ended_of_reads {s : Base} (hc : Consistent s) {a : Action} {o : KnowledgeOriginal}
    (ho : o ∈ s.db.originals) (hr : Reads s a o.versionId) :
    ∃ t ∈ (s.step a).db.tasks, t.idempotencyKey = .ingestion o.versionId o.sha256 ∧
      ¬t.status.open_ := by
  obtain ⟨job, hj, hstage, hversion, ⟨t, ht, hl⟩, htasks⟩ := hr.job
  have hpayload := (hc.payload job hj t ht hl).1
  have habout := hc.about t ht
  rw [← hpayload] at habout
  have hm : succeeded t ∈ (s.step a).db.tasks := by
    have hm := mem_updateWhere_of_mem (p := holdsLease job) (f := succeeded) ht
    rw [if_pos hl] at hm
    rw [htasks]
    exact hm
  refine ⟨succeeded t, hm, ?_, fun e => e.elim (fun e => nomatch e) fun e => nomatch e⟩
  show t.idempotencyKey = _
  generalize t.idempotencyKey = key at habout
  generalize job.payload = payload at habout hstage hversion
  cases habout with
  | @ingestion o' _ stored version _ =>
    have heq : o' = o := hc.originals.eq stored ho (version.symm.trans hversion)
    rw [heq]
  | embedding _ => cases hstage

/-- What a worker reads has no text yet. -/
theorem untexted_of_reads {s : Base} (hk : Known s.db) (hc : Consistent s) (hu : Unread s.db)
    {a : Action} {v : KnowledgeVersion} (hv : v ∈ s.db.versions) (hr : Reads s a v.id) :
    v.contentHash = none := by
  obtain ⟨job, hj, hstage, hversion, ⟨t, ht, hl⟩, _⟩ := hr.job
  have habout := hc.about t ht
  rw [← (hc.payload job hj t ht hl).1] at habout
  have hrunning := (holdsLease_iff.mp hl).2.1
  generalize hkey : t.idempotencyKey = key at habout
  generalize job.payload = payload at habout hstage hversion
  cases habout with
  | @ingestion o _ stored version _ =>
    refine hu o stored (fun t' ht' hkey' => ?_) v hv (hversion.symm.trans version)
    rw [hk.taskKeys.eq ht' ht (hkey'.trans hkey.symm)]
    exact Or.inr hrunning
  | embedding _ => cases hstage

/-- A version that waits for its text still does, unless its original was read. -/
theorem untexted_kept {s : Base} (hk : Known s.db) (hc : Consistent s)
    (hs : ∀ v ∈ s.db.versions, Sound v) (h : Unread s.db) (a : Action) {o : KnowledgeOriginal}
    (ho : o ∈ s.db.originals)
    (hopen : ∀ t ∈ (s.step a).db.tasks,
      t.idempotencyKey = .ingestion o.versionId o.sha256 → t.status.open_)
    {v' : KnowledgeVersion} (hv' : v' ∈ (s.step a).db.versions) (hid : v'.id = o.versionId) :
    v'.contentHash = none := by
  have hopen' := open_before hk a hopen
  rcases text_step hk hs a v' hv' with hnew | ⟨v, hv, e, hsame | hedit | hr⟩
  · -- the version is older than the step
    have hlt := hc.originalIds o ho
    rw [← hid] at hlt
    exact absurd hlt (Nat.not_lt.mpr hnew)
  all_goals have hnone := h o ho hopen' v hv (e.symm.trans hid)
  · rw [hsame.2]
    exact hnone
  · rw [(hs v hv).texted_of_editable hedit] at hnone
    cases hnone
  · rw [← e, hid] at hr
    obtain ⟨t, ht, hkey, hclosed⟩ := ended_of_reads hc ho hr
    exact absurd (hopen t ht hkey) hclosed

theorem unread_step {s : Base} (hk : Known s.db) (hc : Consistent s)
    (hs : ∀ v ∈ s.db.versions, Sound v) (h : Unread s.db) (a : Action) :
    Unread (s.step a).db := by
  intro o ho hopen v' hv' hid
  rcases originals_step hk a with e | ⟨o', w, ho', _, e, hw, hnone, hversions⟩
  · rw [e] at ho
    exact untexted_kept hk hc hs h a ho hopen hv' hid
  · rw [e] at ho
    rcases List.mem_append.mp ho with ho | ho
    · exact untexted_kept hk hc hs h a ho hopen hv' hid
    · -- a new original: its version has just been inserted
      rw [List.mem_singleton.mp ho] at hid
      rw [hversions] at hv'
      rcases List.mem_append.mp hv' with hv' | hv'
      · have hlt := hk.versionIds v' hv'
        rw [hid, ho'] at hlt
        exact absurd hlt (Nat.not_lt.mpr (Nat.le_succ _))
      · rw [List.mem_singleton.mp hv']
        exact hnone

theorem unread_after (actions : List Action) : Unread (Base.after actions).db := by
  refine (@Machine.run_invariant _ _ _ (fun s : Base =>
    Known s.db ∧ Consistent s ∧ (∀ v ∈ s.db.versions, Sound v) ∧ Unread s.db) _
    ⟨known_after [], consistent_after [], sound_after [], ?_⟩ (fun s a h => ?_) actions).2.2.2
  · exact fun _ ho => absurd ho List.not_mem_nil
  · obtain ⟨hk, hc, hs, hu⟩ := h
    exact ⟨known_step hk a, consistent_step hk hc a, sound_step hk hs a,
      unread_step hk hc hs hu a⟩

/-! ## 5. Published content -/

/-- **Published content integrity.** In every reachable state a published version has the hash of
    its content, and either an approval bound to that hash or an activation before its review for
    that hash; and no step changes the content of a published version. -/
theorem published_content_integrity (actions : List Action) :
    (∀ v ∈ (Base.after actions).db.versions, v.status = .published →
      v.contentHash = some (Sha256.hex v.content) ∧
        (ApprovedReview v ∨ ActivatedPendingReview v)) ∧
    ∀ a, ∀ v ∈ (Base.after actions).db.versions, v.status = .published →
      ∀ v' ∈ (Base.after (actions ++ [a])).db.versions, v'.id = v.id → v'.content = v.content := by
  have hsound := sound_after actions
  refine ⟨fun v hv hp => ⟨?_, (hsound v hv).published hp⟩, fun a v hv hp v' hv' hid => ?_⟩
  · exact (hsound v hv).texted (by rw [hp]; decide) (by rw [hp]; decide)
  · have hk := known_after actions
    rw [Base.after, Machine.run_append] at hv'
    rcases text_step hk hsound a v' hv' with hnew | ⟨w, hw, e, hsame | hedit | hr⟩
    · rw [hid] at hnew
      exact absurd (hk.versionIds v hv) (Nat.not_lt.mpr hnew)
    all_goals obtain rfl := hk.version_eq hw hv (e.symm.trans hid)
    · exact hsame.1
    · rw [hp] at hedit
      cases hedit
    · have hnone := untexted_of_reads hk (consistent_after actions) (unread_after actions) hw hr
      rcases (hsound w hw).untexted hnone with hst | hst
      all_goals
        rw [hp] at hst
        cases hst

end Steps

end OpenVac.KnowledgeBase
