/-
  File:      OpenVac/ChatStorage/UploadFinality.lean
  Subject:   Uploads and their deletion: the attachment service's signed URLs
             (server/chat-attachments/service.ts), the bucket and the storage worker.

  * `Uploads` -- the storage machine with the signed URLs and the objects under attachment keys; a
    PUT succeeds exactly while its URL is valid and the key holds no object.
  * `waitsForUpload`, `settledUpload` -- a deletion is queued at once only when the URL is over.
  * `deletion_final` -- then a completed deletion is final.
  * `rejected_upload_recreated` -- a rejection queues the deletion at once, and its URL is valid.
-/
import OpenVac.ChatStorage.Accounting

namespace OpenVac.ChatStorage

open Rows

/-! ## 1. The machine -/

structure UploadUrl where
  objectKey : ObjectKey
  expiresAt : Int
  deriving DecidableEq, Repr

structure Uploads where
  storage : Storage
  /-- The URLs clients were given. -/
  urls : List UploadUrl
  /-- The keys under which clients have put an object. -/
  objects : List ObjectKey
  /-- The claimed deletions whose object the worker has deleted. -/
  removed : List ClaimedDeletion

def Uploads.initial : Uploads := ⟨.initial, [], [], []⟩

inductive UploadAction where
  /-- `initiate` of the service: the URL is signed before the row is written. -/
  | initiate (id conversationId : Uuid) (kind : AttachmentKind) (filename mimeType : String)
      (sizeBytes : ℤ) (startedAt signedAt : Int)
  | put (url : UploadUrl)
  | deletePrivate (claimed : ClaimedDeletion)
  | other (action : Action)

section Step

variable [JsString.Sha256]

/-- The caller is given the URL if the row was written. -/
def Uploads.initiate (u : Uploads) (id conversationId : Uuid) (kind : AttachmentKind)
    (filename mimeType : String) (sizeBytes : ℤ) (startedAt signedAt : Int) : Uploads :=
  if signedAt < startedAt ∨ u.storage.now < signedAt ∨ id ∈ u.storage.issued then u
  else
    let storage := u.storage.step greatest
      (.initiate id conversationId kind filename mimeType sizeBytes startedAt)
    if storage.tables.attachments.any fun a => a.id == id then
      { u with
        storage := storage
        urls := ⟨.attachment conversationId id filename, signedAt + UPLOAD_URL_TTL_MS⟩ :: u.urls }
    else { u with storage := storage }

def Uploads.step (u : Uploads) : UploadAction → Uploads
  | .initiate id conversationId kind filename mimeType sizeBytes startedAt signedAt =>
      u.initiate id conversationId kind filename mimeType sizeBytes startedAt signedAt
  | .put url =>
      if url ∈ u.urls ∧ u.storage.now < url.expiresAt ∧ url.objectKey ∉ u.objects then
        { u with objects := url.objectKey :: u.objects }
      else u
  | .deletePrivate claimed =>
      if claimed ∈ u.storage.deleting then
        { u with
          objects := u.objects.filter fun objectKey => objectKey != claimed.objectKey
          removed := claimed :: u.removed }
      else u
  -- an upload is initiated with its URL
  | .other (.initiate ..) => u
  -- the job succeeds after the object's deletion
  | .other (.markDeletionSucceeded claimed) =>
      if claimed ∈ u.removed then
        { u with storage := u.storage.step greatest (.markDeletionSucceeded claimed) }
      else u
  | .other action => { u with storage := u.storage.step greatest action }

def Uploads.after (actions : List UploadAction) : Uploads :=
  Machine.run Uploads.step .initial actions

end Step

/-! ## 2. When deletions are queued -/

/-- The deletion is put off until the upload's URL is over: not that of a rejected or expired
    upload, and not that of an upload that is committed. -/
def waitsForUpload (action : Action) (a : Attachment) : Bool :=
  match action with
  | .rejectCompletion .. => false
  | .enqueueExpiredOrphans .. => false
  | _ => a.quotaState == .reserved

/-- Every attachment whose deletion the action queues has no valid URL any more, or the deletion
    waits until the URL is over. -/
def settledUpload (u : Uploads) (action : Action) : Bool :=
  u.storage.tables.attachments.all fun a =>
    (queuedAt u.storage.now u.storage.tables action a).isNone ||
      u.urls.all fun url =>
        url.objectKey != a.objectKey || decide (url.expiresAt ≤ u.storage.now) ||
          (waitsForUpload action a && decide (url.expiresAt ≤ a.uploadExpiresAt + 60000))

/-- Every step of the run queues deletions of settled uploads only. -/
def settledRun [JsString.Sha256] (u : Uploads) : List UploadAction → Bool
  | [] => true
  | action :: actions =>
      (match action with
        | .other action => settledUpload u action
        | _ => true) && settledRun (u.step action) actions

/-- When the deletion of an attachment's object may run. -/
def Due (u : Uploads) (a : Attachment) (runAt : Int) : Prop :=
  ∀ url ∈ u.urls, url.objectKey = a.objectKey →
    url.expiresAt ≤ u.storage.now ∨ url.expiresAt ≤ runAt

theorem settledUpload_due {u : Uploads} {action : Action} (h : settledUpload u action = true)
    {a : Attachment} (ha : a ∈ u.storage.tables.attachments) {runAt : Int}
    (hq : queuedAt u.storage.now u.storage.tables action a = some runAt) : Due u a runAt := by
  intro url hurl hkey
  have hall := List.all_eq_true.mp h a ha
  rw [hq] at hall
  simp only [Option.isNone_some, Bool.false_or] at hall
  have hone := List.all_eq_true.mp hall url hurl
  simp only [Bool.or_eq_true, Bool.and_eq_true, decide_eq_true_eq, bne_iff_ne] at hone
  rcases hone with (hne | hover) | ⟨hwaits, hle⟩
  · exact absurd hkey hne
  · exact Or.inl hover
  · -- the run-at is the end of the upload
    right
    have hreserved : a.quotaState = .reserved ∧ runAt = requestedRunAt u.storage.now a := by
      unfold waitsForUpload at hwaits
      unfold queuedAt at hq
      cases action with
      | rejectCompletion _ _ _ => nomatch hwaits
      | enqueueExpiredOrphans _ => nomatch hwaits
      | deleteUnbound id =>
        simp only [Option.ite_none_right_eq_some, Option.some.injEq] at hq
        exact ⟨by simpa using hwaits, hq.2.symm⟩
      | deleteConversation id =>
        simp only [Option.ite_none_right_eq_some, Option.some.injEq] at hq
        exact ⟨by simpa using hwaits, hq.2.symm⟩
      | clearConversationData =>
        simp only [Option.some.injEq] at hq
        exact ⟨by simpa using hwaits, hq.symm⟩
      | prepareUserDeletion =>
        simp only [Option.ite_none_right_eq_some, Option.some.injEq] at hq
        exact ⟨by simpa using hwaits, hq.2.symm⟩
      | _ => nomatch hq
    rw [hreserved.2]
    unfold requestedRunAt deletionRunAt
    rw [if_pos hreserved.1]
    exact hle

/-! ## 3. Jobs that changes bring -/

section NewJobs

variable {due : Attachment → Int → Prop} {issued : List Uuid} {t t' : Tables}

/-- Where a job comes from. -/
def JobFrom (due : Attachment → Int → Prop) (t : Tables) (job : DeletionJob) : Prop :=
  job ∈ t.jobs ∨
    (∃ a, due a job.runAt ∧ job = Tables.queuedJob .attachment a.id a.objectKey job.runAt) ∨
    ∃ conversationId artifactId fileId filename,
      job.objectKey = .artifact conversationId artifactId fileId filename

theorem JobsOf.origin {p : Attachment → Bool} {q : ArtifactFile → Bool} {jobs : List DeletionJob}
    (h : JobsOf due t p q jobs) (hk : Known issued t) :
    ∀ job ∈ (t.insertJobs jobs).jobs, JobFrom due t job := by
  intro job hjob
  rcases mem_insertJobs hjob with hold | hnew
  · exact Or.inl hold
  · rcases h job hnew with ⟨a, -, -, hdue, he⟩ | ⟨f, hf, -, he⟩
    · exact Or.inr (Or.inl ⟨a, hdue, he⟩)
    · obtain ⟨conversationId, filename, hkey⟩ := hk.fileKeys f hf
      refine Or.inr (Or.inr ⟨conversationId, f.artifactId, f.id, filename, ?_⟩)
      rw [he]
      exact hkey

theorem Change.newJobs (h : Change due issued t t') (hk : Known issued t) :
    ∀ job ∈ t'.jobs, JobFrom due t job := by
  cases h with
  | quiet t' h =>
    rw [h.jobs]
    exact fun _ hjob => Or.inl hjob
  | reject a f runAt _ _ hdue _ _ =>
    rw [← insertJobs_one]
    intro job hjob
    rcases mem_insertJobs hjob with hold | hnew
    · exact Or.inl hold
    · obtain rfl := List.mem_singleton.mp hnew
      exact Or.inr (Or.inl ⟨a, hdue, rfl⟩)
  | remove p q r jobs _ hjobs _ =>
    rw [purge_jobs]
    exact hjobs.origin hk
  | requeue sourceId objectKey now _ hkey _ =>
    intro job hjob
    unfold requeueJob at hjob
    split at hjob
    · obtain ⟨known, hknown, rfl⟩ := mem_updateWhere.mp hjob
      split
      · next he =>
          obtain ⟨c, artifactId, fileId, n, hk'⟩ := hkey
          exact Or.inr (Or.inr ⟨c, artifactId, fileId, n, (beq_iff_eq.mp he).trans hk'⟩)
      · exact Or.inl hknown
    · rw [← insertJobs_one] at hjob
      rcases mem_insertJobs hjob with hold | hnew
      · exact Or.inl hold
      · rw [List.mem_singleton.mp hnew]
        exact Or.inr (Or.inr hkey)
  | requestDeletion jobs at' hjobs _ => exact hjobs.origin hk
  | forget _ =>
    intro job hjob
    unfold deleteUser at hjob
    split at hjob
    · exact Or.inl hjob
    · exact Or.inl hjob
  | _ => exact fun _ hjob => Or.inl hjob

theorem Changes.newJobs (h : Changes due issued t t') (hw : WellFormed t) (hb : Balanced t)
    (hk : Known issued t) : ∀ job ∈ t'.jobs, JobFrom due t job := by
  induction h with
  | refl => exact fun _ hjob => Or.inl hjob
  | tail hpre hstep ih =>
    intro job hjob
    obtain ⟨-, -, hk₁⟩ := tables_sound hw hb hk (Or.inl hpre)
    rcases hstep.newJobs hk₁ job hjob with hold | hnew
    · exact ih job hold
    · exact Or.inr hnew

end NewJobs

/-! ## 4. The invariant -/

/-- The URL is over, or the job waits for its end. -/
def Settled (now : Int) (url : UploadUrl) (job : DeletionJob) : Prop :=
  url.expiresAt ≤ now ∨ (job.status = .queued ∧ url.expiresAt ≤ job.runAt)

structure UploadsSound (u : Uploads) : Prop where
  sound : Sound u.storage
  urls : ∀ url ∈ u.urls, url.objectKey.sourceId ∈ u.storage.issued ∧
    ∃ conversationId id filename, url.objectKey = .attachment conversationId id filename
  objects : ∀ objectKey ∈ u.objects, ∃ url ∈ u.urls, url.objectKey = objectKey
  jobs : ∀ job ∈ u.storage.tables.jobs, ∀ url ∈ u.urls, url.objectKey = job.objectKey →
    Settled u.storage.now url job
  claimed : ∀ claimed ∈ u.storage.deleting, claimed.objectKey.sourceId ∈ u.storage.issued ∧
    ∀ url ∈ u.urls, url.objectKey = claimed.objectKey → url.expiresAt ≤ u.storage.now
  removed : ∀ claimed ∈ u.removed,
    claimed ∈ u.storage.deleting ∧ claimed.objectKey ∉ u.objects
  succeeded : ∀ job ∈ u.storage.tables.jobs, job.status = .succeeded →
    job.objectKey ∉ u.objects

theorem Settled.mono {now now' : Int} {url : UploadUrl} {job : DeletionJob}
    (h : Settled now url job) (hle : now ≤ now') : Settled now' url job := by
  rcases h with h | h
  · exact Or.inl (Int.le_trans h hle)
  · exact Or.inr h

/-- A job that is due has no valid URL left. -/
theorem Settled.expired {now : Int} {url : UploadUrl} {job : DeletionJob}
    (h : Settled now url job) (hclaim : deletionClaimable now job = true) :
    url.expiresAt ≤ now := by
  rcases h with h | ⟨hq, hle⟩
  · exact h
  · unfold deletionClaimable at hclaim
    rw [hq] at hclaim
    have hrunning : (DeletionJobStatus.queued == DeletionJobStatus.running) = false := rfl
    simp only [beq_self_eq_true, Bool.true_and, hrunning, Bool.false_and, Bool.or_false,
      decide_eq_true_eq] at hclaim
    exact Int.le_trans hle hclaim

section Steps

variable {u : Uploads}

/-- What a job or a claim that a storage step brings has to meet. -/
theorem UploadsSound.storage {s' : Storage} (hu : UploadsSound u) (hsound : Sound s')
    (hnow : u.storage.now ≤ s'.now) (hissued : ∀ id ∈ u.storage.issued, id ∈ s'.issued)
    (hjobs : ∀ job ∈ s'.tables.jobs, job ∈ u.storage.tables.jobs ∨
      ((∀ url ∈ u.urls, url.objectKey = job.objectKey → Settled s'.now url job) ∧
        (job.status = .succeeded → job.objectKey ∉ u.objects)))
    (hdeleting : ∀ claimed ∈ s'.deleting, claimed ∈ u.storage.deleting ∨
      (claimed.objectKey.sourceId ∈ s'.issued ∧
        ∀ url ∈ u.urls, url.objectKey = claimed.objectKey → url.expiresAt ≤ s'.now))
    (hheld : ∀ claimed ∈ u.storage.deleting, claimed ∈ s'.deleting) :
    UploadsSound { u with storage := s' } := by
  constructor
  · exact hsound
  · intro url hurl
    obtain ⟨hid, hkey⟩ := hu.urls url hurl
    exact ⟨hissued _ hid, hkey⟩
  · exact hu.objects
  · intro job hjob url hurl he
    rcases hjobs job hjob with hold | hnew
    · exact (hu.jobs job hold url hurl he).mono hnow
    · exact hnew.1 url hurl he
  · intro claimed hclaimed
    rcases hdeleting claimed hclaimed with hold | hnew
    · obtain ⟨hid, hover⟩ := hu.claimed claimed hold
      exact ⟨hissued _ hid, fun url hurl he => Int.le_trans (hover url hurl he) hnow⟩
    · exact hnew
  · intro claimed hclaimed
    obtain ⟨hin, hgone⟩ := hu.removed claimed hclaimed
    exact ⟨hheld claimed hin, hgone⟩
  · intro job hjob hs
    rcases hjobs job hjob with hold | hnew
    · exact hu.succeeded job hold hs
    · exact hnew.2 hs

/-- No object lies under the key of an artifact's file. -/
theorem UploadsSound.not_artifact (hu : UploadsSound u) {conversationId artifactId fileId : Uuid}
    {filename : String} :
    (∀ url ∈ u.urls, url.objectKey ≠ .artifact conversationId artifactId fileId filename) ∧
      ObjectKey.artifact conversationId artifactId fileId filename ∉ u.objects := by
  have hurls : ∀ url ∈ u.urls,
      url.objectKey ≠ .artifact conversationId artifactId fileId filename := by
    intro url hurl he
    obtain ⟨-, c, id, n, hkey⟩ := hu.urls url hurl
    rw [hkey] at he
    nomatch he
  refine ⟨hurls, fun hmem => ?_⟩
  obtain ⟨url, hurl, he⟩ := hu.objects _ hmem
  exact hurls url hurl he

theorem Uploads.initial_sound : UploadsSound .initial where
  sound := Storage.initial_sound
  urls := fun _ h => nomatch h
  objects := fun _ h => nomatch h
  jobs := fun _ h => nomatch h
  claimed := fun _ h => nomatch h
  removed := fun _ h => nomatch h
  succeeded := fun _ h => nomatch h

theorem initiate_settled (u : Uploads) (id conversationId : Uuid) (kind : AttachmentKind)
    (filename mimeType : String) (sizeBytes : ℤ) (startedAt : Int) :
    settledUpload u (.initiate id conversationId kind filename mimeType sizeBytes startedAt) =
      true :=
  List.all_eq_true.mpr fun _ _ => rfl

theorem UploadsSound.put (hu : UploadsSound u) {url : UploadUrl} (hurl : url ∈ u.urls)
    (hvalid : u.storage.now < url.expiresAt) :
    UploadsSound { u with objects := url.objectKey :: u.objects } := by
  constructor
  · exact hu.sound
  · exact hu.urls
  · intro objectKey hkey
    rcases List.mem_cons.mp hkey with rfl | hkey
    · exact ⟨url, hurl, rfl⟩
    · exact hu.objects objectKey hkey
  · exact hu.jobs
  · exact hu.claimed
  · intro claimed hclaimed
    obtain ⟨hheld, hgone⟩ := hu.removed claimed hclaimed
    refine ⟨hheld, fun hmem => ?_⟩
    rcases List.mem_cons.mp hmem with he | hmem
    · have hover := (hu.claimed claimed hheld).2 url hurl he.symm
      omega
    · exact hgone hmem
  · intro job hjob hs hmem
    rcases List.mem_cons.mp hmem with he | hmem
    · rcases hu.jobs job hjob url hurl he.symm with hover | hwait
      · omega
      · rw [hs] at hwait
        nomatch hwait.1
    · exact hu.succeeded job hjob hs hmem

theorem UploadsSound.deletePrivate (hu : UploadsSound u) {claimed : ClaimedDeletion}
    (hheld : claimed ∈ u.storage.deleting) :
    UploadsSound
      { u with
        objects := u.objects.filter fun objectKey => objectKey != claimed.objectKey
        removed := claimed :: u.removed } := by
  constructor
  · exact hu.sound
  · exact hu.urls
  · intro objectKey hkey
    exact hu.objects objectKey (List.mem_filter.mp hkey).1
  · exact hu.jobs
  · exact hu.claimed
  · intro other hother
    rcases List.mem_cons.mp hother with rfl | hother
    · refine ⟨hheld, fun hmem => ?_⟩
      have hne := (List.mem_filter.mp hmem).2
      simp at hne
    · obtain ⟨hin, hgone⟩ := hu.removed other hother
      exact ⟨hin, fun hmem => hgone (List.mem_filter.mp hmem).1⟩
  · intro job hjob hs hmem
    exact hu.succeeded job hjob hs (List.mem_filter.mp hmem).1

variable [JsString.Sha256]

/-- A step that is no work on deletion jobs. -/
theorem UploadsSound.other (hu : UploadsSound u) (action : Action)
    (hwork : action.worksDeletion = false) (hsettled : settledUpload u action = true) :
    UploadsSound { u with storage := u.storage.step greatest action } := by
  have hframe := step_frame greatest u.storage action
  have hchanges : Changes (Due u) (u.storage.step greatest action).issued u.storage.tables
      (u.storage.step greatest action).tables := by
    rcases step_changes greatest_exact hu.sound action
      fun a ha runAt hq => settledUpload_due hsettled ha hq with h | h
    · exact h.2
    · rw [hwork] at h
      nomatch h.1
  have hfrom := hchanges.newJobs hu.sound.wellFormed hu.sound.balanced
    (hu.sound.known.mono hframe.issued)
  have hdeleting := hframe.deleting hwork
  refine hu.storage (Storage.step_sound greatest_exact hu.sound action) hframe.now hframe.issued
    ?_ ?_ ?_
  · intro job hjob
    rcases hfrom job hjob with hold | ⟨a, hdue, he⟩ | ⟨c, artifactId, fileId, n, he⟩
    · exact Or.inl hold
    · refine Or.inr ⟨fun url hurl hkey => ?_, fun hs => ?_⟩
      · have hkey' : url.objectKey = a.objectKey := by
          rw [hkey, he]
          rfl
        rcases hdue url hurl hkey' with hover | hwait
        · exact Or.inl (Int.le_trans hover hframe.now)
        · refine Or.inr ⟨?_, hwait⟩
          rw [he]
          rfl
      · rw [he] at hs
        nomatch hs
    · refine Or.inr ⟨fun url hurl hkey => ?_, fun _ => ?_⟩
      · exact absurd (hkey.trans he) (hu.not_artifact.1 url hurl)
      · rw [he]
        exact hu.not_artifact.2
  · intro claimed hclaimed
    rw [hdeleting] at hclaimed
    exact Or.inl hclaimed
  · intro claimed hclaimed
    rw [hdeleting]
    exact hclaimed

/-- The claim of a deletion job: the URLs for its object are over. -/
theorem UploadsSound.claim (hu : UploadsSound u) (objectKey : ObjectKey) (workerId : String)
    (leaseToken : Uuid) :
    UploadsSound
      { u with
        storage := u.storage.step greatest (.claimDeletion objectKey workerId leaseToken) } := by
  have hsound := Storage.step_sound greatest_exact hu.sound
    (.claimDeletion objectKey workerId leaseToken)
  have hframe := step_frame greatest u.storage (.claimDeletion objectKey workerId leaseToken)
  refine hu.storage hsound hframe.now hframe.issued ?_ ?_ ?_
  · unfold Storage.step
    simp only
    split
    · exact fun job hjob => Or.inl hjob
    · unfold claimDeletion
      split
      · exact fun job hjob => Or.inl hjob
      · next found hfind =>
        have hmem := List.mem_of_find?_eq_some hfind
        have hcond := List.find?_some hfind
        simp only [Bool.and_eq_true, beq_iff_eq] at hcond
        intro job hjob
        obtain ⟨job₀, hjob₀, rfl⟩ := mem_updateWhere.mp hjob
        by_cases hk : (job₀.objectKey == objectKey) = true
        · rw [if_pos hk]
          refine Or.inr ⟨fun url hurl he => Or.inl ?_, fun hs => nomatch hs⟩
          have hsame : url.objectKey = found.objectKey :=
            he.trans ((beq_iff_eq.mp hk).trans hcond.1.symm)
          exact (hu.jobs found hmem url hurl hsame).expired hcond.2
        · rw [if_neg hk]
          exact Or.inl hjob₀
  · unfold Storage.step
    simp only
    split
    · exact fun claimed hclaimed => Or.inl hclaimed
    · unfold claimDeletion
      split
      · exact fun claimed hclaimed => Or.inl hclaimed
      · next found hfind =>
        have hmem := List.mem_of_find?_eq_some hfind
        have hcond := List.find?_some hfind
        simp only [Bool.and_eq_true, beq_iff_eq] at hcond
        intro claimed hclaimed
        rcases List.mem_append.mp hclaimed with h | h
        · obtain rfl := List.mem_singleton.mp h
          refine Or.inr ⟨?_, fun url hurl he => ?_⟩
          · have hid := hu.sound.known.jobKeys found hmem
            rw [hcond.1] at hid
            exact List.mem_cons_of_mem _ hid
          · exact (hu.jobs found hmem url hurl (he.trans hcond.1.symm)).expired hcond.2
        · exact Or.inl h
  · unfold Storage.step
    simp only
    split
    · exact fun claimed hclaimed => hclaimed
    · exact fun claimed hclaimed => List.mem_append_right _ hclaimed

/-- The end of a claimed deletion. -/
theorem UploadsSound.finish (hu : UploadsSound u) {claimed : ClaimedDeletion}
    (action : Action) {tx : Tables → Except StorageError (Unit × Tables)}
    (hstep : u.storage.step greatest action = u.storage.deletionStep claimed tx)
    (htx : ∀ b t', tx u.storage.tables = .ok (b, t') → ∃ f,
      t'.jobs = updateWhere (leasedDeletion claimed) f u.storage.tables.jobs ∧
      (∀ job, (f job).objectKey = job.objectKey) ∧
      ∀ job, (f job).status = .succeeded → claimed.objectKey ∉ u.objects) :
    UploadsSound { u with storage := u.storage.step greatest action } := by
  have hsound := Storage.step_sound greatest_exact hu.sound action
  have hframe := step_frame greatest u.storage action
  rw [hstep] at hsound hframe ⊢
  unfold Storage.deletionStep at hsound hframe ⊢
  split at hsound
  · next hheld =>
    rw [if_pos hheld] at hframe ⊢
    rw [List.contains_iff_mem] at hheld
    refine hu.storage hsound hframe.now hframe.issued ?_ (fun c hc => Or.inl hc) fun c hc => hc
    intro job hjob
    rcases Machine.commit_cases u.storage.tables (tx u.storage.tables) with he | ⟨b, t', ht, he⟩
    · have hjob' : job ∈ (Machine.commit u.storage.tables (tx u.storage.tables)).jobs := hjob
      rw [he] at hjob'
      exact Or.inl hjob'
    · have hjob' : job ∈ (Machine.commit u.storage.tables (tx u.storage.tables)).jobs := hjob
      obtain ⟨f, hf, hkey, hs⟩ := htx b t' ht
      rw [he, hf] at hjob'
      obtain ⟨job₀, hjob₀, rfl⟩ := mem_updateWhere.mp hjob'
      by_cases hl : leasedDeletion claimed job₀ = true
      · rw [if_pos hl]
        have hk : (f job₀).objectKey = claimed.objectKey := by
          unfold leasedDeletion at hl
          simp only [Bool.and_eq_true, beq_iff_eq] at hl
          rw [hkey, hl.1.1.1]
        refine Or.inr ⟨fun url hurl he => Or.inl ?_, fun hsucc => ?_⟩
        · exact (hu.claimed claimed hheld).2 url hurl (he.trans hk)
        · rw [hk]
          exact hs job₀ hsucc
      · rw [if_neg hl]
        exact Or.inl hjob₀
  · next hheld =>
    rw [if_neg hheld]
    exact hu

/-- A fresh attachment's key has no job yet. -/
theorem initiate_jobs {s : Storage} (hs : Sound s) (id conversationId : Uuid)
    (kind : AttachmentKind) (filename mimeType : String) (sizeBytes : ℤ) (startedAt : Int)
    (hfresh : id ∉ s.issued) :
    ∀ job ∈ (s.step greatest
        (.initiate id conversationId kind filename mimeType sizeBytes startedAt)).tables.jobs,
      job.objectKey ≠ .attachment conversationId id filename := by
  have hframe := step_frame greatest s
    (.initiate id conversationId kind filename mimeType sizeBytes startedAt)
  -- no attachment's deletion is queued
  have hnone : ∀ a ∈ s.tables.attachments, ∀ runAt, queuedAt s.now s.tables
      (.initiate id conversationId kind filename mimeType sizeBytes startedAt) a = some runAt →
      False := fun _ _ _ hq => nomatch hq
  rcases step_changes greatest_exact hs
    (.initiate id conversationId kind filename mimeType sizeBytes startedAt) hnone with h | h
  · intro job hjob he
    rcases h.2.newJobs hs.wellFormed hs.balanced (hs.known.mono hframe.issued) job hjob with
      hold | ⟨_, hfalse, _⟩ | ⟨c, artifactId, fileId, n, hkey⟩
    · have hid := hs.known.jobKeys job hold
      rw [he] at hid
      exact hfresh hid
    · exact hfalse
    · rw [hkey] at he
      nomatch he
  · nomatch h.1

theorem UploadsSound.initiate (hu : UploadsSound u) (id conversationId : Uuid)
    (kind : AttachmentKind) (filename mimeType : String) (sizeBytes : ℤ)
    (startedAt signedAt : Int) :
    UploadsSound
      (u.initiate id conversationId kind filename mimeType sizeBytes startedAt signedAt) := by
  unfold Uploads.initiate
  split
  · exact hu
  · next hguard =>
    simp only [not_or] at hguard
    have hfresh := hguard.2.2
    have hu' := hu.other (.initiate id conversationId kind filename mimeType sizeBytes startedAt)
      rfl (initiate_settled u id conversationId kind filename mimeType sizeBytes startedAt)
    have hjobs := initiate_jobs hu.sound id conversationId kind filename mimeType sizeBytes
      startedAt hfresh
    have hdeleting := (step_frame greatest u.storage (.initiate id conversationId kind filename
      mimeType sizeBytes startedAt)).deleting rfl
    simp only
    split
    · next hrow =>
      obtain ⟨a, ha, hid⟩ := List.any_eq_true.mp hrow
      have hissued := hu'.sound.known.attachmentIds a ha
      rw [beq_iff_eq.mp hid] at hissued
      constructor
      · exact hu'.sound
      · intro url hurl
        rcases List.mem_cons.mp hurl with rfl | hurl
        · exact ⟨hissued, conversationId, id, filename, rfl⟩
        · exact hu'.urls url hurl
      · intro objectKey hkey
        obtain ⟨url, hurl, he⟩ := hu'.objects objectKey hkey
        exact ⟨url, List.mem_cons_of_mem _ hurl, he⟩
      · intro job hjob url hurl he
        rcases List.mem_cons.mp hurl with rfl | hurl
        · exact absurd he.symm (hjobs job hjob)
        · exact hu'.jobs job hjob url hurl he
      · intro claimed hclaimed
        obtain ⟨hcid, hover⟩ := hu'.claimed claimed hclaimed
        refine ⟨hcid, fun url hurl he => ?_⟩
        rcases List.mem_cons.mp hurl with rfl | hurl
        · rw [hdeleting] at hclaimed
          have hold := (hu.claimed claimed hclaimed).1
          rw [← he] at hold
          exact absurd hold hfresh
        · exact hover url hurl he
      · exact hu'.removed
      · exact hu'.succeeded
    · exact hu'

/-- **Every step that queues settled uploads only keeps the invariant.** -/
theorem UploadsSound.step (hu : UploadsSound u) (action : UploadAction)
    (hsettled : ∀ other, action = .other other → settledUpload u other = true) :
    UploadsSound (u.step action) := by
  cases action with
  | initiate id conversationId kind filename mimeType sizeBytes startedAt signedAt =>
    exact hu.initiate id conversationId kind filename mimeType sizeBytes startedAt signedAt
  | put url =>
    unfold Uploads.step
    simp only
    split
    · next h => exact hu.put h.1 h.2.1
    · exact hu
  | deletePrivate claimed =>
    unfold Uploads.step
    simp only
    split
    · next h => exact hu.deletePrivate h
    · exact hu
  | other action =>
    have hset := hsettled action rfl
    cases action with
    | initiate id conversationId kind filename mimeType sizeBytes startedAt => exact hu
    | claimDeletion objectKey workerId leaseToken => exact hu.claim objectKey workerId leaseToken
    | markDeletionSucceeded claimed =>
      unfold Uploads.step
      simp only
      split
      · next hremoved =>
        refine hu.finish (.markDeletionSucceeded claimed) rfl fun b t' ht => ?_
        unfold markDeletionSucceeded at ht
        split at ht
        · nomatch ht
        · obtain rfl := congrArg Prod.snd (Except.ok.inj ht)
          exact ⟨_, rfl, fun _ => rfl, fun _ _ => (hu.removed claimed hremoved).2⟩
      · exact hu
    | markDeletionFailed claimed message retryable retryAt =>
      refine hu.finish (.markDeletionFailed claimed message retryable retryAt) rfl
        fun b t' ht => ?_
      unfold markDeletionFailed at ht
      simp only at ht
      split at ht
      · nomatch ht
      · obtain rfl := congrArg Prod.snd (Except.ok.inj ht)
        refine ⟨_, rfl, fun _ => rfl, fun job hs => ?_⟩
        simp only at hs
        split at hs <;> nomatch hs
    | _ => exact hu.other _ rfl hset

theorem UploadsSound.run (hu : UploadsSound u) {actions : List UploadAction}
    (h : settledRun u actions = true) : UploadsSound (Machine.run Uploads.step u actions) := by
  induction actions generalizing u with
  | nil => exact hu
  | cons action actions ih =>
    unfold settledRun at h
    rw [Bool.and_eq_true] at h
    refine ih (hu.step action fun other he => ?_) h.2
    subst he
    exact h.1

end Steps

/-! ## 5. A completed deletion is final -/

/-- No object, and no URL that could bring one back. -/
structure Gone (objectKey : ObjectKey) (u : Uploads) : Prop where
  drawn : objectKey.sourceId ∈ u.storage.issued
  expired : ∀ url ∈ u.urls, url.objectKey = objectKey → url.expiresAt ≤ u.storage.now
  empty : objectKey ∉ u.objects

section Final

variable [JsString.Sha256] {u : Uploads}

theorem Gone.storage {objectKey : ObjectKey} (h : Gone objectKey u) (action : Action) :
    Gone objectKey { u with storage := u.storage.step greatest action } := by
  have hframe := step_frame greatest u.storage action
  exact ⟨hframe.issued _ h.drawn,
    fun url hurl he => Int.le_trans (h.expired url hurl he) hframe.now, h.empty⟩

/-- **What is gone stays gone**, whatever is done. -/
theorem Gone.step {objectKey : ObjectKey} (h : Gone objectKey u) (action : UploadAction) :
    Gone objectKey (u.step action) := by
  cases action with
  | initiate id conversationId kind filename mimeType sizeBytes startedAt signedAt =>
    unfold Uploads.step Uploads.initiate
    simp only
    split
    · exact h
    · next hguard =>
      simp only [not_or] at hguard
      have h' := h.storage (.initiate id conversationId kind filename mimeType sizeBytes startedAt)
      split
      · refine ⟨h'.drawn, fun url hurl he => ?_, h'.empty⟩
        rcases List.mem_cons.mp hurl with rfl | hurl
        · have hdrawn := h.drawn
          rw [← he] at hdrawn
          exact absurd hdrawn hguard.2.2
        · exact h'.expired url hurl he
      · exact h'
  | put url =>
    unfold Uploads.step
    simp only
    split
    · next hput =>
      refine ⟨h.drawn, h.expired, fun hmem => ?_⟩
      rcases List.mem_cons.mp hmem with he | hmem
      · have hover := h.expired url hput.1 he.symm
        omega
      · exact h.empty hmem
    · exact h
  | deletePrivate claimed =>
    unfold Uploads.step
    simp only
    split
    · exact ⟨h.drawn, h.expired, fun hmem => h.empty (List.mem_filter.mp hmem).1⟩
    · exact h
  | other action =>
    cases action with
    | initiate id conversationId kind filename mimeType sizeBytes startedAt => exact h
    | markDeletionSucceeded claimed =>
      unfold Uploads.step
      simp only
      split
      · exact h.storage (.markDeletionSucceeded claimed)
      · exact h
    | _ => exact h.storage _

/-- **A completed deletion is final**, once every deletion was queued for a settled upload. -/
theorem deletion_final (before more : List UploadAction)
    (hsettled : settledRun .initial before = true) :
    ∀ job ∈ (Uploads.after before).storage.tables.jobs, job.status = .succeeded →
      job.objectKey ∉ (Uploads.after (before ++ more)).objects := by
  intro job hjob hs
  have hu : UploadsSound (Uploads.after before) := Uploads.initial_sound.run hsettled
  have hgone : Gone job.objectKey (Uploads.after before) := by
    refine ⟨hu.sound.known.jobKeys job hjob, fun url hurl he => ?_, hu.succeeded job hjob hs⟩
    rcases hu.jobs job hjob url hurl he with hover | hwait
    · exact hover
    · rw [hs] at hwait
      nomatch hwait.1
  have hrun : Gone job.objectKey (Machine.run Uploads.step (Uploads.after before) more) :=
    Machine.run_invariant hgone (fun u action h => h.step action) more
  rw [← show Uploads.after (before ++ more) =
    Machine.run Uploads.step (Uploads.after before) more from Machine.run_append _ _ _ _] at hrun
  exact hrun.empty

end Final

/-! ## 6. Two runs -/

def uploadKey : ObjectKey := .attachment 1 2 "a"

def uploadUrl : UploadUrl := ⟨uploadKey, 900000⟩

def uploadDeletion : ClaimedDeletion := ⟨uploadKey, 1, 5, "w", 3⟩

/-- An upload is put, fails its verification after a while, and is deleted. -/
def rejectedAfter (ms : Nat) : List UploadAction :=
  [.other (.addConversation 1), .initiate 2 1 .document "a" "text/plain" 10 0 0, .put uploadUrl,
    .other (.tick ms), .other (.beginCompletion 2),
    .other (.rejectCompletion 2 "ATTACHMENT_UPLOAD_MISMATCH" "m"),
    .other (.claimDeletion uploadKey "w" 3), .deletePrivate uploadDeletion,
    .other (.markDeletionSucceeded uploadDeletion)]

theorem deletion_final_late :
    let _ : JsString.Sha256 := ⟨fun text => text⟩
    (∃ job ∈ (Uploads.after (rejectedAfter 900000)).storage.tables.jobs,
      job.status = .succeeded) ∧
    ∀ job ∈ (Uploads.after (rejectedAfter 900000)).storage.tables.jobs, job.status = .succeeded →
      job.objectKey ∉ (Uploads.after (rejectedAfter 900000 ++ [.put uploadUrl])).objects := by
  intro _
  exact ⟨by decide +kernel, deletion_final _ _ (by decide +kernel)⟩

/-- **A rejection queues the deletion at once**: after the deletion has completed, the client puts
    the object again, with the URL it still holds. -/
theorem rejected_upload_recreated :
    ¬ ∀ [JsString.Sha256] (before more : List UploadAction),
      ∀ job ∈ (Uploads.after before).storage.tables.jobs, job.status = .succeeded →
        job.objectKey ∉ (Uploads.after (before ++ more)).objects := by
  intro h
  let : JsString.Sha256 := ⟨fun text => text⟩
  have hfinal := h (rejectedAfter 1000) [.put uploadUrl]
  have hagain : ∃ job ∈ (Uploads.after (rejectedAfter 1000)).storage.tables.jobs,
      job.status = .succeeded ∧
        job.objectKey ∈ (Uploads.after (rejectedAfter 1000 ++ [.put uploadUrl])).objects := by
    decide +kernel
  obtain ⟨job, hjob, hs, hmem⟩ := hagain
  exact hfinal job hjob hs hmem

end OpenVac.ChatStorage
