/-
  File:      OpenVac/ChatStorage/UploadRows.lean
  Subject:   What the steps of the chat storage leave alone of an upload.

  * `Attachment.Stays` -- a row keeps its key, its sizes and what it says of its file, is not
    committed and does not become open to a completion again.
  * `step_stays` -- every step but the start, the commit and the reset of an upload is of this
    kind.
  * `step_hasJob` -- no step takes a deletion job away; a claimed deletion has one
    (`step_deleting`).
-/
import OpenVac.ChatStorage.ObjectLifecycle
import OpenVac.ChatStorage.Attempts

namespace OpenVac.ChatStorage

open Rows

/-! ## 1. Rows that stay -/

/-- `beginCompletion` takes the row, as far as its status goes. -/
def Attachment.beginnable (a : Attachment) : Bool :=
  a.status == .initiated || a.status == .uploading

/-- What a row says of its file from the start. -/
structure Origin where
  conversationId : Uuid
  kind : AttachmentKind
  filename : String
  mimeType : String

def Attachment.origin (a : Attachment) : Origin :=
  ⟨a.conversationId, a.kind, a.originalFilename, a.mimeType⟩

structure Attachment.Stays (a a' : Attachment) : Prop where
  id : a'.id = a.id
  objectKey : a'.objectKey = a.objectKey
  declared : a'.declaredSizeBytes = a.declaredSizeBytes
  origin : a'.origin = a.origin
  size : a'.sizeBytes = a.sizeBytes
  committed : a'.quotaState = .committed → a.quotaState = .committed
  beginnable : a'.beginnable = true → a.beginnable = true

theorem Attachment.Stays.refl (a : Attachment) : a.Stays a :=
  ⟨rfl, rfl, rfl, rfl, rfl, fun h => h, fun h => h⟩

theorem Attachment.Stays.trans {a b c : Attachment} (h : a.Stays b) (h' : b.Stays c) :
    a.Stays c :=
  ⟨h'.id.trans h.id, h'.objectKey.trans h.objectKey, h'.declared.trans h.declared,
    h'.origin.trans h.origin, h'.size.trans h.size,
    fun hc => h.committed (h'.committed hc), fun hb => h.beginnable (h'.beginnable hb)⟩

/-- Every row stems from a row that stays. -/
def RowsStay (t t' : Tables) : Prop := ∀ a' ∈ t'.attachments, ∃ a ∈ t.attachments, a.Stays a'

namespace RowsStay

variable {t t' u : Tables}

theorem of_same (h : t'.attachments = t.attachments) : RowsStay t t' :=
  fun a' ha' => ⟨a', h ▸ ha', .refl a'⟩

theorem refl (t : Tables) : RowsStay t t := of_same rfl

theorem trans (h : RowsStay t u) (h' : RowsStay u t') : RowsStay t t' := by
  intro c hc
  obtain ⟨b, hb, hbc⟩ := h' c hc
  obtain ⟨a, ha, hab⟩ := h b hb
  exact ⟨a, ha, hab.trans hbc⟩

theorem update {p : Attachment → Bool} {f : Attachment → Attachment}
    (h : t'.attachments = updateWhere p f t.attachments) (hf : ∀ a, p a = true → a.Stays (f a)) :
    RowsStay t t' := by
  intro a' ha'
  rw [h] at ha'
  obtain ⟨a, ha, rfl⟩ := mem_updateWhere.mp ha'
  refine ⟨a, ha, ?_⟩
  split
  · next hp => exact hf a hp
  · exact .refl a

theorem delete (t : Tables) (p : Attachment → Bool) : RowsStay t (t.deleteAttachments p) :=
  fun a' ha' => ⟨a', (mem_deleteWhere.mp ha').1, .refl a'⟩

theorem insertJobs (t : Tables) (jobs : List DeletionJob) : RowsStay t (t.insertJobs jobs) :=
  of_same (insertJobs_attachments t jobs)

theorem insertJob (t : Tables) (job : DeletionJob) : RowsStay t (t.insertJob job) := by
  rw [← insertJobs_one]
  exact insertJobs t [job]

theorem foldl {α : Type} {f : Tables → α → Tables} (hf : ∀ t x, RowsStay t (f t x))
    (l : List α) (t : Tables) : RowsStay t (l.foldl f t) := by
  induction l generalizing t with
  | nil => exact refl t
  | cons x l ih => exact (hf t x).trans (ih _)

theorem transact {s : Storage} {β : Type} {tx : Tables → Except StorageError (β × Tables)}
    (h : ∀ b t', tx s.tables = .ok (b, t') → RowsStay s.tables t') :
    RowsStay s.tables (s.transact tx).tables := by
  show RowsStay s.tables (Machine.commit s.tables (tx s.tables))
  rcases Machine.commit_cases s.tables (tx s.tables) with he | ⟨b, t', ht, he⟩
  · rw [he]
    exact refl _
  · rw [he]
    exact h b t' ht

/-- Rows go: the deletion of their objects is queued, their bytes are given back. -/
theorem removal (floor : ℤ → ℤ) (t : Tables) (jobs : List DeletionJob) (used reserved : ℤ)
    (p : Attachment → Bool) :
    RowsStay t (((t.insertJobs jobs).release floor used reserved).deleteAttachments p) := by
  have hrelease : RowsStay t ((t.insertJobs jobs).release floor used reserved) :=
    (insertJobs t jobs).trans (of_same rfl)
  exact hrelease.trans (delete _ p)

end RowsStay

/-! ## 2. The transactions -/

section Transactions

variable {t t' : Tables}

theorem beginCompletion_stays {id : Uuid} {r : Attachment × Bool}
    (h : beginCompletion id t = .ok (r, t')) : RowsStay t t' := by
  unfold beginCompletion at h
  split at h
  · nomatch h
  · split at h
    · obtain rfl := congrArg Prod.snd (Except.ok.inj h)
      exact .refl t
    · split at h
      · nomatch h
      · obtain rfl := congrArg Prod.snd (Except.ok.inj h)
        exact .update rfl fun a _ => ⟨rfl, rfl, rfl, rfl, rfl, fun h => h, fun h => nomatch h⟩

theorem rejectCompletion_stays (id : Uuid) (code message : String) (now : Int) (t : Tables) :
    RowsStay t (rejectCompletion id code message now t) := by
  unfold rejectCompletion
  split
  · exact .refl t
  · refine RowsStay.trans ?_ (.insertJob _ _)
    exact .update rfl fun a _ => ⟨rfl, rfl, rfl, rfl, rfl, (fun h => nomatch h), fun h => nomatch h⟩

theorem bindToMessage_stays {ids : List Uuid} {conversationId messageId : Uuid}
    {r : List Attachment} (h : bindToMessage ids conversationId messageId t = .ok (r, t')) :
    RowsStay t t' := by
  unfold bindToMessage at h
  simp only at h
  split at h
  · nomatch h
  · split at h
    · nomatch h
    · split at h
      · nomatch h
      · obtain rfl := congrArg Prod.snd (Except.ok.inj h)
        exact .update rfl fun a _ => ⟨rfl, rfl, rfl, rfl, rfl, fun h => h, fun h => h⟩

theorem deleteUnbound_stays {floor : ℤ → ℤ} {id : Uuid} {now : Int} {r : Unit}
    (h : deleteUnbound floor id now t = .ok (r, t')) : RowsStay t t' := by
  unfold deleteUnbound at h
  split at h
  · nomatch h
  · obtain rfl := congrArg Prod.snd (Except.ok.inj h)
    simp only [← insertJobs_one]
    exact .removal floor t _ _ _ _

theorem enqueueConversationStorageDeletion_stays (floor : ℤ → ℤ) (conversationIds : List Uuid)
    (deleteMetadata : Bool) (now : Int) (t : Tables) :
    RowsStay t
      (enqueueConversationStorageDeletion floor conversationIds deleteMetadata now t).2 := by
  unfold enqueueConversationStorageDeletion
  simp only
  split
  · exact (RowsStay.removal floor t _ 0 0 _).trans (.of_same rfl)
  · exact .insertJobs t _

theorem deleteConversation_stays (floor : ℤ → ℤ) (id : Uuid) (now : Int) (t : Tables) :
    RowsStay t (deleteConversation floor id now t).2 := by
  unfold deleteConversation
  split
  · exact .refl t
  · refine RowsStay.trans ?_ (enqueueConversationStorageDeletion_stays floor [id] true now _)
    exact .of_same rfl

theorem clearConversationData_stays (floor : ℤ → ℤ) (now : Int) (t : Tables) :
    RowsStay t (clearConversationData floor now t).2 := by
  unfold clearConversationData
  simp only
  have hremove := enqueueConversationStorageDeletion_stays floor (t.conversations.map (·.id)) true
    now t
  split
  · exact hremove
  · unfold deleteConversations
    exact (hremove.trans (.delete _ _)).trans (.of_same rfl)

theorem prepareUserDeletion_stays (now : Int) (t : Tables) :
    RowsStay t (prepareUserDeletion now t) := by
  unfold prepareUserDeletion
  split
  · exact .refl t
  · exact (enqueueConversationStorageDeletion_stays greatest [] false now t).trans (.of_same rfl)

theorem deleteUser_stays (t : Tables) : RowsStay t (deleteUser t) := by
  unfold deleteUser
  split
  · exact .refl t
  · exact fun _ h => nomatch h

theorem enqueueExpiredOrphans_stays (floor : ℤ → ℤ) (picked : List Uuid) (now : Int) (t : Tables) :
    RowsStay t (enqueueExpiredOrphans floor picked now t).2 := by
  unfold enqueueExpiredOrphans
  refine RowsStay.foldl (fun t row => ?_) _ t
  unfold expireOrphan
  simp only [← insertJobs_one]
  exact .removal floor t _ _ _ _

theorem createArtifact_stays {input : CreateArtifactInput} {r : Artifact}
    (h : createArtifact input t = .ok (r, t')) : RowsStay t t' := by
  obtain ⟨-, -, -, -, rfl⟩ := createArtifact_ok h
  exact .of_same rfl

theorem reserveFile_stays {input : ReserveFileInput} {now : Int} {r : Unit} (hw : WellFormed t)
    (h : reserveFile input now t = .ok (r, t')) : RowsStay t t' := by
  obtain ⟨-, -, -, -, -, rfl⟩ := reserveFile_ok hw h
  exact .of_same rfl

theorem commitFile_stays {fileId artifactId : Uuid} {r : ArtifactFile}
    (h : commitFile fileId artifactId t = .ok (r, t')) : RowsStay t t' := by
  unfold commitFile at h
  split at h
  · nomatch h
  · obtain rfl := congrArg Prod.snd (Except.ok.inj h)
    exact .of_same rfl

theorem completeArtifact_stays {artifactId conversationId : Uuid} {now : Int} {r : Artifact}
    (h : completeArtifact artifactId conversationId now t = .ok (r, t')) : RowsStay t t' := by
  unfold completeArtifact at h
  simp only at h
  split at h
  · nomatch h
  · split at h
    · nomatch h
    · split at h
      · nomatch h
      · obtain rfl := congrArg Prod.snd (Except.ok.inj h)
        exact .of_same rfl

theorem failArtifact_stays {floor : ℤ → ℤ} {artifactId conversationId : Uuid} {now : Int}
    {r : List ObjectKey} (h : failArtifact floor artifactId conversationId now t = .ok (r, t')) :
    RowsStay t t' := by
  unfold failArtifact at h
  simp only at h
  split at h
  · nomatch h
  · split at h
    · obtain rfl := congrArg Prod.snd (Except.ok.inj h)
      exact .refl t
    · obtain rfl := congrArg Prod.snd (Except.ok.inj h)
      refine RowsStay.trans ?_ (.of_same rfl)
      split
      · exact (RowsStay.insertJobs t _).trans (.of_same rfl)
      · exact .insertJobs t _

theorem cleanupRunArtifacts_stays (floor : ℤ → ℤ) (input : CleanupInput) (now : Int)
    (t : Tables) : RowsStay t (cleanupRunArtifacts floor input now t) := by
  unfold cleanupRunArtifacts
  simp only
  split
  · refine RowsStay.trans ?_ (.trans (.insertJobs (t.release floor
      (fileBytes .committed ((filesOf t (runArtifact t input)).filter fun file =>
        file.deletionStatus == .active))
      (fileBytes .reserved ((filesOf t (runArtifact t input)).filter fun file =>
        file.deletionStatus == .active))) _) (.of_same rfl))
    exact .of_same rfl
  · exact (RowsStay.insertJobs t _).trans (.of_same rfl)

/-- The work on a parse job leaves the columns of the upload alone. -/
theorem updateLeased_stays {job : ChatAttachmentParseJob} {f : Attachment → Attachment} {u : Unit}
    (hf : ∀ a : Attachment, a.Stays (f a)) (h : updateLeased job f t = .ok (u, t')) :
    RowsStay t t' := by
  unfold updateLeased at h
  split at h
  · obtain rfl := congrArg Prod.snd (Except.ok.inj h)
    exact .update rfl fun a _ => hf a
  · nomatch h

theorem saveChunksAndComplete_stays {job : ChatAttachmentParseJob}
    {chunks : List PrivateAttachmentChunk} {provider : String} {now : Int} {u : Unit}
    (h : saveChunksAndComplete job chunks provider now t = .ok (u, t')) : RowsStay t t' := by
  unfold saveChunksAndComplete at h
  split at h
  · nomatch h
  · split at h
    · nomatch h
    · obtain ⟨t₁, hchunks, h⟩ := Except.bind_ok_iff.mp h
      have hsame : t₁.attachments = t.attachments := by
        unfold insertChunks at hchunks
        split at hchunks
        · nomatch hchunks
        · split at hchunks
          · nomatch hchunks
          · injection hchunks with hchunks
            rw [← hchunks]
      refine (RowsStay.of_same hsame).trans (updateLeased_stays (fun a => ?_) h)
      exact ⟨rfl, rfl, rfl, rfl, rfl, fun h => h, fun h => nomatch h⟩

theorem claimAttachmentParse_stays (id : Uuid) (workerId : String) (leaseToken : Uuid) (now : Int)
    (t : Tables) : RowsStay t (claimAttachmentParse id workerId leaseToken now t).2 := by
  unfold claimAttachmentParse
  split
  · exact .refl t
  · exact .update rfl fun a _ => ⟨rfl, rfl, rfl, rfl, rfl, fun h => h, fun h => h⟩

end Transactions

/-! ## 3. The steps -/

/-- The steps that start, commit or reopen an upload. -/
def Action.movesUpload : Action → Bool
  | .initiate .. => true
  | .completeVerified .. => true
  | .resetCompletion .. => true
  | _ => false

theorem parseStep_stays {s : Storage} {job : ChatAttachmentParseJob}
    {tx : Tables → Except StorageError (Unit × Tables)}
    (h : ∀ b t', tx s.tables = .ok (b, t') → RowsStay s.tables t') :
    RowsStay s.tables (s.parseStep job tx).tables := by
  unfold Storage.parseStep
  split
  · exact .transact h
  · exact .refl _

section Steps

variable [JsString.Sha256] {floor : ℤ → ℤ} {s : Storage}

/-- **No other step commits or reopens an upload, or gives it another key or size.** -/
theorem step_stays (hs : Sound s) {action : Action} (h : action.movesUpload = false) :
    RowsStay s.tables (s.step floor action).tables := by
  have hrow (conversationId : Uuid) {f : Tables → Tables}
      (hf : RowsStay s.tables (f s.tables)) :
      RowsStay s.tables (s.addRow conversationId f).tables := by
    unfold Storage.addRow
    split
    · exact hf
    · exact .refl _
  have hworked {t' : Tables} (hw : Worked s.tables t') : RowsStay s.tables t' :=
    .of_same (worked_attachments hw)
  cases action with
  | tick ms => exact .refl _
  | addConversation id =>
    unfold Storage.step
    simp only
    split
    · exact .refl _
    · exact .of_same rfl
  | addMessage message => exact hrow _ (.of_same rfl)
  | addRun run => exact hrow _ (.of_same rfl)
  | settleRun id => exact .of_same rfl
  | beginCompletion id => exact .transact fun _ _ ht => beginCompletion_stays ht
  | rejectCompletion id code message =>
    exact rejectCompletion_stays id code message s.now s.tables
  | bindToMessage ids conversationId messageId =>
    exact .transact fun _ _ ht => bindToMessage_stays ht
  | deleteUnbound id => exact .transact fun _ _ ht => deleteUnbound_stays ht
  | createArtifact input =>
    unfold Storage.step
    simp only
    split
    · exact .refl _
    · exact RowsStay.transact (s := s.draw input.artifactId) fun _ _ ht => createArtifact_stays ht
  | reserveFile fileId artifactId conversationId format filename sizeBytes =>
    unfold Storage.step
    simp only
    split
    · exact .refl _
    · unfold Storage.reserve
      split
      · next t' ht => exact reserveFile_stays hs.wellFormed ht
      · exact .refl _
  | commitFile call acknowledged =>
    unfold Storage.step Storage.commit
    simp only
    split
    · exact .refl _
    · split
      · next t' ht => exact commitFile_stays ht
      · exact .refl _
  | abortFile call => exact .of_same (abort_attachments floor s call)
  | completeArtifact artifactId conversationId =>
    exact .transact fun _ _ ht => completeArtifact_stays ht
  | failArtifact artifactId conversationId => exact .transact fun _ _ ht => failArtifact_stays ht
  | cleanupRunArtifacts input => exact cleanupRunArtifacts_stays floor input s.now s.tables
  | deleteConversation id => exact deleteConversation_stays floor id s.now s.tables
  | clearConversationData => exact clearConversationData_stays floor s.now s.tables
  | prepareUserDeletion => exact prepareUserDeletion_stays s.now s.tables
  | deleteUser => exact deleteUser_stays s.tables
  | enqueueExpiredOrphans picked => exact enqueueExpiredOrphans_stays floor picked s.now s.tables
  | claimDeletion objectKey workerId leaseToken =>
    unfold Storage.step
    simp only
    split
    · exact .refl _
    · exact hworked (claimDeletion_worked objectKey workerId leaseToken s.now s.tables)
  | markDeletionSucceeded claimed =>
    exact hworked (deletionStep_worked fun _ _ ht => markDeletionSucceeded_worked ht)
  | markDeletionFailed claimed message retryable retryAt =>
    exact hworked (deletionStep_worked fun _ _ ht => markDeletionFailed_worked ht)
  | claimAttachmentParse id workerId leaseToken =>
    unfold Storage.step
    simp only
    split
    · exact .refl _
    · exact claimAttachmentParse_stays id workerId leaseToken s.now s.tables
  | renewAttachmentLease job =>
    refine parseStep_stays fun _ _ ht => updateLeased_stays (fun a => ?_) ht
    exact ⟨rfl, rfl, rfl, rfl, rfl, fun h => h, fun h => h⟩
  | markParserSubmitted job parserJobId provider retryAt =>
    refine parseStep_stays fun _ _ ht => updateLeased_stays (fun a => ?_) ht
    exact ⟨rfl, rfl, rfl, rfl, rfl, fun h => h, fun h => h⟩
  | deferParserPoll job retryAt =>
    refine parseStep_stays fun _ _ ht => updateLeased_stays (fun a => ?_) ht
    exact ⟨rfl, rfl, rfl, rfl, rfl, fun h => h, fun h => h⟩
  | saveChunksAndComplete job source provider =>
    unfold Storage.step
    simp only
    split
    · exact parseStep_stays fun _ _ ht => saveChunksAndComplete_stays ht
    · exact .refl _
  | markAttachmentFailed job retryable retryAt =>
    refine parseStep_stays fun _ _ ht => updateLeased_stays (fun a => ?_) ht
    refine ⟨rfl, rfl, rfl, rfl, rfl, fun h => h, fun hb => ?_⟩
    unfold Attachment.beginnable at hb
    dsimp only at hb
    split at hb <;> nomatch hb
  | _ => nomatch h

/-- **No step takes a deletion job away.** -/
theorem step_hasJob (hs : Sound s) (action : Action) {objectKey : ObjectKey}
    (h : HasJob s.tables objectKey) : HasJob (s.step greatest action).tables objectKey := by
  have hstep := @step_changes (fun _ _ => True) s _ greatest greatest_exact hs action
    fun _ _ _ _ => True.intro
  rcases hstep with hc | hc
  · exact @Changes.invariant _ _ (fun t => HasJob t objectKey) (fun _ _ h => h.hasJob) _ _ hc.2 h
  · exact hc.2.hasJob.mpr h

/-- **A claimed deletion has its job.** -/
theorem step_deleting (hs : Sound s) (action : Action)
    (h : ∀ claimed ∈ s.deleting, HasJob s.tables claimed.objectKey) :
    ∀ claimed ∈ (s.step greatest action).deleting,
      HasJob (s.step greatest action).tables claimed.objectKey := by
  intro claimed hclaimed
  cases hworks : action.worksDeletion with
  | false =>
    rw [(step_frame greatest s action).deleting hworks] at hclaimed
    exact step_hasJob hs action (h claimed hclaimed)
  | true =>
    cases action with
    | claimDeletion objectKey workerId leaseToken =>
      by_cases hold : claimed ∈ s.deleting
      · exact step_hasJob hs _ (h claimed hold)
      · -- a new claim is that of a job in the table
        refine step_hasJob hs _ ?_
        unfold Storage.step at hclaimed
        simp only at hclaimed
        split at hclaimed
        · exact absurd hclaimed hold
        · rcases List.mem_append.mp hclaimed with hnew | hnew
          · unfold claimDeletion at hnew
            split at hnew
            · nomatch hnew
            · next job hfind =>
              obtain rfl := List.mem_singleton.mp hnew
              have hcond := List.find?_some hfind
              rw [Bool.and_eq_true, beq_iff_eq] at hcond
              exact ⟨job, List.mem_of_find?_eq_some hfind, hcond.1⟩
          · exact absurd hnew hold
    | markDeletionSucceeded claimed' =>
      refine step_hasJob hs _ (h claimed ?_)
      unfold Storage.step Storage.deletionStep at hclaimed
      simp only at hclaimed
      split at hclaimed
      · exact hclaimed
      · exact hclaimed
    | markDeletionFailed claimed' message retryable retryAt =>
      refine step_hasJob hs _ (h claimed ?_)
      unfold Storage.step Storage.deletionStep at hclaimed
      simp only at hclaimed
      split at hclaimed
      · exact hclaimed
      · exact hclaimed
    | _ => nomatch hworks

end Steps

end OpenVac.ChatStorage
