/-
  File:      OpenVac/ChatStorage/Transactions.lean
  Subject:   Every transaction of the chat storage is a series of changes.

  * `Known`, `Sound` -- what the changes need: ids are drawn, keys name their row.
  * `HasJob`, `covered_purge` -- the jobs of a removal.
  * One lemma for each transaction, `…_quiet`, `…_change` or `…_changes`; `due` says when the
    deletion of an attachment's object may run.
-/
import OpenVac.ChatStorage.Changes

namespace OpenVac.ChatStorage

open Rows

/-! ## 1. Soundness -/

/-- Ids are drawn, keys name their row. -/
structure Known (issued : List Uuid) (t : Tables) : Prop where
  attachmentIds : ∀ a ∈ t.attachments, a.id ∈ issued
  attachmentKeys : ∀ a ∈ t.attachments,
    ∃ filename, a.objectKey = .attachment a.conversationId a.id filename
  artifactIds : ∀ a ∈ t.artifacts, a.id ∈ issued
  fileIds : ∀ f ∈ t.files, f.id ∈ issued
  fileKeys : ∀ f ∈ t.files,
    ∃ conversationId filename, f.objectKey = .artifact conversationId f.artifactId f.id filename
  jobKeys : ∀ job ∈ t.jobs, job.objectKey.sourceId ∈ issued

structure Sound (s : Storage) : Prop where
  wellFormed : WellFormed s.tables
  balanced : Balanced s.tables
  known : Known s.issued s.tables
  calls : ∀ call ∈ s.persisting, call.fileId ∈ s.issued ∧
    ∃ conversationId filename,
      call.objectKey = .artifact conversationId call.artifactId call.fileId filename

theorem Known.mono {issued issued' : List Uuid} {t : Tables} (h : Known issued t)
    (hsub : ∀ id ∈ issued, id ∈ issued') : Known issued' t where
  attachmentIds := fun a ha => hsub _ (h.attachmentIds a ha)
  attachmentKeys := h.attachmentKeys
  artifactIds := fun a ha => hsub _ (h.artifactIds a ha)
  fileIds := fun f hf => hsub _ (h.fileIds f hf)
  fileKeys := h.fileKeys
  jobKeys := fun job hj => hsub _ (h.jobKeys job hj)

/-- A job of the tables was there or is one of the inserted ones. -/
theorem mem_insertJobs {t : Tables} {jobs : List DeletionJob} {job : DeletionJob}
    (h : job ∈ (t.insertJobs jobs).jobs) : job ∈ t.jobs ∨ job ∈ jobs := by
  unfold Tables.insertJobs at h
  induction jobs generalizing t with
  | nil => exact Or.inl h
  | cons first jobs ih =>
    rcases ih h with h' | h'
    · unfold Tables.insertJob at h'
      split at h'
      · exact Or.inl h'
      · rcases List.mem_append.mp h' with h'' | h''
        · exact Or.inl h''
        · rw [List.mem_singleton.mp h'']
          exact Or.inr List.mem_cons_self
    · exact Or.inr (List.mem_cons_of_mem _ h')

theorem mem_requeueJob {t : Tables} {sourceId : Uuid} {objectKey : ObjectKey} {now : Int}
    {job : DeletionJob} (h : job ∈ (requeueJob t sourceId objectKey now).jobs) :
    (∃ known ∈ t.jobs, job.objectKey = known.objectKey) ∨ job.objectKey = objectKey := by
  unfold requeueJob at h
  split at h
  · obtain ⟨known, hknown, rfl⟩ := mem_updateWhere.mp h
    refine Or.inl ⟨known, hknown, ?_⟩
    split <;> rfl
  · rw [← insertJobs_one] at h
    rcases mem_insertJobs h with h' | h'
    · exact Or.inl ⟨job, h', rfl⟩
    · rw [List.mem_singleton.mp h']
      exact Or.inr rfl

section Known

variable {due : Attachment → Int → Prop} {issued : List Uuid} {t t' : Tables}

theorem JobsOf.known {p : Attachment → Bool} {q : ArtifactFile → Bool} {jobs : List DeletionJob}
    (h : JobsOf due t p q jobs) (hk : Known issued t) :
    ∀ job ∈ (t.insertJobs jobs).jobs, job.objectKey.sourceId ∈ issued := by
  intro job hjob
  rcases mem_insertJobs hjob with hold | hnew
  · exact hk.jobKeys job hold
  · rcases h job hnew with ⟨a, ha, -, -, he⟩ | ⟨f, hf, -, he⟩
    · obtain ⟨filename, hkey⟩ := hk.attachmentKeys a ha
      rw [he]
      show a.objectKey.sourceId ∈ issued
      rw [hkey]
      exact hk.attachmentIds a ha
    · obtain ⟨conversationId, filename, hkey⟩ := hk.fileKeys f hf
      rw [he]
      show f.objectKey.sourceId ∈ issued
      rw [hkey]
      exact hk.fileIds f hf

/-- Attachments with the same id, home and key. -/
theorem Known.attachments {rows : List Attachment} (hk : Known issued t)
    (h : ∀ a' ∈ rows, ∃ a ∈ t.attachments, a'.id = a.id ∧ a'.conversationId = a.conversationId ∧
      a'.objectKey = a.objectKey) :
    (∀ a ∈ rows, a.id ∈ issued) ∧
      ∀ a ∈ rows, ∃ filename, a.objectKey = .attachment a.conversationId a.id filename := by
  constructor
  · intro a' ha'
    obtain ⟨a, ha, hid, -, -⟩ := h a' ha'
    rw [hid]
    exact hk.attachmentIds a ha
  · intro a' ha'
    obtain ⟨a, ha, hid, hc, hkey⟩ := h a' ha'
    rw [hid, hc, hkey]
    exact hk.attachmentKeys a ha

theorem Known.setAttachment {a : Attachment} {f : Attachment → Attachment} {move}
    (hk : Known issued t) (hw : WellFormed t) (ha : a ∈ t.attachments) (hid : (f a).id = a.id)
    (hc : (f a).conversationId = a.conversationId) (hkey : (f a).objectKey = a.objectKey) :
    (∀ b ∈ ((t.updateAccount move).setAttachment a.id f).attachments, b.id ∈ issued) ∧
      ∀ b ∈ ((t.updateAccount move).setAttachment a.id f).attachments,
        ∃ filename, b.objectKey = .attachment b.conversationId b.id filename := by
  refine hk.attachments fun b hb => ?_
  rcases mem_setAttachment hw ha hb with rfl | ⟨hb, -⟩
  · exact ⟨a, ha, hid, hc, hkey⟩
  · exact ⟨b, hb, rfl, rfl, rfl⟩

theorem Change.known (h : Change due issued t t') (hw : WellFormed t) (hk : Known issued t) :
    Known issued t' := by
  cases h with
  | quiet t' h =>
    obtain ⟨h1, h2⟩ := hk.attachments fun a' (ha' : a' ∈ t'.attachments) => by
      obtain ⟨a, ha, he⟩ := mem_of_holdings h.holdings ha'
      exact ⟨a, ha, (congrArg Holding.id he).symm, (congrArg Holding.conversationId he).symm,
        (congrArg Holding.objectKey he).symm⟩
    exact ⟨h1, h2, h.artifacts ▸ hk.artifactIds, h.files ▸ hk.fileIds, h.files ▸ hk.fileKeys,
      h.jobs ▸ hk.jobKeys⟩
  | initiate row _ hdrawn _ _ _ hkey _ _ _ _ =>
    refine ⟨?_, ?_, hk.artifactIds, hk.fileIds, hk.fileKeys, hk.jobKeys⟩
    · intro a ha
      rcases List.mem_append.mp ha with h | h
      · exact hk.attachmentIds a h
      · rw [List.mem_singleton.mp h]
        exact hdrawn
    · intro a ha
      rcases List.mem_append.mp ha with h | h
      · exact hk.attachmentKeys a h
      · rw [List.mem_singleton.mp h]
        exact hkey
  | complete a f ha _ _ hf =>
    obtain ⟨h1, h2⟩ := hk.setAttachment hw ha (congrArg Holding.id hf)
      (congrArg Holding.conversationId hf) (congrArg Holding.objectKey hf)
    exact ⟨h1, h2, hk.artifactIds, hk.fileIds, hk.fileKeys, hk.jobKeys⟩
  | reject a f runAt ha _ _ _ hf =>
    obtain ⟨h1, h2⟩ := hk.setAttachment hw ha (congrArg Holding.id hf)
      (congrArg Holding.conversationId hf) (congrArg Holding.objectKey hf)
    rw [← insertJobs_one]
    refine ⟨?_, ?_, ?_, ?_, ?_, ?_⟩
    · rw [insertJobs_attachments]; exact h1
    · rw [insertJobs_attachments]; exact h2
    · rw [insertJobs_artifacts]; exact hk.artifactIds
    · rw [insertJobs_files]; exact hk.fileIds
    · rw [insertJobs_files]; exact hk.fileKeys
    · intro job hjob
      rcases mem_insertJobs hjob with hold | hnew
      · exact hk.jobKeys job hold
      · obtain ⟨filename, hkey⟩ := hk.attachmentKeys a ha
        rw [List.mem_singleton.mp hnew]
        show a.objectKey.sourceId ∈ issued
        rw [hkey]
        exact hk.attachmentIds a ha
  | remove p q r jobs _ hjobs _ =>
    refine ⟨?_, ?_, ?_, ?_, ?_, hjobs.known hk⟩
    · rw [purge_attachments]
      exact fun a ha => hk.attachmentIds a (mem_deleteWhere.mp ha).1
    · rw [purge_attachments]
      exact fun a ha => hk.attachmentKeys a (mem_deleteWhere.mp ha).1
    · exact fun a ha => hk.artifactIds a (mem_deleteWhere.mp ha).1
    · exact fun f hf => hk.fileIds f (mem_deleteWhere.mp hf).1
    · exact fun f hf => hk.fileKeys f (mem_deleteWhere.mp hf).1
  | createArtifact row hdrawn _ _ =>
    refine ⟨hk.attachmentIds, hk.attachmentKeys, ?_, hk.fileIds, hk.fileKeys, hk.jobKeys⟩
    intro a ha
    rcases List.mem_append.mp ha with h | h
    · exact hk.artifactIds a h
    · rw [List.mem_singleton.mp h]
      exact hdrawn
  | settle selected f hf _ =>
    refine ⟨hk.attachmentIds, hk.attachmentKeys, ?_, hk.fileIds, hk.fileKeys, hk.jobKeys⟩
    intro a ha
    have hstem : ∃ a₀ ∈ t.artifacts, a.id = a₀.id :=
      mem_updateWhere_stem (fun a => (hf a).1) ha
    obtain ⟨a₀, ha₀, he⟩ := hstem
    rw [he]
    exact hk.artifactIds a₀ ha₀
  | reserveFile row _ hdrawn _ _ _ hkey _ _ _ =>
    refine ⟨hk.attachmentIds, hk.attachmentKeys, hk.artifactIds, ?_, ?_, hk.jobKeys⟩
    · intro f hf
      rcases List.mem_append.mp hf with h | h
      · exact hk.fileIds f h
      · rw [List.mem_singleton.mp h]
        exact hdrawn
    · intro f hf
      rcases List.mem_append.mp hf with h | h
      · exact hk.fileKeys f h
      · rw [List.mem_singleton.mp h]
        exact hkey
  | commitFile file _ _ =>
    refine ⟨hk.attachmentIds, hk.attachmentKeys, hk.artifactIds, ?_, ?_, hk.jobKeys⟩
    · intro f hf
      obtain ⟨f₀, hf₀, rfl⟩ := mem_updateWhere.mp hf
      have h := hk.fileIds f₀ hf₀
      split <;> exact h
    · intro f hf
      obtain ⟨f₀, hf₀, rfl⟩ := mem_updateWhere.mp hf
      have h := hk.fileKeys f₀ hf₀
      split <;> exact h
  | requeue sourceId objectKey now hdrawn _ _ =>
    obtain ⟨jobs, he⟩ := requeueJob_eq t sourceId objectKey now
    have hjobs : ∀ job ∈ (requeueJob t sourceId objectKey now).jobs,
        job.objectKey.sourceId ∈ issued := by
      intro job hjob
      rcases mem_requeueJob hjob with ⟨known, hknown, hk'⟩ | hk'
      · rw [hk']
        exact hk.jobKeys known hknown
      · rw [hk']
        exact hdrawn
    rw [he t rfl] at hjobs ⊢
    exact ⟨hk.attachmentIds, hk.attachmentKeys, hk.artifactIds, hk.fileIds, hk.fileKeys, hjobs⟩
  | requestDeletion jobs at' hjobs _ =>
    refine ⟨?_, ?_, ?_, ?_, ?_, hjobs.known hk⟩
    · show ∀ a ∈ (t.insertJobs jobs).attachments, _
      rw [insertJobs_attachments]; exact hk.attachmentIds
    · show ∀ a ∈ (t.insertJobs jobs).attachments, _
      rw [insertJobs_attachments]; exact hk.attachmentKeys
    · show ∀ a ∈ (t.insertJobs jobs).artifacts, _
      rw [insertJobs_artifacts]; exact hk.artifactIds
    · show ∀ f ∈ (t.insertJobs jobs).files, _
      rw [insertJobs_files]; exact hk.fileIds
    · show ∀ f ∈ (t.insertJobs jobs).files, _
      rw [insertJobs_files]; exact hk.fileKeys
  | forget hrequested =>
    unfold deleteUser
    split
    · exact hk
    · constructor
      · intro a ha
        nomatch ha
      · intro a ha
        nomatch ha
      · intro a ha
        nomatch ha
      · intro f hf
        nomatch hf
      · intro f hf
        nomatch hf
      · exact hk.jobKeys

end Known

/-! ## 2. Jobs of a removal -/

theorem hasJob_of_jobs {t t' : Tables} {objectKey : ObjectKey} (h : HasJob t objectKey)
    (he : t'.jobs = t.jobs) : HasJob t' objectKey := by
  unfold HasJob
  rw [he]
  exact h

theorem HasJob.insertJobs {t : Tables} {objectKey : ObjectKey} (h : HasJob t objectKey)
    (jobs : List DeletionJob) : HasJob (t.insertJobs jobs) objectKey := by
  obtain ⟨more, he⟩ := insertJobs_eq t jobs
  obtain ⟨job, hjob, hkey⟩ := h
  rw [he]
  exact ⟨job, List.mem_append_left _ hjob, hkey⟩

/-- **A job that is inserted is there**, or one for its key was. -/
theorem hasJob_of_mem {t : Tables} {jobs : List DeletionJob} {job : DeletionJob}
    (h : job ∈ jobs) : HasJob (t.insertJobs jobs) job.objectKey := by
  induction jobs generalizing t with
  | nil => nomatch h
  | cons first jobs ih =>
    rcases List.mem_cons.mp h with rfl | h
    · have hone : HasJob (t.insertJob job) job.objectKey := by
        unfold Tables.insertJob
        split
        · next hany =>
            obtain ⟨known, hknown, he⟩ := List.any_eq_true.mp hany
            exact ⟨known, hknown, beq_iff_eq.mp he⟩
        · exact ⟨job, List.mem_append_right _ (List.mem_singleton.mpr rfl), rfl⟩
      exact hone.insertJobs jobs
    · exact ih h

section Jobs

variable {due : Attachment → Int → Prop} {t : Tables}

theorem covered_purge {p : Attachment → Bool} {q : ArtifactFile → Bool} {r : Artifact → Bool}
    {jobs : List DeletionJob}
    (hp : ∀ a ∈ t.attachments, p a = true → ∃ job ∈ jobs, job.objectKey = a.objectKey)
    (hq : ∀ f ∈ t.files, q f = true → ∃ job ∈ jobs, job.objectKey = f.objectKey) :
    Covered t (t.purge p q r jobs) p q where
  attachments := fun a ha h => by
    obtain ⟨job, hjob, he⟩ := hp a ha h
    exact he ▸ hasJob_of_mem hjob
  files := fun f hf h => by
    obtain ⟨job, hjob, he⟩ := hq f hf h
    exact he ▸ hasJob_of_mem hjob

/-- The run-at of a deletion by the user, by a conversation or with the account. -/
def requestedRunAt (now : Int) (a : Attachment) : Int :=
  deletionRunAt a.quotaState (a.uploadExpiresAt + 60000) now

theorem purgeOne_change {issued : List Uuid} {a : Attachment} {runAt : Int}
    (hw : WellFormed t) (ha : a ∈ t.attachments) (hdue : due a runAt) :
    Change due issued t
      (t.purgeOne a (Tables.queuedJob .attachment a.id a.objectKey runAt)) := by
  refine .remove _ _ _ _ (fun _ _ _ _ _ _ => rfl) ?_ (covered_purge ?_ ?_)
  · intro job hjob
    obtain rfl := List.mem_singleton.mp hjob
    exact Or.inl ⟨a, ha, beq_self_eq_true _, hdue, rfl⟩
  · intro b hb hid
    rw [hw.attachmentIds.eq hb ha (beq_iff_eq.mp hid)]
    exact ⟨_, List.mem_singleton.mpr rfl, rfl⟩
  · intro f _ hf
    nomatch hf

theorem purgeFiles_change {issued : List Uuid} (q : ArtifactFile → Bool) (now : Int) :
    Change due issued t (t.purgeFiles q now) := by
  refine .remove _ _ _ _ (fun _ _ _ _ _ _ => rfl) ?_ (covered_purge ?_ ?_)
  · intro job hjob
    obtain ⟨f, hf, rfl⟩ := List.mem_map.mp hjob
    obtain ⟨hmem, hqf⟩ := List.mem_filter.mp hf
    exact Or.inr ⟨f, hmem, hqf, rfl⟩
  · intro a _ ha
    nomatch ha
  · intro f hf hqf
    exact ⟨_, List.mem_map.mpr ⟨f, List.mem_filter.mpr ⟨hf, hqf⟩, rfl⟩, rfl⟩

theorem failArtifacts_change {issued : List Uuid} (selected : Artifact → Bool) :
    Change due issued t (t.failArtifacts selected) :=
  .settle selected _ (fun _ => ⟨rfl, rfl⟩) fun _ _ _ => Or.inl rfl

theorem mem_storageJobs {conversationIds : List Uuid} {now : Int} {job : DeletionJob}
    (h : job ∈ storageJobs conversationIds now t) :
    (∃ a ∈ t.attachments, attachmentIn conversationIds a = true ∧
      job = Tables.queuedJob .attachment a.id a.objectKey (requestedRunAt now a)) ∨
    (∃ f ∈ t.files, isFileOf t (artifactIn conversationIds) f = true ∧
      job = Tables.queuedJob .artifact f.id f.objectKey job.runAt) := by
  rcases List.mem_append.mp h with h | h
  · obtain ⟨a, ha, rfl⟩ := List.mem_map.mp h
    obtain ⟨hmem, hp⟩ := List.mem_filter.mp ha
    exact Or.inl ⟨a, hmem, hp, rfl⟩
  · obtain ⟨f, hf, rfl⟩ := List.mem_map.mp h
    obtain ⟨hmem, hq⟩ := List.mem_filter.mp hf
    exact Or.inr ⟨f, hmem, hq, rfl⟩

theorem storageJobs_cover (conversationIds : List Uuid) (now : Int) :
    (∀ a ∈ t.attachments, attachmentIn conversationIds a = true →
      ∃ job ∈ storageJobs conversationIds now t, job.objectKey = a.objectKey) ∧
    (∀ f ∈ t.files, isFileOf t (artifactIn conversationIds) f = true →
      ∃ job ∈ storageJobs conversationIds now t, job.objectKey = f.objectKey) := by
  constructor
  · intro a ha hp
    exact ⟨_, List.mem_append_left _
      (List.mem_map.mpr ⟨a, List.mem_filter.mpr ⟨ha, hp⟩, rfl⟩), rfl⟩
  · intro f hf hq
    exact ⟨_, List.mem_append_right _
      (List.mem_map.mpr ⟨f, List.mem_filter.mpr ⟨hf, hq⟩, rfl⟩), rfl⟩

theorem purgeConversations_change {issued : List Uuid} (conversationIds : List Uuid) (now : Int)
    (hdue : ∀ a ∈ t.attachments, attachmentIn conversationIds a = true →
      due a (requestedRunAt now a)) :
    Change due issued t
      (t.purge (attachmentIn conversationIds) (isFileOf t (artifactIn conversationIds))
        (artifactIn conversationIds) (storageJobs conversationIds now t)) := by
  obtain ⟨hp, hq⟩ := storageJobs_cover (t := t) conversationIds now
  refine .remove _ _ _ _ ?_ ?_ (covered_purge hp hq)
  · intro f hf hkeep a ha he
    have hall := List.any_eq_false.mp hkeep a ha
    rw [he, beq_self_eq_true, Bool.true_and] at hall
    exact Bool.eq_false_iff.mpr hall
  · intro job hjob
    rcases mem_storageJobs hjob with ⟨a, ha, hpa, he⟩ | ⟨f, hf, hqf, he⟩
    · exact Or.inl ⟨a, ha, hpa, by rw [he]; exact hdue a ha hpa, by rw [he]; rfl⟩
    · exact Or.inr ⟨f, hf, hqf, he⟩

end Jobs

theorem hasJob_requeueJob (t : Tables) (sourceId : Uuid) (objectKey : ObjectKey) (now : Int) :
    HasJob (requeueJob t sourceId objectKey now) objectKey := by
  unfold requeueJob
  split
  · next hany =>
      obtain ⟨job, hjob, he⟩ := List.any_eq_true.mp hany
      refine ⟨_, mem_updateWhere_of_mem hjob, ?_⟩
      rw [if_pos he]
      exact beq_iff_eq.mp he
  · rw [← insertJobs_one]
    exact hasJob_of_mem (List.mem_singleton.mpr rfl)

/-! ## 3. Quiet transactions -/

theorem Quiet.refl (t : Tables) : Quiet t t :=
  ⟨rfl, rfl, rfl, rfl, rfl, rfl, rfl, fun _ _ h => h, fun _ _ h => h⟩

/-- An update of columns that hold neither bytes nor an object. -/
theorem Quiet.touch {t t' : Tables} {p : Attachment → Bool} {f : Attachment → Attachment}
    {chunks : List ChunkRow}
    (h : t' = { t with attachments := updateWhere p f t.attachments, chunks := chunks })
    (hf : ∀ a, (f a).holding = a.holding) : Quiet t t' := by
  subst h
  exact ⟨rfl, rfl, rfl, map_updateWhere hf _, rfl, rfl, rfl, fun _ _ h => h, fun _ _ h => h⟩

theorem addConversation_quiet (t : Tables) (id : Uuid) :
    Quiet t { t with conversations := t.conversations ++ [⟨id, true⟩] } := by
  refine ⟨rfl, rfl, rfl, rfl, rfl, rfl, rfl, ?_, ?_⟩
  · intro a _ ha
    rw [List.map_append]
    exact List.mem_append_left _ ha
  · intro a _ ha
    rw [List.map_append]
    exact List.mem_append_left _ ha

theorem conversationLive_home {t : Tables} {id : Uuid} (h : t.conversationLive id = true) :
    id ∈ t.conversations.map (·.id) := by
  obtain ⟨c, hc, he⟩ := List.any_eq_true.mp h
  rw [Bool.and_eq_true, beq_iff_eq] at he
  exact List.mem_map.mpr ⟨c, hc, he.1⟩

theorem updateLeased_quiet {job : ChatAttachmentParseJob} {f : Attachment → Attachment}
    {t t' : Tables} {r : Unit} (h : updateLeased job f t = .ok (r, t'))
    (hf : ∀ a, (f a).holding = a.holding) : Quiet t t' := by
  unfold updateLeased at h
  split at h
  · exact Quiet.touch (congrArg Prod.snd (Except.ok.inj h)).symm hf
  · nomatch h

theorem beginCompletion_quiet {id : Uuid} {t t' : Tables} {r : Attachment × Bool}
    (h : beginCompletion id t = .ok (r, t')) : Quiet t t' := by
  unfold beginCompletion at h
  split at h
  · nomatch h
  · split at h
    · obtain rfl := congrArg Prod.snd (Except.ok.inj h)
      exact Quiet.refl t
    · split at h
      · nomatch h
      · exact Quiet.touch (congrArg Prod.snd (Except.ok.inj h)).symm fun _ => rfl

theorem bindToMessage_quiet {ids : List Uuid} {conversationId messageId : Uuid} {t t' : Tables}
    {r : List Attachment} (h : bindToMessage ids conversationId messageId t = .ok (r, t')) :
    Quiet t t' := by
  unfold bindToMessage at h
  simp only at h
  split at h
  · nomatch h
  · split at h
    · nomatch h
    · split at h
      · nomatch h
      · exact Quiet.touch (congrArg Prod.snd (Except.ok.inj h)).symm fun _ => rfl

theorem claimAttachmentParse_quiet (id : Uuid) (workerId : String) (leaseToken : Uuid)
    (now : Int) (t : Tables) : Quiet t (claimAttachmentParse id workerId leaseToken now t).2 := by
  unfold claimAttachmentParse
  split
  · exact Quiet.refl t
  · exact Quiet.touch rfl fun _ => rfl

theorem saveChunksAndComplete_quiet {job : ChatAttachmentParseJob}
    {chunks : List PrivateAttachmentChunk} {provider : String} {now : Int} {t t' : Tables}
    {r : Unit} (h : saveChunksAndComplete job chunks provider now t = .ok (r, t')) :
    Quiet t t' := by
  unfold saveChunksAndComplete at h
  split at h
  · nomatch h
  · split at h
    · nomatch h
    · obtain ⟨t₂, hinsert, hupdate⟩ := Except.bind_ok_iff.mp h
      unfold insertChunks at hinsert
      split at hinsert
      · nomatch hinsert
      · split at hinsert
        · nomatch hinsert
        · obtain rfl := Except.ok.inj hinsert
          unfold updateLeased at hupdate
          split at hupdate
          · exact Quiet.touch (congrArg Prod.snd (Except.ok.inj hupdate)).symm fun _ => rfl
          · nomatch hupdate

/-! ## 4. The attachment service -/

section Attachments

variable {due : Attachment → Int → Prop} {issued drawn : List Uuid} {t t' : Tables}

/-- What an initiation that commits has checked and done. -/
theorem initiate_ok {input : InitiateInput} {now : Int} {r : Attachment}
    (h : initiate input now t = .ok (r, t')) :
    t.accountOpen = true ∧ t.conversationLive input.conversationId = true ∧
    t.accountRow.usedBytes + t.accountRow.reservedBytes + input.declaredSizeBytes ≤
      t.accountRow.limitBytes ∧
    0 < input.declaredSizeBytes ∧ (∀ a ∈ t.attachments, a.id ≠ input.id) ∧
    t' =
      { t with
        account := some
          { t.accountRow with
            reservedBytes := t.accountRow.reservedBytes + input.declaredSizeBytes }
        attachments := t.attachments ++ [initiatedRow input now] } := by
  unfold initiate at h
  simp only at h
  split at h
  · nomatch h
  · next hopen =>
    split at h
    · nomatch h
    · next hlive =>
      split at h
      · nomatch h
      · next hlimit =>
        split at h
        · nomatch h
        · next hsize =>
          split at h
          · nomatch h
          · next hunique =>
            simp only [Bool.or_eq_true, decide_eq_true_eq, not_or, not_le, not_lt] at hsize
            refine ⟨by simpa using hopen, by simpa using hlive, not_lt.mp hlimit, hsize.1, ?_,
              (congrArg Prod.snd (Except.ok.inj h)).symm⟩
            intro a ha he
            refine hunique (List.any_eq_true.mpr ⟨a, ha, ?_⟩)
            rw [he, beq_self_eq_true, Bool.true_or]

theorem initiate_change {input : InitiateInput} {now : Int} {r : Attachment}
    (hk : Known issued t) (hnew : input.id ∉ issued) (hdrawn : input.id ∈ drawn)
    (hkey : input.objectKey = .attachment input.conversationId input.id input.filename)
    (horphan : input.uploadExpiresAt + 60000 ≤ input.orphanExpiresAt)
    (h : initiate input now t = .ok (r, t')) : Change due drawn t t' := by
  obtain ⟨hopen, hlive, hlimit, hsize, hfresh, rfl⟩ := initiate_ok h
  refine .initiate (initiatedRow input now) hopen hdrawn hfresh ?_ (conversationLive_home hlive)
    ⟨input.filename, hkey⟩ ⟨rfl, rfl⟩ hsize hlimit horphan
  intro job hjob he
  have hold := hk.jobKeys job hjob
  rw [he] at hold
  exact hnew hold

theorem completeVerified_change {id : Uuid} {sizeBytes : ℤ} {etag : Option String} {now : Int}
    {r : Option Attachment} (h : completeVerified id sizeBytes etag now t = .ok (r, t')) :
    Change due drawn t t' := by
  unfold completeVerified at h
  split at h
  · nomatch h
  · next target hfind =>
    have hmem := List.mem_of_find?_eq_some hfind
    have hcond := List.find?_some hfind
    simp only [Bool.and_eq_true, beq_iff_eq] at hcond
    obtain ⟨⟨⟨hid, -⟩, hreserved⟩, hactive⟩ := hcond
    split at h
    · nomatch h
    · next hsize =>
      have hsize' : target.declaredSizeBytes = sizeBytes := not_not.mp hsize
      obtain rfl := congrArg Prod.snd (Except.ok.inj h)
      subst hid hsize'
      exact .complete target _ hmem ⟨hreserved, hactive⟩ (fun _ => rfl) rfl

theorem rejectCompletion_changes {id : Uuid} {code message : String} {now : Int}
    (hdue : ∀ a ∈ t.attachments, findScanning t id = some a → due a now) :
    Changes due drawn t (rejectCompletion id code message now t) := by
  unfold rejectCompletion
  split
  · exact .refl
  · next target hfind =>
    have hmem := List.mem_of_find?_eq_some hfind
    have hcond := List.find?_some hfind
    simp only [Bool.and_eq_true, beq_iff_eq] at hcond
    obtain ⟨⟨hid, -⟩, hreserved⟩ := hcond
    have hd := hdue target hmem hfind
    subst hid
    exact .single (.reject target _ now hmem hreserved hd (fun _ => rfl) rfl)

theorem deleteUnbound_change {floor : ℤ → ℤ} (hfloor : ∀ n, 0 ≤ n → floor n = n)
    (hw : WellFormed t) (hb : Balanced t) {id : Uuid} {now : Int} {r : Unit}
    (hdue : ∀ a ∈ t.attachments, isUnbound t id a = true → due a (requestedRunAt now a))
    (h : deleteUnbound floor id now t = .ok (r, t')) : Change due drawn t t' := by
  rw [deleteUnbound_eq hfloor hw hb] at h
  split at h
  · nomatch h
  · next a hfind =>
    have hmem := List.mem_of_find?_eq_some hfind
    obtain rfl := congrArg Prod.snd (Except.ok.inj h)
    exact purgeOne_change hw hmem (hdue a hmem (List.find?_some hfind))

end Attachments

/-! ## 5. The artifact service -/

section Artifacts

variable {due : Attachment → Int → Prop} {issued drawn : List Uuid} {t t' : Tables}

theorem createArtifact_ok {input : CreateArtifactInput} {r : Artifact}
    (h : createArtifact input t = .ok (r, t')) :
    t.conversationLive input.conversationId = true ∧ r.id = input.artifactId ∧
    r.conversationId = input.conversationId ∧ (∀ a ∈ t.artifacts, a.id ≠ input.artifactId) ∧
    t' = { t with artifacts := t.artifacts ++ [r] } := by
  unfold createArtifact at h
  simp only at h
  split at h
  · nomatch h
  · split at h
    · nomatch h
    · next hlive =>
      split at h
      · nomatch h
      · split at h
        · nomatch h
        · next hunique =>
          have hr := congrArg Prod.fst (Except.ok.inj h)
          have ht := congrArg Prod.snd (Except.ok.inj h)
          simp only at hr ht
          rw [hr] at ht
          refine ⟨by simpa using hlive, by rw [← hr], by rw [← hr], ?_, ht.symm⟩
          intro a ha he
          exact hunique (List.any_eq_true.mpr ⟨a, ha, beq_iff_eq.mpr he⟩)

theorem createArtifact_change {input : CreateArtifactInput} {r : Artifact}
    (hdrawn : input.artifactId ∈ drawn) (h : createArtifact input t = .ok (r, t')) :
    Change due drawn t t' := by
  obtain ⟨hlive, hid, hconversation, hfresh, rfl⟩ := createArtifact_ok h
  have hhome := conversationLive_home hlive
  rw [← hid] at hdrawn hfresh
  rw [← hconversation] at hhome
  exact .createArtifact r hdrawn hfresh hhome

/-- The artifact of the id is being generated: marking it so changes nothing. -/
theorem setGenerating_self (hw : WellFormed t) {artifactId : Uuid} {artifact : Artifact}
    (hfind : generatingArtifact t artifactId = some artifact) :
    updateWhere (fun a => a.id == artifactId) (fun a => { a with status := .generating })
      t.artifacts = t.artifacts := by
  have hmem := List.mem_of_find?_eq_some hfind
  have hcond := List.find?_some hfind
  simp only [Bool.and_eq_true, beq_iff_eq] at hcond
  refine updateWhere_eq_self fun a ha hid => ?_
  have he : a = artifact := hw.artifactIds.eq ha hmem ((beq_iff_eq.mp hid).trans hcond.1.1.symm)
  rw [he, ← hcond.1.2]

/-- What a reservation that commits has checked and done. -/
theorem reserveFile_ok {input : ReserveFileInput} {now : Int} {r : Unit} (hw : WellFormed t)
    (h : reserveFile input now t = .ok (r, t')) :
    t.accountOpen = true ∧ input.artifactId ∈ t.artifacts.map (·.id) ∧
    t.accountRow.usedBytes + t.accountRow.reservedBytes + input.sizeBytes ≤
      t.accountRow.limitBytes ∧
    0 < input.sizeBytes ∧ (∀ f ∈ t.files, f.id ≠ input.fileId) ∧
    t' =
      { t with
        files := t.files ++ [reservedFile input now]
        account := some
          { t.accountRow with
            reservedBytes := t.accountRow.reservedBytes + input.sizeBytes } } := by
  unfold reserveFile at h
  simp only at h
  split at h
  · nomatch h
  · next hopen =>
    split at h
    · nomatch h
    · split at h
      · nomatch h
      · next artifact hfind =>
        split at h
        · nomatch h
        · split at h
          · nomatch h
          · next hlimit =>
            split at h
            · nomatch h
            · split at h
              · nomatch h
              · next hsize =>
                split at h
                · nomatch h
                · next hunique =>
                  have he := congrArg Prod.snd (Except.ok.inj h)
                  unfold Tables.setArtifact at he
                  rw [setGenerating_self hw hfind] at he
                  simp only [Bool.or_eq_true, decide_eq_true_eq, not_or, not_le, not_lt] at hsize
                  have hmem := List.mem_of_find?_eq_some hfind
                  have hcond := List.find?_some hfind
                  simp only [Bool.and_eq_true, beq_iff_eq] at hcond
                  refine ⟨by simpa using hopen, List.mem_map.mpr ⟨artifact, hmem, hcond.1.1⟩,
                    not_lt.mp hlimit, hsize.1, ?_, he.symm⟩
                  intro f hf hid
                  refine hunique (List.any_eq_true.mpr ⟨f, hf, ?_⟩)
                  rw [hid, beq_self_eq_true, Bool.true_or]

theorem reserveFile_change {input : ReserveFileInput} {now : Int} {r : Unit}
    (hw : WellFormed t) (hk : Known issued t) (hnew : input.fileId ∉ issued)
    (hdrawn : input.fileId ∈ drawn)
    (hkey : input.objectKey =
      .artifact input.conversationId input.artifactId input.fileId input.filename)
    (h : reserveFile input now t = .ok (r, t')) : Change due drawn t t' := by
  obtain ⟨hopen, hhome, hlimit, hsize, hfresh, rfl⟩ := reserveFile_ok hw h
  refine .reserveFile (reservedFile input now) hopen hdrawn hfresh ?_ hhome
    ⟨input.conversationId, input.filename, hkey⟩ ⟨rfl, rfl⟩ hsize hlimit
  intro job hjob he
  have hold := hk.jobKeys job hjob
  rw [he] at hold
  exact hnew hold

theorem commitFile_change {fileId artifactId : Uuid} {r : ArtifactFile}
    (h : commitFile fileId artifactId t = .ok (r, t')) : Change due drawn t t' := by
  unfold commitFile at h
  split at h
  · nomatch h
  · next file hfind =>
    have hmem := List.mem_of_find?_eq_some hfind
    have hcond := List.find?_some hfind
    simp only [Bool.and_eq_true, beq_iff_eq] at hcond
    obtain ⟨⟨⟨⟨hid, -⟩, hreserved⟩, -⟩, -⟩ := hcond
    obtain rfl := congrArg Prod.snd (Except.ok.inj h)
    subst hid
    exact .commitFile file hmem hreserved

theorem completeArtifact_change {artifactId conversationId : Uuid} {now : Int} {r : Artifact}
    (hw : WellFormed t) (h : completeArtifact artifactId conversationId now t = .ok (r, t')) :
    Change due drawn t t' := by
  unfold completeArtifact at h
  split at h
  · nomatch h
  · next artifact hfind =>
    have hmem := List.mem_of_find?_eq_some hfind
    have hcond := List.find?_some hfind
    simp only [Bool.and_eq_true, beq_iff_eq] at hcond
    simp only at h
    split at h
    · nomatch h
    · split at h
      · nomatch h
      · obtain rfl := congrArg Prod.snd (Except.ok.inj h)
        refine .settle _ _ (fun _ => ⟨rfl, rfl⟩) fun a ha hid => Or.inr ⟨?_, rfl⟩
        rw [hw.artifactIds.eq ha hmem ((beq_iff_eq.mp hid).trans hcond.1.1.symm)]
        exact hcond.1.2

theorem failArtifact_changes {floor : ℤ → ℤ} (hfloor : ∀ n, 0 ≤ n → floor n = n)
    (hw : WellFormed t) (hb : Balanced t) {artifactId conversationId : Uuid} {now : Int}
    {r : List ObjectKey} (h : failArtifact floor artifactId conversationId now t = .ok (r, t')) :
    Changes due drawn t t' := by
  rw [failArtifact_eq hfloor hw hb] at h
  split at h
  · nomatch h
  · split at h
    · obtain rfl := congrArg Prod.snd (Except.ok.inj h)
      exact .refl
    · obtain rfl := congrArg Prod.snd (Except.ok.inj h)
      exact .tail (.single (purgeFiles_change _ now)) (failArtifacts_change _)

theorem cleanupRunArtifacts_changes {floor : ℤ → ℤ} (hfloor : ∀ n, 0 ≤ n → floor n = n)
    (hw : WellFormed t) (hb : Balanced t) (input : CleanupInput) (now : Int) :
    Changes due drawn t (cleanupRunArtifacts floor input now t) := by
  rw [cleanupRunArtifacts_eq hfloor hw hb]
  exact .tail (.single (purgeFiles_change _ now)) (failArtifacts_change _)

/-- The one file that an abort removes. -/
theorem filter_file (hw : WellFormed t) {file : ArtifactFile} (hmem : file ∈ t.files) :
    t.files.filter (fun f => f.id == file.id && f.artifactId == file.artifactId) = [file] := by
  rw [← filter_key hw.fileIds hmem]
  refine List.filter_congr fun f hf => ?_
  by_cases he : f.id = file.id
  · have hff : f = file := hw.fileIds.eq hf hmem he
    rw [hff]
    simp
  · have hne : (f.id == file.id) = false := beq_false_of_ne he
    rw [hne, Bool.false_and]

theorem fileBytes_one (file : ArtifactFile) (hreserved : file.quotaState = .reserved) :
    fileBytes .committed [file] = 0 ∧ fileBytes .reserved [file] = file.sizeBytes := by
  unfold fileBytes
  rw [sumWhere_cons, sumWhere_cons, hreserved]
  constructor
  · rfl
  · simp

/-- The release of one reserved file. -/
theorem release_file {floor : ℤ → ℤ} (hfloor : ∀ n, 0 ≤ n → floor n = n) (hw : WellFormed t)
    (hb : Balanced t) {file : ArtifactFile} (hmem : file ∈ t.files)
    (hreserved : file.quotaState = .reserved) :
    t.release floor 0 file.sizeBytes = t.deduct 0 file.sizeBytes := by
  have hrel := release_exact hfloor hw hb (rfl : t.account = t.account) (fun _ => false)
    (fun f => f.id == file.id && f.artifactId == file.artifactId)
  rw [usedOf_files, reservedOf_files, filter_file hw hmem, (fileBytes_one file hreserved).1,
    (fileBytes_one file hreserved).2] at hrel
  exact hrel

theorem abortFile_changes {floor : ℤ → ℤ} (hfloor : ∀ n, 0 ≤ n → floor n = n)
    (hw : WellFormed t) (hb : Balanced t) (hk : Known issued t) {fileId artifactId : Uuid}
    {objectKey : ObjectKey} {now : Int} {r : Unit} (hdrawn : fileId ∈ drawn)
    (hkey : ∃ conversationId filename,
      objectKey = .artifact conversationId artifactId fileId filename)
    (h : abortFile floor fileId artifactId objectKey now t = .ok (r, t')) :
    Changes due drawn t t' := by
  -- the artifact first: then the key may be queued anew, then the file may go
  have hsettle : Change due drawn t
      (t.setArtifact artifactId fun a => { a with status := .failed }) :=
    .settle _ _ (fun _ => ⟨rfl, rfl⟩) fun _ _ _ => Or.inl rfl
  have hrequeue : Change due drawn
      (t.setArtifact artifactId fun a => { a with status := .failed })
      (requeueJob (t.setArtifact artifactId fun a => { a with status := .failed })
        fileId objectKey now) := by
    obtain ⟨conversationId, filename, rfl⟩ := hkey
    refine .requeue _ _ _ hdrawn ⟨_, _, _, _, rfl⟩ fun f hf hkeyf a ha hid => ?_
    obtain ⟨c, n, hfk⟩ := hk.fileKeys f hf
    rw [hfk] at hkeyf
    obtain ⟨-, hart, -, -⟩ := ObjectKey.artifact.inj hkeyf
    obtain ⟨a₀, ha₀, rfl⟩ := mem_updateWhere.mp ha
    split at hid
    · next hsel => rw [if_pos hsel]
    · next hsel =>
        rw [hart] at hid
        exact absurd (beq_iff_eq.mpr hid) hsel
  obtain ⟨jobs, hjobs⟩ := requeueJob_eq t fileId objectKey now
  unfold abortFile at h
  simp only at h
  split at h
  · next file hfind =>
    have hmem := List.mem_of_find?_eq_some hfind
    have hcond := List.find?_some hfind
    simp only [Bool.and_eq_true, beq_iff_eq] at hcond
    obtain ⟨⟨hid, hart⟩, hreserved⟩ := hcond
    split at h
    · nomatch h
    · next hsame =>
      have hsame' : file.objectKey = objectKey := not_not.mp hsame
      have he := congrArg Prod.snd (Except.ok.inj h)
      refine .tail (.tail (.single hsettle) hrequeue) ?_
      have hone := filter_file hw hmem
      have hrel := release_file hfloor hw hb hmem hreserved
      rw [hid, hart] at hone
      have hpurge : t' =
          (requeueJob (t.setArtifact artifactId fun a => { a with status := .failed })
            fileId objectKey now).purge (fun _ => false)
            (fun f => f.id == fileId && f.artifactId == artifactId) (fun _ => false) [] := by
        refine he.symm.trans ?_
        rw [hrel, hjobs (t.deduct 0 file.sizeBytes) rfl, hjobs (t.setArtifact artifactId _) rfl]
        unfold Tables.purge Tables.deleteAttachments
        rw [insertJobs_nil, deleteWhere_false, deleteWhere_false, deleteChunks_false]
        unfold Tables.setArtifact Tables.deduct Tables.updateAccount
        rw [usedOf_files, reservedOf_files]
        simp only
        rw [hone, (fileBytes_one file hreserved).1, (fileBytes_one file hreserved).2]
      rw [hpurge]
      refine .remove _ _ _ _ (fun _ _ _ _ _ _ => rfl) (fun _ hjob => nomatch hjob) ⟨?_, ?_⟩
      · intro a _ ha
        nomatch ha
      · intro f hf hq
        rw [hjobs (t.setArtifact artifactId _) rfl] at hf
        have hff : f ∈ t.files.filter fun f => f.id == fileId && f.artifactId == artifactId :=
          List.mem_filter.mpr ⟨hf, hq⟩
        rw [hone] at hff
        rw [List.mem_singleton.mp hff, hsame']
        unfold HasJob
        rw [purge_jobs, insertJobs_nil]
        exact hasJob_requeueJob _ _ _ _
  · have he := congrArg Prod.snd (Except.ok.inj h)
    have hsame : t' = requeueJob (t.setArtifact artifactId fun a => { a with status := .failed })
        fileId objectKey now := by
      refine he.symm.trans ?_
      rw [hjobs t rfl, hjobs (t.setArtifact artifactId _) rfl]
      rfl
    rw [hsame]
    exact .tail (.single hsettle) hrequeue

end Artifacts

/-! ## 6. Deletions -/

section Deletions

variable {due : Attachment → Int → Prop} {drawn : List Uuid} {t : Tables}
variable {floor : ℤ → ℤ} (hfloor : ∀ n, 0 ≤ n → floor n = n)

/-- The tables whose conversation is marked. -/
theorem markConversation_quiet (t : Tables) (id : Uuid) :
    Quiet t
      { t with
        conversations := updateWhere (fun c => c.id == id) (fun c => { c with live := false })
          t.conversations } := by
  have hids : (updateWhere (fun c : Conversation => c.id == id)
      (fun c => { c with live := false }) t.conversations).map (·.id) =
        t.conversations.map (·.id) := by
    refine map_updateWhere ?_ _
    exact fun _ => rfl
  refine ⟨rfl, rfl, rfl, rfl, rfl, rfl, rfl, ?_, ?_⟩
  · intro a _ ha
    rw [← hids] at ha
    exact ha
  · intro a _ ha
    rw [← hids] at ha
    exact ha

/-- Once their rows are gone, the conversations may go. -/
theorem dropConversations_quiet (t : Tables) (ha : t.attachments = []) (hr : t.artifacts = [])
    (hf : t.files = []) : Quiet t (deleteConversations (fun _ => true) t) := by
  unfold deleteConversations Tables.deleteAttachments
  constructor
  · rfl
  · rfl
  · rfl
  · show (deleteWhere _ t.attachments).map _ = _
    rw [ha]
    rfl
  · show deleteWhere _ t.artifacts = _
    rw [hr]
    rfl
  · show deleteWhere _ t.files = _
    rw [hf]
    rfl
  · rfl
  · rw [ha]
    intro a h
    nomatch h
  · rw [hr]
    intro a h
    nomatch h

include hfloor

theorem deleteConversation_changes (hw : WellFormed t) (hb : Balanced t) (id : Uuid) (now : Int)
    (hdue : ∀ a ∈ t.attachments, t.conversationLive id = true → a.conversationId = id →
      due a (requestedRunAt now a)) :
    Changes due drawn t (deleteConversation floor id now t).2 := by
  unfold deleteConversation
  by_cases hlive : t.conversationLive id = true
  · have hquiet := markConversation_quiet t id
    rw [hlive]
    simp only [Bool.not_true, Bool.false_eq_true, if_false]
    rw [enqueueDeletion_eq hfloor (hw.quiet hquiet) (hb.quiet hquiet)]
    refine .tail (.single (.quiet _ hquiet)) (purgeConversations_change [id] now ?_)
    intro a ha hin
    refine hdue a ha hlive ?_
    unfold attachmentIn conversationFilter at hin
    simpa using hin
  · rw [Bool.not_eq_true] at hlive
    rw [hlive]
    exact .refl

theorem clearConversationData_changes (hw : WellFormed t) (hb : Balanced t) (now : Int)
    (hdue : ∀ a ∈ t.attachments, due a (requestedRunAt now a)) :
    Changes due drawn t (clearConversationData floor now t).2 := by
  have henqueue := enqueueDeletion_eq hfloor hw hb (t.conversations.map (·.id)) now
  have hpurge : Change due drawn t _ :=
    purgeConversations_change (t.conversations.map (·.id)) now fun a ha _ => hdue a ha
  unfold clearConversationData
  simp only
  rw [henqueue]
  split
  · exact .single hpurge
  · refine .tail (.single hpurge) (.quiet _ (dropConversations_quiet _ ?_ ?_ ?_))
    · rw [purge_attachments]
      refine List.filter_eq_nil_iff.mpr fun a ha => ?_
      have hhome := hw.attachmentHome a ha
      unfold attachmentIn conversationFilter
      rw [List.contains_iff_mem.mpr hhome]
      simp
    · rw [purge_artifacts]
      refine List.filter_eq_nil_iff.mpr fun a ha => ?_
      have hhome := hw.artifactHome a ha
      unfold artifactIn conversationFilter
      rw [List.contains_iff_mem.mpr hhome]
      simp
    · rw [purge_files]
      refine List.filter_eq_nil_iff.mpr fun f hf => ?_
      obtain ⟨a, ha, he⟩ := List.mem_map.mp (hw.fileHome f hf)
      have hhome := hw.artifactHome a ha
      have hin : isFileOf t (artifactIn (t.conversations.map (·.id))) f = true := by
        refine List.any_eq_true.mpr ⟨a, ha, ?_⟩
        unfold artifactIn conversationFilter
        rw [List.contains_iff_mem.mpr hhome, he]
        simp
      rw [hin]
      decide

theorem enqueueExpiredOrphans_changes (hw : WellFormed t) (hb : Balanced t)
    (picked : List Uuid) (now : Int)
    (hdue : ∀ a ∈ t.attachments, picked.contains a.id = true → isExpiredOrphan now a = true →
      due a now) :
    Changes due drawn t (enqueueExpiredOrphans floor picked now t).2 := by
  rw [enqueueExpiredOrphans_eq hfloor hw hb]
  have h : WellFormed (purgeOrphans now (pickedOrphans picked now t) t) ∧
      Changes due drawn t (purgeOrphans now (pickedOrphans picked now t) t) := by
    have hrule := @purgeOrphans_invariant (fun t' => WellFormed t' ∧ Changes due drawn t t') now
    refine hrule ⟨hw, .refl⟩ ?_ (fun a ha => (List.mem_filter.mp ha).1) ?_
    · exact List.Nodup.sublist (List.Sublist.map _ List.filter_sublist) hw.attachmentIds
    · intro t' a ha hmem hinv
      obtain ⟨hold, hpick⟩ := List.mem_filter.mp ha
      rw [Bool.and_eq_true] at hpick
      exact ⟨hinv.1.purgeOne a _,
        .tail hinv.2 (purgeOne_change hinv.1 hmem (hdue a hold hpick.1 hpick.2))⟩
  exact h.2

omit hfloor

theorem prepareUserDeletion_changes (hw : WellFormed t) (now : Int)
    (hdue : ∀ a ∈ t.attachments, t.user = true → due a (requestedRunAt now a)) :
    Changes due drawn t (prepareUserDeletion now t) := by
  unfold prepareUserDeletion
  by_cases huser : t.user = true
  · rw [huser]
    have he : (enqueueConversationStorageDeletion greatest [] false now t).2 =
        t.insertJobs (storageJobs [] now t) := rfl
    simp only [Bool.not_true, Bool.false_eq_true, if_false]
    rw [he]
    obtain ⟨hp, hq⟩ := storageJobs_cover (t := t) [] now
    refine .single (.requestDeletion _ _ ?_ ⟨?_, ?_⟩)
    · intro job hjob
      rcases mem_storageJobs hjob with ⟨a, ha, -, hj⟩ | ⟨f, hf, -, hj⟩
      · exact Or.inl ⟨a, ha, rfl, by rw [hj]; exact hdue a ha huser, by rw [hj]; rfl⟩
      · exact Or.inr ⟨f, hf, rfl, hj⟩
    · intro a ha _
      obtain ⟨job, hjob, hkey⟩ := hp a ha rfl
      exact hkey ▸ hasJob_of_mem hjob
    · intro f hf _
      obtain ⟨a, ha, hid⟩ := List.mem_map.mp (hw.fileHome f hf)
      have hof : isFileOf t (artifactIn []) f = true := by
        refine List.any_eq_true.mpr ⟨a, ha, ?_⟩
        rw [hid]
        unfold artifactIn conversationFilter
        simp
      obtain ⟨job, hjob, hkey⟩ := hq f hf hof
      exact hkey ▸ hasJob_of_mem hjob
  · rw [Bool.not_eq_true] at huser
    rw [huser]
    exact .refl

theorem deleteUser_changes (t : Tables) : Changes due drawn t (deleteUser t) := by
  by_cases h : t.deletionRequestedAt.isNone = true
  · unfold deleteUser
    rw [if_pos h]
  · refine .single (.forget ?_)
    rw [Option.isSome_iff_ne_none]
    intro hnone
    rw [hnone] at h
    exact h rfl

end Deletions

end OpenVac.ChatStorage
