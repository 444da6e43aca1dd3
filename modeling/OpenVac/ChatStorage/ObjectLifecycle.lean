/-
  File:      OpenVac/ChatStorage/ObjectLifecycle.lean
  Subject:   The objects of the chat storage and their deletion jobs.

  * `Tracked` -- a job means that its row is going: the attachment is marked, the file's artifact
    has failed, or the account's deletion was requested.
  * `Kept` -- a row stays, or its object has a job; over one change and over whole runs.
  * `object_lifecycle` -- no object is orphaned, no live object is destroyed.
-/
import OpenVac.ChatStorage.Accounting

namespace OpenVac.ChatStorage

open Rows

/-! ## 1. Jobs stay -/

section Jobs

variable {due : Attachment → Int → Prop} {issued : List Uuid} {t t' : Tables}

theorem HasJob.requeueJob {objectKey other : ObjectKey} (h : HasJob t objectKey)
    (sourceId : Uuid) (now : Int) : HasJob (requeueJob t sourceId other now) objectKey := by
  obtain ⟨job, hjob, hkey⟩ := h
  unfold ChatStorage.requeueJob
  split
  · refine ⟨_, mem_updateWhere_of_mem hjob, ?_⟩
    split <;> exact hkey
  · rw [← insertJobs_one]
    have hjob' : HasJob t objectKey := ⟨job, hjob, hkey⟩
    exact hjob'.insertJobs _

/-- **No change takes a job away.** -/
theorem Change.hasJob (h : Change due issued t t') {objectKey : ObjectKey}
    (hj : HasJob t objectKey) : HasJob t' objectKey := by
  cases h with
  | quiet t' h => exact hasJob_of_jobs hj h.jobs
  | reject a f runAt _ _ _ _ _ =>
    rw [← insertJobs_one]
    refine HasJob.insertJobs ?_ _
    exact hj
  | remove p q r jobs _ _ _ => exact hasJob_of_jobs (hj.insertJobs jobs) (purge_jobs t jobs p q r)
  | requeue sourceId other now _ _ _ => exact hj.requeueJob sourceId now
  | requestDeletion jobs at' _ _ =>
    have h := hj.insertJobs jobs
    exact h
  | forget _ =>
    unfold deleteUser
    split
    · exact hj
    · exact hj
  | _ => exact hj

theorem Worked.hasJob (h : Worked t t') {objectKey : ObjectKey} :
    HasJob t' objectKey ↔ HasJob t objectKey := by
  constructor
  · intro hj
    obtain ⟨job, hjob, hkey⟩ := hj
    obtain ⟨known, hknown, he⟩ := h.keys hjob
    exact ⟨known, hknown, he.trans hkey⟩
  · intro hj
    obtain ⟨job, hjob, hkey⟩ := hj
    obtain ⟨jobs, rfl, hkeys⟩ := h
    have hmem : job.objectKey ∈ jobs.map (·.objectKey) := hkeys ▸ List.mem_map_of_mem hjob
    obtain ⟨job', hjob', he⟩ := List.mem_map.mp hmem
    exact ⟨job', hjob', he.trans hkey⟩

end Jobs

/-! ## 2. Keys name their row -/

section Keys

variable {issued : List Uuid} {t : Tables}

theorem Known.attachment_eq (hk : Known issued t) (hw : WellFormed t) {a b : Attachment}
    (ha : a ∈ t.attachments) (hb : b ∈ t.attachments) (he : a.objectKey = b.objectKey) :
    a = b := by
  obtain ⟨n, hn⟩ := hk.attachmentKeys a ha
  obtain ⟨m, hm⟩ := hk.attachmentKeys b hb
  rw [hn, hm] at he
  obtain ⟨-, hid, -⟩ := ObjectKey.attachment.inj he
  exact hw.attachmentIds.eq ha hb hid

theorem Known.file_eq (hk : Known issued t) (hw : WellFormed t) {f g : ArtifactFile}
    (hf : f ∈ t.files) (hg : g ∈ t.files) (he : f.objectKey = g.objectKey) : f = g := by
  obtain ⟨c, n, hn⟩ := hk.fileKeys f hf
  obtain ⟨d, m, hm⟩ := hk.fileKeys g hg
  rw [hn, hm] at he
  obtain ⟨-, -, hid, -⟩ := ObjectKey.artifact.inj he
  exact hw.fileIds.eq hf hg hid

theorem Known.key_ne (hk : Known issued t) {a : Attachment} {f : ArtifactFile}
    (ha : a ∈ t.attachments) (hf : f ∈ t.files) : a.objectKey ≠ f.objectKey := by
  obtain ⟨n, hn⟩ := hk.attachmentKeys a ha
  obtain ⟨c, m, hm⟩ := hk.fileKeys f hf
  rw [hn, hm]
  intro he
  nomatch he

end Keys

/-! ## 3. A job means that its row is going -/

structure Tracked (t : Tables) : Prop where
  attachments : ∀ a ∈ t.attachments, HasJob t a.objectKey →
    t.deletionRequestedAt.isSome = true ∨ a.deletionStatus ≠ .active
  files : ∀ f ∈ t.files, HasJob t f.objectKey →
    t.deletionRequestedAt.isSome = true ∨
      ∀ a ∈ t.artifacts, a.id = f.artifactId → a.status = .failed
  marked : ∀ a ∈ t.attachments, a.deletionStatus ≠ .active → HasJob t a.objectKey
  requested : t.deletionRequestedAt.isSome = true →
    (∀ a ∈ t.attachments, HasJob t a.objectKey) ∧ ∀ f ∈ t.files, HasJob t f.objectKey

theorem tracked_empty : Tracked .empty where
  attachments := fun _ h => nomatch h
  files := fun _ h => nomatch h
  marked := fun _ h => nomatch h
  requested := fun h => nomatch h

@[simp] theorem purge_requested (t : Tables) (p : Attachment → Bool) (q : ArtifactFile → Bool)
    (r : Artifact → Bool) (jobs : List DeletionJob) :
    (t.purge p q r jobs).deletionRequestedAt = t.deletionRequestedAt := by
  obtain ⟨more, he⟩ := insertJobs_eq t jobs
  unfold Tables.purge
  rw [he]
  rfl

section Tracked

variable {due : Attachment → Int → Prop} {issued : List Uuid} {t t' : Tables}

theorem accountOpen_requested (h : t.accountOpen = true) : t.deletionRequestedAt = none := by
  unfold Tables.accountOpen at h
  rw [Bool.and_eq_true, Option.isNone_iff_eq_none] at h
  exact h.2

theorem Tracked.quiet (hi : Tracked t) (h : Quiet t t') : Tracked t' := by
  have hjobs : ∀ objectKey, HasJob t' objectKey ↔ HasJob t objectKey := by
    intro objectKey
    unfold HasJob
    rw [h.jobs]
  constructor
  · intro a' ha' hj
    obtain ⟨a, ha, he⟩ := mem_of_holdings h.holdings ha'
    have hkey : a.objectKey = a'.objectKey := congrArg Holding.objectKey he
    have hds : a.deletionStatus = a'.deletionStatus := congrArg Holding.deletionStatus he
    rw [h.requested, ← hds]
    refine hi.attachments a ha ?_
    rw [hkey]
    exact (hjobs _).mp hj
  · intro f hf hj
    rw [h.files] at hf
    rw [h.requested, h.artifacts]
    exact hi.files f hf ((hjobs _).mp hj)
  · intro a' ha' hds
    obtain ⟨a, ha, he⟩ := mem_of_holdings h.holdings ha'
    have hkey : a.objectKey = a'.objectKey := congrArg Holding.objectKey he
    have hds' : a.deletionStatus = a'.deletionStatus := congrArg Holding.deletionStatus he
    rw [← hkey]
    exact (hjobs _).mpr (hi.marked a ha (by rw [hds']; exact hds))
  · intro hreq
    rw [h.requested] at hreq
    obtain ⟨h1, h2⟩ := hi.requested hreq
    constructor
    · intro a' ha'
      obtain ⟨a, ha, he⟩ := mem_of_holdings h.holdings ha'
      have hkey : a.objectKey = a'.objectKey := congrArg Holding.objectKey he
      rw [← hkey]
      exact (hjobs _).mpr (h1 a ha)
    · intro f hf
      rw [h.files] at hf
      exact (hjobs _).mpr (h2 f hf)

theorem Tracked.initiate {row : Attachment} {account : Option StorageAccount} (hi : Tracked t)
    (hopen : t.accountOpen = true)
    (hjobs : ∀ job ∈ t.jobs, job.objectKey.sourceId ≠ row.id)
    (hkey : ∃ filename, row.objectKey = .attachment row.conversationId row.id filename)
    (hactive : row.deletionStatus = .active) :
    Tracked { t with account := account, attachments := t.attachments ++ [row] } := by
  have hnone := accountOpen_requested hopen
  have hfree : ¬ HasJob t row.objectKey := by
    intro hj
    obtain ⟨job, hjob, he⟩ := hj
    obtain ⟨filename, hk⟩ := hkey
    refine hjobs job hjob ?_
    rw [he, hk]
    rfl
  constructor
  · intro a ha hj
    rcases List.mem_append.mp ha with h | h
    · exact hi.attachments a h hj
    · rw [List.mem_singleton.mp h] at hj
      exact absurd hj hfree
  · exact hi.files
  · intro a ha hds
    rcases List.mem_append.mp ha with h | h
    · exact hi.marked a h hds
    · rw [List.mem_singleton.mp h] at hds
      exact absurd hactive hds
  · intro hreq
    rw [show ({ t with account := account, attachments := t.attachments ++ [row] } :
      Tables).deletionRequestedAt = none from hnone] at hreq
    nomatch hreq

theorem Tracked.reserveFile {row : ArtifactFile} {account : Option StorageAccount}
    (hi : Tracked t) (hopen : t.accountOpen = true)
    (hjobs : ∀ job ∈ t.jobs, job.objectKey.sourceId ≠ row.id)
    (hkey : ∃ conversationId filename,
      row.objectKey = .artifact conversationId row.artifactId row.id filename) :
    Tracked { t with files := t.files ++ [row], account := account } := by
  have hnone := accountOpen_requested hopen
  have hfree : ¬ HasJob t row.objectKey := by
    intro hj
    obtain ⟨job, hjob, he⟩ := hj
    obtain ⟨conversationId, filename, hk⟩ := hkey
    refine hjobs job hjob ?_
    rw [he, hk]
    rfl
  constructor
  · exact hi.attachments
  · intro f hf hj
    rcases List.mem_append.mp hf with h | h
    · exact hi.files f h hj
    · rw [List.mem_singleton.mp h] at hj
      exact absurd hj hfree
  · exact hi.marked
  · intro hreq
    rw [show ({ t with files := t.files ++ [row], account := account } :
      Tables).deletionRequestedAt = none from hnone] at hreq
    nomatch hreq

/-- One attachment changes its state; its deletion may be marked if it has a job. -/
theorem Tracked.setAttachment {a : Attachment} {f : Attachment → Attachment}
    {move : StorageAccount → StorageAccount} (hi : Tracked t) (hw : WellFormed t)
    (ha : a ∈ t.attachments) (hkey : (f a).objectKey = a.objectKey)
    (hds : (f a).deletionStatus = a.deletionStatus) :
    Tracked ((t.updateAccount move).setAttachment a.id f) := by
  constructor
  · intro b hb hj
    rcases mem_setAttachment hw ha hb with rfl | ⟨hb, -⟩
    · rw [hds]
      rw [hkey] at hj
      exact hi.attachments a ha hj
    · exact hi.attachments b hb hj
  · exact hi.files
  · intro b hb hmarked
    rcases mem_setAttachment hw ha hb with rfl | ⟨hb, -⟩
    · rw [hkey]
      rw [hds] at hmarked
      exact hi.marked a ha hmarked
    · exact hi.marked b hb hmarked
  · intro hreq
    obtain ⟨h1, h2⟩ := hi.requested hreq
    refine ⟨fun b hb => ?_, h2⟩
    rcases mem_setAttachment hw ha hb with rfl | ⟨hb, -⟩
    · rw [hkey]
      exact h1 a ha
    · exact h1 b hb

theorem Tracked.reject {a : Attachment} {f : Attachment → Attachment} {runAt : Int}
    {move : StorageAccount → StorageAccount} (hi : Tracked t) (hw : WellFormed t)
    (hk : Known issued t) (ha : a ∈ t.attachments)
    (hkey : (f a).objectKey = a.objectKey) (hds : (f a).deletionStatus = .queued) :
    Tracked (((t.updateAccount move).setAttachment a.id f).insertJobs
      [Tables.queuedJob .attachment a.id a.objectKey runAt]) := by
  have hmono : ∀ {objectKey}, HasJob t objectKey →
      HasJob (((t.updateAccount move).setAttachment a.id f).insertJobs
        [Tables.queuedJob .attachment a.id a.objectKey runAt]) objectKey := by
    intro objectKey hj
    refine HasJob.insertJobs ?_ _
    exact hj
  have hnew : HasJob (((t.updateAccount move).setAttachment a.id f).insertJobs
      [Tables.queuedJob .attachment a.id a.objectKey runAt]) a.objectKey :=
    hasJob_of_mem (List.mem_singleton.mpr rfl)
  have hback : ∀ {objectKey}, HasJob (((t.updateAccount move).setAttachment a.id f).insertJobs
      [Tables.queuedJob .attachment a.id a.objectKey runAt]) objectKey →
      HasJob t objectKey ∨ objectKey = a.objectKey := by
    intro objectKey hj
    obtain ⟨job, hjob, he⟩ := hj
    rcases mem_insertJobs hjob with h | h
    · exact Or.inl ⟨job, h, he⟩
    · rw [List.mem_singleton.mp h] at he
      exact Or.inr he.symm
  have hrequested : (((t.updateAccount move).setAttachment a.id f).insertJobs
      [Tables.queuedJob .attachment a.id a.objectKey runAt]).deletionRequestedAt =
        t.deletionRequestedAt := by
    obtain ⟨more, he⟩ := insertJobs_eq ((t.updateAccount move).setAttachment a.id f)
      [Tables.queuedJob .attachment a.id a.objectKey runAt]
    rw [he]
    rfl
  constructor
  · rw [insertJobs_attachments, hrequested]
    intro b hb hj
    rcases mem_setAttachment hw ha hb with rfl | ⟨hb, hne⟩
    · rw [hds]
      exact Or.inr fun h => nomatch h
    · rcases hback hj with h | h
      · exact hi.attachments b hb h
      · exact absurd (congrArg (·.id) (hk.attachment_eq hw hb ha h)) hne
  · rw [insertJobs_files, insertJobs_artifacts, hrequested]
    intro g hg hj
    rcases hback hj with h | h
    · exact hi.files g hg h
    · exact absurd h.symm (hk.key_ne ha hg)
  · rw [insertJobs_attachments]
    intro b hb hmarked
    rcases mem_setAttachment hw ha hb with rfl | ⟨hb, -⟩
    · rw [hkey]
      exact hnew
    · exact hmono (hi.marked b hb hmarked)
  · rw [insertJobs_attachments, insertJobs_files, hrequested]
    intro hreq
    obtain ⟨h1, h2⟩ := hi.requested hreq
    refine ⟨fun b hb => ?_, fun g hg => hmono (h2 g hg)⟩
    rcases mem_setAttachment hw ha hb with rfl | ⟨hb, -⟩
    · rw [hkey]
      exact hnew
    · exact hmono (h1 b hb)

/-- A removal queues jobs of rows that go. -/
theorem Tracked.remove {p : Attachment → Bool} {q : ArtifactFile → Bool} {r : Artifact → Bool}
    {jobs : List DeletionJob} (hi : Tracked t) (hw : WellFormed t) (hk : Known issued t)
    (hjobs : JobsOf due t p q jobs) : Tracked (t.purge p q r jobs) := by
  have hmono : ∀ {objectKey}, HasJob t objectKey → HasJob (t.purge p q r jobs) objectKey :=
    fun hj => hasJob_of_jobs (hj.insertJobs jobs) (purge_jobs t jobs p q r)
  have hback : ∀ {objectKey}, HasJob (t.purge p q r jobs) objectKey → HasJob t objectKey ∨
      (∃ a ∈ t.attachments, p a = true ∧ a.objectKey = objectKey) ∨
      (∃ f ∈ t.files, q f = true ∧ f.objectKey = objectKey) := by
    intro objectKey hj
    obtain ⟨job, hjob, he⟩ := hj
    rw [purge_jobs] at hjob
    rcases mem_insertJobs hjob with h | h
    · exact Or.inl ⟨job, h, he⟩
    · rcases hjobs job h with ⟨a, ha, hp, -, hj⟩ | ⟨f, hf, hq, hj⟩
      · rw [hj] at he
        exact Or.inr (Or.inl ⟨a, ha, hp, he⟩)
      · rw [hj] at he
        exact Or.inr (Or.inr ⟨f, hf, hq, he⟩)
  constructor
  · rw [purge_attachments, purge_requested]
    intro b hb hj
    obtain ⟨hmem, hpb⟩ := mem_deleteWhere.mp hb
    rcases hback hj with h | ⟨a, ha, hpa, he⟩ | ⟨f, hf, -, he⟩
    · exact hi.attachments b hmem h
    · rw [hk.attachment_eq hw ha hmem he] at hpa
      rw [hpa] at hpb
      nomatch hpb
    · exact absurd he.symm (hk.key_ne hmem hf)
  · rw [purge_files, purge_artifacts, purge_requested]
    intro g hg hj
    obtain ⟨hmem, hqg⟩ := mem_deleteWhere.mp hg
    rcases hback hj with h | ⟨a, ha, -, he⟩ | ⟨f, hf, hqf, he⟩
    · rcases hi.files g hmem h with h | h
      · exact Or.inl h
      · exact Or.inr fun a ha => h a (mem_deleteWhere.mp ha).1
    · exact absurd he (hk.key_ne ha hmem)
    · rw [hk.file_eq hw hf hmem he] at hqf
      rw [hqf] at hqg
      nomatch hqg
  · rw [purge_attachments]
    intro b hb hmarked
    exact hmono (hi.marked b (mem_deleteWhere.mp hb).1 hmarked)
  · rw [purge_requested, purge_attachments, purge_files]
    intro hreq
    obtain ⟨h1, h2⟩ := hi.requested hreq
    exact ⟨fun b hb => hmono (h1 b (mem_deleteWhere.mp hb).1),
      fun g hg => hmono (h2 g (mem_deleteWhere.mp hg).1)⟩

theorem Tracked.settle {selected : Artifact → Bool} {f : Artifact → Artifact} (hi : Tracked t)
    (hf : ∀ a, (f a).id = a.id)
    (hstatus : ∀ a ∈ t.artifacts, selected a = true →
      (f a).status = .failed ∨ (a.status = .generating ∧ (f a).status = .ready)) :
    Tracked { t with artifacts := updateWhere selected f t.artifacts } := by
  refine ⟨hi.attachments, ?_, hi.marked, hi.requested⟩
  intro g hg hj
  rcases hi.files g hg hj with h | h
  · exact Or.inl h
  · refine Or.inr fun a ha hid => ?_
    obtain ⟨a₀, ha₀, rfl⟩ := mem_updateWhere.mp ha
    by_cases hsel : selected a₀ = true
    · rw [if_pos hsel] at hid ⊢
      have hfailed := h a₀ ha₀ ((hf a₀).symm.trans hid)
      rcases hstatus a₀ ha₀ hsel with hs | hs
      · exact hs
      · rw [hfailed] at hs
        nomatch hs.1
    · rw [if_neg hsel] at hid ⊢
      exact h a₀ ha₀ hid

theorem Tracked.requeue {sourceId : Uuid} {objectKey : ObjectKey} {now : Int} (hi : Tracked t)
    (hk : Known issued t)
    (hkey : ∃ conversationId artifactId fileId filename,
      objectKey = .artifact conversationId artifactId fileId filename)
    (hfailed : ∀ f ∈ t.files, f.objectKey = objectKey → ∀ a ∈ t.artifacts,
      a.id = f.artifactId → a.status = .failed) :
    Tracked (requeueJob t sourceId objectKey now) := by
  have hmono : ∀ {key}, HasJob t key → HasJob (requeueJob t sourceId objectKey now) key :=
    fun hj => hj.requeueJob sourceId now
  have hback : ∀ {key}, HasJob (requeueJob t sourceId objectKey now) key →
      HasJob t key ∨ key = objectKey := by
    intro key hj
    obtain ⟨job, hjob, he⟩ := hj
    rcases mem_requeueJob hjob with ⟨known, hknown, h⟩ | h
    · exact Or.inl ⟨known, hknown, h.symm.trans he⟩
    · exact Or.inr (he.symm.trans h)
  obtain ⟨jobs, he⟩ := requeueJob_eq t sourceId objectKey now
  rw [he t rfl] at hmono hback ⊢
  constructor
  · intro a ha hj
    rcases hback hj with h | h
    · exact hi.attachments a ha h
    · obtain ⟨filename, hka⟩ := hk.attachmentKeys a ha
      obtain ⟨c, artifactId, fileId, n, hka'⟩ := hkey
      rw [hka, hka'] at h
      nomatch h
  · intro f hf hj
    rcases hback hj with h | h
    · exact hi.files f hf h
    · exact Or.inr (hfailed f hf h)
  · intro a ha hmarked
    exact hmono (hi.marked a ha hmarked)
  · intro hreq
    obtain ⟨h1, h2⟩ := hi.requested hreq
    exact ⟨fun a ha => hmono (h1 a ha), fun f hf => hmono (h2 f hf)⟩

/-- **Every change keeps the tracking.** -/
theorem Change.tracked (h : Change due issued t t') (hw : WellFormed t) (hk : Known issued t)
    (hi : Tracked t) : Tracked t' := by
  cases h with
  | quiet t' h => exact hi.quiet h
  | initiate row hopen _ _ hjobs _ hkey hstate _ _ _ => exact hi.initiate hopen hjobs hkey hstate.2
  | complete a f ha _ _ hf =>
    exact hi.setAttachment hw ha (congrArg Holding.objectKey hf)
      (congrArg Holding.deletionStatus hf)
  | reject a f runAt ha _ _ _ hf =>
    rw [← insertJobs_one]
    exact hi.reject hw hk ha (congrArg Holding.objectKey hf)
      (congrArg Holding.deletionStatus hf)
  | remove p q r jobs _ hjobs _ => exact hi.remove hw hk hjobs
  | createArtifact row _ hfresh _ =>
    refine ⟨hi.attachments, ?_, hi.marked, hi.requested⟩
    intro g hg hj
    rcases hi.files g hg hj with h | h
    · exact Or.inl h
    · refine Or.inr fun a ha hid => ?_
      rcases List.mem_append.mp ha with ha | ha
      · exact h a ha hid
      · rw [List.mem_singleton.mp ha] at hid
        obtain ⟨a₀, ha₀, he⟩ := List.mem_map.mp (hw.fileHome g hg)
        exact absurd (he.trans hid.symm) (hfresh a₀ ha₀)
  | settle selected f hf hstatus => exact hi.settle (fun a => (hf a).1) hstatus
  | reserveFile row hopen _ _ hjobs _ hkey _ _ _ => exact hi.reserveFile hopen hjobs hkey
  | commitFile file _ _ =>
    have hstem : ∀ g ∈ updateWhere (fun f => f.id == file.id)
        (fun file => { file with quotaState := .committed }) t.files,
        ∃ g₀ ∈ t.files, g.objectKey = g₀.objectKey ∧ g.artifactId = g₀.artifactId := by
      intro g hg
      obtain ⟨g₀, hg₀, rfl⟩ := mem_updateWhere.mp hg
      refine ⟨g₀, hg₀, ?_⟩
      split <;> exact ⟨rfl, rfl⟩
    refine ⟨hi.attachments, ?_, hi.marked, ?_⟩
    · intro g hg hj
      obtain ⟨g₀, hg₀, hkey, hart⟩ := hstem g hg
      rw [hart]
      rw [hkey] at hj
      exact hi.files g₀ hg₀ hj
    · intro hreq
      obtain ⟨h1, h2⟩ := hi.requested hreq
      refine ⟨h1, fun g hg => ?_⟩
      obtain ⟨g₀, hg₀, hkey, -⟩ := hstem g hg
      rw [hkey]
      exact h2 g₀ hg₀
  | requeue sourceId objectKey now _ hkey hfailed => exact hi.requeue hk hkey hfailed
  | requestDeletion jobs at' _ hcover =>
    have h1 := insertJobs_attachments t jobs
    have h2 := insertJobs_files t jobs
    have hall : (∀ a ∈ (t.insertJobs jobs).attachments, HasJob (t.insertJobs jobs) a.objectKey) ∧
        ∀ f ∈ (t.insertJobs jobs).files, HasJob (t.insertJobs jobs) f.objectKey := by
      rw [h1, h2]
      exact ⟨fun a ha => hcover.attachments a ha rfl, fun f hf => hcover.files f hf rfl⟩
    exact ⟨fun _ _ _ => Or.inl rfl, fun _ _ _ => Or.inl rfl, fun a ha _ => hall.1 a ha,
      fun _ => hall⟩
  | forget hrequested =>
    unfold deleteUser
    split
    · exact hi
    · exact ⟨fun _ h => (nomatch h), fun _ h => (nomatch h), fun _ h => (nomatch h),
        fun _ => ⟨fun _ h => (nomatch h), fun _ h => (nomatch h)⟩⟩

theorem Worked.tracked (h : Worked t t') (hi : Tracked t) : Tracked t' := by
  have hjobs := fun objectKey => @Worked.hasJob t t' h objectKey
  obtain ⟨jobs, rfl, -⟩ := h
  exact ⟨fun a ha hj => hi.attachments a ha ((hjobs _).mp hj),
    fun f hf hj => hi.files f hf ((hjobs _).mp hj),
    fun a ha hm => (hjobs _).mpr (hi.marked a ha hm),
    fun hreq => ⟨fun a ha => (hjobs _).mpr ((hi.requested hreq).1 a ha),
      fun f hf => (hjobs _).mpr ((hi.requested hreq).2 f hf)⟩⟩

end Tracked

/-! ## 4. A row stays or its object has a job -/

/-- The rows of `t` are in `t'` or their objects have jobs there. -/
structure Kept (t t' : Tables) : Prop where
  attachments : ∀ a ∈ t.attachments,
    (∃ a' ∈ t'.attachments, a'.objectKey = a.objectKey) ∨ HasJob t' a.objectKey
  files : ∀ f ∈ t.files,
    (∃ f' ∈ t'.files, f'.objectKey = f.objectKey) ∨ HasJob t' f.objectKey
  jobs : ∀ objectKey, HasJob t objectKey → HasJob t' objectKey

theorem Kept.refl (t : Tables) : Kept t t :=
  ⟨fun a ha => Or.inl ⟨a, ha, rfl⟩, fun f hf => Or.inl ⟨f, hf, rfl⟩, fun _ h => h⟩

theorem Kept.trans {t t' t'' : Tables} (h : Kept t t') (h' : Kept t' t'') : Kept t t'' := by
  refine ⟨fun a ha => ?_, fun f hf => ?_, fun key hj => h'.jobs key (h.jobs key hj)⟩
  · rcases h.attachments a ha with ⟨a', ha', he⟩ | hj
    · rw [← he]
      exact h'.attachments a' ha'
    · exact Or.inr (h'.jobs _ hj)
  · rcases h.files f hf with ⟨f', hf', he⟩ | hj
    · rw [← he]
      exact h'.files f' hf'
    · exact Or.inr (h'.jobs _ hj)

section Kept

variable {due : Attachment → Int → Prop} {issued : List Uuid} {t t' : Tables}

/-- The keyed row keeps its key, the others are the same. -/
theorem setAttachment_kept {a b : Attachment} {f : Attachment → Attachment}
    {move : StorageAccount → StorageAccount} (hw : WellFormed t) (ha : a ∈ t.attachments)
    (hkey : (f a).objectKey = a.objectKey) (hb : b ∈ t.attachments) :
    ∃ b' ∈ ((t.updateAccount move).setAttachment a.id f).attachments,
      b'.objectKey = b.objectKey := by
  refine ⟨_, mem_updateWhere_of_mem hb, ?_⟩
  split
  · next he =>
      rw [hw.attachmentIds.eq hb ha (beq_iff_eq.mp he)]
      exact hkey
  · rfl

/-- **No change loses an object.** -/
theorem Change.kept (h : Change due issued t t') (hw : WellFormed t) (hi : Tracked t) :
    Kept t t' := by
  have hjobs := fun objectKey => @Change.hasJob due issued t t' h objectKey
  cases h with
  | quiet t' h =>
    refine ⟨fun a ha => Or.inl ?_, fun f hf => Or.inl ⟨f, h.files.symm ▸ hf, rfl⟩, hjobs⟩
    obtain ⟨a', ha', he⟩ := mem_of_holdings h.holdings.symm ha
    exact ⟨a', ha', congrArg Holding.objectKey he⟩
  | initiate row _ _ _ _ _ _ _ _ _ _ =>
    exact ⟨fun a ha => Or.inl ⟨a, List.mem_append_left _ ha, rfl⟩,
      fun f hf => Or.inl ⟨f, hf, rfl⟩, hjobs⟩
  | complete a f ha _ _ hf =>
    exact ⟨fun b hb => Or.inl (setAttachment_kept hw ha (congrArg Holding.objectKey hf) hb),
      fun g hg => Or.inl ⟨g, hg, rfl⟩, hjobs⟩
  | reject a f runAt ha _ _ _ hf =>
    rw [← insertJobs_one] at hjobs ⊢
    refine ⟨fun b hb => Or.inl ?_, fun g hg => Or.inl ⟨g, ?_, rfl⟩, hjobs⟩
    · rw [insertJobs_attachments]
      exact setAttachment_kept hw ha (congrArg Holding.objectKey hf) hb
    · rw [insertJobs_files]
      exact hg
  | remove p q r jobs _ _ hcover =>
    refine ⟨fun a ha => ?_, fun f hf => ?_, hjobs⟩
    · by_cases hp : p a = true
      · exact Or.inr (hcover.attachments a ha hp)
      · rw [purge_attachments]
        exact Or.inl ⟨a, mem_deleteWhere.mpr ⟨ha, Bool.eq_false_iff.mpr hp⟩, rfl⟩
    · by_cases hq : q f = true
      · exact Or.inr (hcover.files f hf hq)
      · rw [purge_files]
        exact Or.inl ⟨f, mem_deleteWhere.mpr ⟨hf, Bool.eq_false_iff.mpr hq⟩, rfl⟩
  | createArtifact row _ _ _ =>
    exact ⟨fun a ha => Or.inl ⟨a, ha, rfl⟩, fun f hf => Or.inl ⟨f, hf, rfl⟩, hjobs⟩
  | settle selected f _ _ =>
    exact ⟨fun a ha => Or.inl ⟨a, ha, rfl⟩, fun f hf => Or.inl ⟨f, hf, rfl⟩, hjobs⟩
  | reserveFile row _ _ _ _ _ _ _ _ _ =>
    exact ⟨fun a ha => Or.inl ⟨a, ha, rfl⟩,
      fun f hf => Or.inl ⟨f, List.mem_append_left _ hf, rfl⟩, hjobs⟩
  | commitFile file _ _ =>
    refine ⟨fun a ha => Or.inl ⟨a, ha, rfl⟩, fun f hf => Or.inl ?_, hjobs⟩
    refine ⟨_, mem_updateWhere_of_mem hf, ?_⟩
    split <;> rfl
  | requeue sourceId objectKey now _ _ _ =>
    obtain ⟨jobs, he⟩ := requeueJob_eq t sourceId objectKey now
    rw [he t rfl] at hjobs ⊢
    exact ⟨fun a ha => Or.inl ⟨a, ha, rfl⟩, fun f hf => Or.inl ⟨f, hf, rfl⟩, hjobs⟩
  | requestDeletion jobs at' _ hcover =>
    exact ⟨fun a ha => Or.inr (hcover.attachments a ha rfl),
      fun f hf => Or.inr (hcover.files f hf rfl), hjobs⟩
  | forget hrequested =>
    obtain ⟨h1, h2⟩ := hi.requested hrequested
    exact ⟨fun a ha => Or.inr (hjobs _ (h1 a ha)), fun f hf => Or.inr (hjobs _ (h2 f hf)), hjobs⟩

theorem Worked.kept (h : Worked t t') : Kept t t' := by
  have hjobs := fun objectKey => (@Worked.hasJob t t' h objectKey).mpr
  obtain ⟨jobs, rfl, -⟩ := h
  exact ⟨fun a ha => Or.inl ⟨a, ha, rfl⟩, fun f hf => Or.inl ⟨f, hf, rfl⟩, hjobs⟩

/-- Changes keep the tracking and lose no object. -/
theorem Changes.kept (h : Changes due issued t t') (hw : WellFormed t) (hb : Balanced t)
    (hk : Known issued t) (hi : Tracked t) : Tracked t' ∧ Kept t t' := by
  induction h with
  | refl => exact ⟨hi, Kept.refl t⟩
  | @tail t₁ t₂ hpre hstep ih =>
    obtain ⟨hw₁, -, hk₁⟩ := tables_sound hw hb hk (Or.inl hpre)
    exact ⟨hstep.tracked hw₁ hk₁ ih.1, ih.2.trans (hstep.kept hw₁ ih.1)⟩

end Kept

/-! ## 5. Runs -/

section Runs

variable [JsString.Sha256]

theorem step_kept {s : Storage} (hs : Sound s) (hi : Tracked s.tables) (action : Action) :
    Tracked (s.step greatest action).tables ∧ Kept s.tables (s.step greatest action).tables := by
  have hframe := step_frame greatest s action
  have hstep : Changes (fun _ _ => True) (s.step greatest action).issued s.tables
      (s.step greatest action).tables ∨ Worked s.tables (s.step greatest action).tables :=
    (step_changes greatest_exact hs action fun _ _ _ _ => True.intro).imp And.right And.right
  rcases hstep with h | h
  · exact h.kept hs.wellFormed hs.balanced (hs.known.mono hframe.issued) hi
  · exact ⟨h.tracked hi, h.kept⟩

theorem run_kept {s : Storage} (hs : Sound s) (hi : Tracked s.tables) (actions : List Action) :
    Tracked (Machine.run (Storage.step greatest) s actions).tables ∧
      Kept s.tables (Machine.run (Storage.step greatest) s actions).tables := by
  induction actions generalizing s with
  | nil => exact ⟨hi, Kept.refl s.tables⟩
  | cons action actions ih =>
    obtain ⟨hi', hkept⟩ := step_kept hs hi action
    obtain ⟨hi'', hkept'⟩ := ih (Storage.step_sound greatest_exact hs action) hi'
    exact ⟨hi'', hkept.trans hkept'⟩

/-- **No object is orphaned, no live object is destroyed.** A row that was there before is there
    and not marked, or its object has a deletion job; and unless the account's deletion was
    requested, no job is for a live object. -/
theorem object_lifecycle (before more : List Action) :
    let t := (Storage.after greatest before).tables
    let t' := (Storage.after greatest (before ++ more)).tables
    (∀ a ∈ t.attachments,
      (∃ a' ∈ t'.attachments, a'.id = a.id ∧ a'.objectKey = a.objectKey ∧
        a'.deletionStatus = .active) ∨
      ∃ job ∈ t'.jobs, job.objectKey = a.objectKey) ∧
    (∀ f ∈ t.files,
      (∃ f' ∈ t'.files, f'.id = f.id ∧ f'.objectKey = f.objectKey ∧
        f'.deletionStatus = .active) ∨
      ∃ job ∈ t'.jobs, job.objectKey = f.objectKey) ∧
    (t'.deletionRequestedAt = none → ∀ job ∈ t'.jobs,
      (∀ a ∈ t'.attachments, a.objectKey = job.objectKey →
        ¬ (a.quotaState = .committed ∧ a.deletionStatus = .active)) ∧
      ∀ f ∈ t'.files, f.objectKey = job.objectKey →
        ∀ artifact ∈ t'.artifacts, artifact.id = f.artifactId → artifact.status ≠ .ready) := by
  intro t t'
  have hs : Sound (Storage.after greatest before) := Storage.after_sound greatest_exact before
  have hs' : Sound (Storage.after greatest (before ++ more)) :=
    Storage.after_sound greatest_exact (before ++ more)
  have hi : Tracked t := (run_kept Storage.initial_sound tracked_empty before).1
  have hrun := run_kept hs hi more
  rw [← show Storage.after greatest (before ++ more) =
    Machine.run (Storage.step greatest) (Storage.after greatest before) more from
      Machine.run_append _ _ _ _] at hrun
  obtain ⟨hi', hkept⟩ := hrun
  refine ⟨fun a ha => ?_, fun f hf => ?_, fun hnone job hjob => ⟨fun a ha he => ?_, ?_⟩⟩
  · rcases hkept.attachments a ha with ⟨a', ha', he⟩ | hj
    · by_cases hactive : a'.deletionStatus = .active
      · refine Or.inl ⟨a', ha', ?_, he, hactive⟩
        obtain ⟨n, hn⟩ := hs'.known.attachmentKeys a' ha'
        obtain ⟨m, hm⟩ := hs.known.attachmentKeys a ha
        rw [hn, hm] at he
        exact (ObjectKey.attachment.inj he).2.1
      · right
        rw [← he]
        exact hi'.marked a' ha' hactive
    · exact Or.inr hj
  · rcases hkept.files f hf with ⟨f', hf', he⟩ | hj
    · refine Or.inl ⟨f', hf', ?_, he, hs'.wellFormed.filesActive f' hf'⟩
      obtain ⟨c, n, hn⟩ := hs'.known.fileKeys f' hf'
      obtain ⟨d, m, hm⟩ := hs.known.fileKeys f hf
      rw [hn, hm] at he
      exact (ObjectKey.artifact.inj he).2.2.1
    · exact Or.inr hj
  · intro hlive
    rcases hi'.attachments a ha ⟨job, hjob, he.symm⟩ with h | h
    · rw [show t'.deletionRequestedAt = none from hnone] at h
      nomatch h
    · exact h hlive.2
  · intro f hf he artifact hart hid hready
    rcases hi'.files f hf ⟨job, hjob, he.symm⟩ with h | h
    · rw [show t'.deletionRequestedAt = none from hnone] at h
      nomatch h
    · have hfailed := h artifact hart hid
      rw [hready] at hfailed
      nomatch hfailed

end Runs

end OpenVac.ChatStorage
