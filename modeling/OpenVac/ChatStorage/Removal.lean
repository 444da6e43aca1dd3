/-
  File:      OpenVac/ChatStorage/Removal.lean
  Subject:   What the removals of storage rows come down to.

  * `WellFormed` -- keys, foreign keys and sizes; `Balanced` -- the counters are the sums.
  * `Balanced.remove` -- rows that go take their bytes along; `release_exact` -- a release of bytes
    that rows hold never meets the floor.
  * `Tables.purge` -- jobs, bytes and rows of one set of attachments, files and artifacts; the
    orphan loop, `deleteUnbound`, `failArtifact`, `cleanupRunArtifacts` and
    `enqueueConversationStorageDeletion` are purges (the `_eq` theorems).
-/
import OpenVac.ChatStorage.Storage

namespace OpenVac.ChatStorage

open Rows

/-! ## 1. The invariant -/

/-- The sizes of the committed rows. -/
def usedTotal (t : Tables) : ℤ :=
  committedAttachmentBytes t.attachments + fileBytes .committed t.files

/-- The declared sizes of the reserved rows. -/
def reservedTotal (t : Tables) : ℤ :=
  reservedAttachmentBytes t.attachments + fileBytes .reserved t.files

/-- Keys, foreign keys, sizes. -/
structure WellFormed (t : Tables) : Prop where
  attachmentIds : UniqueOn (·.id) t.attachments
  artifactIds : UniqueOn (·.id) t.artifacts
  fileIds : UniqueOn (·.id) t.files
  attachmentHome : ∀ a ∈ t.attachments, a.conversationId ∈ t.conversations.map (·.id)
  artifactHome : ∀ a ∈ t.artifacts, a.conversationId ∈ t.conversations.map (·.id)
  fileHome : ∀ f ∈ t.files, f.artifactId ∈ t.artifacts.map (·.id)
  declared : ∀ a ∈ t.attachments, 0 < a.declaredSizeBytes
  sized : ∀ a ∈ t.attachments, a.quotaState = .committed → ∃ n, a.sizeBytes = some n ∧ 0 < n
  fileSizes : ∀ f ∈ t.files, 0 < f.sizeBytes
  filesActive : ∀ f ∈ t.files, f.deletionStatus = .active

/-- The counters are the sums, within the limit; rows need an account. -/
structure Balanced (t : Tables) : Prop where
  noAccount : t.account = none → t.attachments = [] ∧ t.files = []
  counters : ∀ account, t.account = some account →
    account.usedBytes = usedTotal t ∧ account.reservedBytes = reservedTotal t ∧
      account.usedBytes + account.reservedBytes ≤ account.limitBytes

theorem wellFormed_empty : WellFormed .empty where
  attachmentIds := List.nodup_nil
  artifactIds := List.nodup_nil
  fileIds := List.nodup_nil
  attachmentHome := fun _ h => nomatch h
  artifactHome := fun _ h => nomatch h
  fileHome := fun _ h => nomatch h
  declared := fun _ h => nomatch h
  sized := fun _ h => nomatch h
  fileSizes := fun _ h => nomatch h
  filesActive := fun _ h => nomatch h

theorem balanced_empty : Balanced .empty where
  noAccount := fun _ => ⟨rfl, rfl⟩
  counters := fun _ h => nomatch h

/-- The invariant reads these tables only. -/
theorem WellFormed.congr {t t' : Tables} (h : WellFormed t)
    (hc : t'.conversations.map (·.id) = t.conversations.map (·.id))
    (ha : t'.attachments = t.attachments) (hr : t'.artifacts = t.artifacts)
    (hf : t'.files = t.files) : WellFormed t' := by
  constructor
  · rw [ha]; exact h.attachmentIds
  · rw [hr]; exact h.artifactIds
  · rw [hf]; exact h.fileIds
  · rw [ha, hc]; exact h.attachmentHome
  · rw [hr, hc]; exact h.artifactHome
  · rw [hf, hr]; exact h.fileHome
  · rw [ha]; exact h.declared
  · rw [ha]; exact h.sized
  · rw [hf]; exact h.fileSizes
  · rw [hf]; exact h.filesActive

theorem Balanced.congr {t t' : Tables} (h : Balanced t) (hacc : t'.account = t.account)
    (ha : t'.attachments = t.attachments) (hf : t'.files = t.files) : Balanced t' := by
  constructor
  · rw [hacc, ha, hf]
    exact h.noAccount
  · unfold usedTotal reservedTotal
    rw [hacc, ha, hf]
    exact h.counters

/-! ## 2. Sums -/

theorem fileBytes_nonneg {files : List ArtifactFile} (h : ∀ f ∈ files, 0 < f.sizeBytes)
    (state : QuotaState) : 0 ≤ fileBytes state files :=
  sumWhere_nonneg fun f hf => Int.le_of_lt (h f hf)

theorem reservedAttachmentBytes_nonneg {attachments : List Attachment}
    (h : ∀ a ∈ attachments, 0 < a.declaredSizeBytes) : 0 ≤ reservedAttachmentBytes attachments :=
  sumWhere_nonneg fun a ha => Int.le_of_lt (h a ha)

theorem committedAttachmentBytes_nonneg {attachments : List Attachment}
    (h : ∀ a ∈ attachments, a.quotaState = .committed → ∃ n, a.sizeBytes = some n ∧ 0 < n) :
    0 ≤ committedAttachmentBytes attachments := by
  unfold committedAttachmentBytes sumWhere
  refine List.sum_nonneg fun n hn => ?_
  obtain ⟨a, ha, he⟩ := List.mem_map.mp hn
  obtain ⟨hmem, hq⟩ := List.mem_filter.mp ha
  obtain ⟨m, hm, hpos⟩ := h a hmem (by simpa using hq)
  rw [← he, hm]
  exact Int.le_of_lt hpos

/-- What rows hold that a removal takes. -/
def usedOf (p : Attachment → Bool) (q : ArtifactFile → Bool) (t : Tables) : ℤ :=
  committedAttachmentBytes (t.attachments.filter p) + fileBytes .committed (t.files.filter q)

def reservedOf (p : Attachment → Bool) (q : ArtifactFile → Bool) (t : Tables) : ℤ :=
  reservedAttachmentBytes (t.attachments.filter p) + fileBytes .reserved (t.files.filter q)

theorem usedTotal_split (p : Attachment → Bool) (q : ArtifactFile → Bool) (t : Tables) :
    usedTotal t = usedOf p q t +
      (committedAttachmentBytes (deleteWhere p t.attachments) +
        fileBytes .committed (deleteWhere q t.files)) := by
  unfold usedTotal usedOf committedAttachmentBytes fileBytes
  rw [sumWhere_split p _ _ t.attachments, sumWhere_split q _ _ t.files]
  ring

theorem reservedTotal_split (p : Attachment → Bool) (q : ArtifactFile → Bool) (t : Tables) :
    reservedTotal t = reservedOf p q t +
      (reservedAttachmentBytes (deleteWhere p t.attachments) +
        fileBytes .reserved (deleteWhere q t.files)) := by
  unfold reservedTotal reservedOf reservedAttachmentBytes fileBytes
  rw [sumWhere_split p _ _ t.attachments, sumWhere_split q _ _ t.files]
  ring

/-- Rows hold no more than all rows. -/
theorem usedOf_le {t : Tables} (hw : WellFormed t) (p : Attachment → Bool)
    (q : ArtifactFile → Bool) : 0 ≤ usedOf p q t ∧ usedOf p q t ≤ usedTotal t := by
  have h1 : 0 ≤ committedAttachmentBytes (t.attachments.filter p) :=
    committedAttachmentBytes_nonneg fun a ha => hw.sized a (List.mem_filter.mp ha).1
  have h2 : 0 ≤ fileBytes .committed (t.files.filter q) :=
    fileBytes_nonneg (fun f hf => hw.fileSizes f (List.mem_filter.mp hf).1) _
  have h3 : 0 ≤ committedAttachmentBytes (deleteWhere p t.attachments) :=
    committedAttachmentBytes_nonneg fun a ha => hw.sized a (mem_deleteWhere.mp ha).1
  have h4 : 0 ≤ fileBytes .committed (deleteWhere q t.files) :=
    fileBytes_nonneg (fun f hf => hw.fileSizes f (mem_deleteWhere.mp hf).1) _
  have hsplit := usedTotal_split p q t
  unfold usedOf at *
  omega

theorem reservedOf_le {t : Tables} (hw : WellFormed t) (p : Attachment → Bool)
    (q : ArtifactFile → Bool) : 0 ≤ reservedOf p q t ∧ reservedOf p q t ≤ reservedTotal t := by
  have h1 : 0 ≤ reservedAttachmentBytes (t.attachments.filter p) :=
    reservedAttachmentBytes_nonneg fun a ha => hw.declared a (List.mem_filter.mp ha).1
  have h2 : 0 ≤ fileBytes .reserved (t.files.filter q) :=
    fileBytes_nonneg (fun f hf => hw.fileSizes f (List.mem_filter.mp hf).1) _
  have h3 : 0 ≤ reservedAttachmentBytes (deleteWhere p t.attachments) :=
    reservedAttachmentBytes_nonneg fun a ha => hw.declared a (mem_deleteWhere.mp ha).1
  have h4 : 0 ≤ fileBytes .reserved (deleteWhere q t.files) :=
    fileBytes_nonneg (fun f hf => hw.fileSizes f (mem_deleteWhere.mp hf).1) _
  have hsplit := reservedTotal_split p q t
  unfold reservedOf at *
  omega

/-! ## 3. Releasing -/

/-- The counters without a floor. -/
def Tables.deduct (t : Tables) (used reserved : ℤ) : Tables :=
  t.updateAccount fun account =>
    { account with
      usedBytes := account.usedBytes - used
      reservedBytes := account.reservedBytes - reserved }

/-- **A release of bytes that rows hold never meets the floor.** The tables may have changed
    elsewhere meanwhile. -/
theorem release_exact {floor : ℤ → ℤ} (hfloor : ∀ n, 0 ≤ n → floor n = n) {t t' : Tables}
    (hw : WellFormed t) (hb : Balanced t) (hacc : t'.account = t.account)
    (p : Attachment → Bool) (q : ArtifactFile → Bool) :
    t'.release floor (usedOf p q t) (reservedOf p q t) =
      t'.deduct (usedOf p q t) (reservedOf p q t) := by
  unfold Tables.release Tables.deduct Tables.updateAccount
  cases h : t.account with
  | none => rw [hacc, h]; rfl
  | some account =>
    obtain ⟨hu, hr, -⟩ := hb.counters account h
    have h1 := usedOf_le hw p q
    have h2 := reservedOf_le hw p q
    rw [hacc, h]
    simp only [Option.map_some]
    rw [hfloor _ (by omega), hfloor _ (by omega)]

/-- **Rows that go take their bytes along.** -/
theorem Balanced.remove {t t' : Tables} (hw : WellFormed t) (hb : Balanced t)
    (p : Attachment → Bool) (q : ArtifactFile → Bool)
    (ha : t'.attachments = deleteWhere p t.attachments) (hf : t'.files = deleteWhere q t.files)
    (hacc : t'.account = (t.deduct (usedOf p q t) (reservedOf p q t)).account) : Balanced t' := by
  unfold Tables.deduct Tables.updateAccount at hacc
  constructor
  · intro hnone
    rw [hacc, Option.map_eq_none_iff] at hnone
    obtain ⟨h1, h2⟩ := hb.noAccount hnone
    rw [ha, hf, h1, h2]
    exact ⟨rfl, rfl⟩
  · intro account' haccount'
    rw [hacc] at haccount'
    obtain ⟨account, haccount, he⟩ := Option.map_eq_some_iff.mp haccount'
    obtain ⟨hu, hr, hl⟩ := hb.counters account haccount
    have h1 := usedOf_le hw p q
    have h2 := reservedOf_le hw p q
    have h3 := usedTotal_split p q t
    have h4 := reservedTotal_split p q t
    rw [← he]
    unfold usedTotal reservedTotal
    rw [ha, hf]
    simp only
    refine ⟨by omega, by omega, by omega⟩

/-- A removal keeps keys, foreign keys and sizes, if files go with their artifact. -/
theorem WellFormed.remove {t t' : Tables} (hw : WellFormed t) (p : Attachment → Bool)
    (q : ArtifactFile → Bool) (r : Artifact → Bool)
    (hc : t'.conversations.map (·.id) = t.conversations.map (·.id))
    (ha : t'.attachments = deleteWhere p t.attachments) (hf : t'.files = deleteWhere q t.files)
    (hr : t'.artifacts = deleteWhere r t.artifacts)
    (hq : ∀ f ∈ t.files, q f = false → ∀ a ∈ t.artifacts, a.id = f.artifactId → r a = false) :
    WellFormed t' := by
  constructor
  · rw [ha]
    exact hw.attachmentIds.deleteWhere p
  · rw [hr]
    exact hw.artifactIds.deleteWhere r
  · rw [hf]
    exact hw.fileIds.deleteWhere q
  · rw [ha, hc]
    intro a h
    exact hw.attachmentHome a (mem_deleteWhere.mp h).1
  · rw [hr, hc]
    intro a h
    exact hw.artifactHome a (mem_deleteWhere.mp h).1
  · rw [hf, hr]
    intro f h
    obtain ⟨hmem, hkeep⟩ := mem_deleteWhere.mp h
    obtain ⟨a, ha', he⟩ := List.mem_map.mp (hw.fileHome f hmem)
    exact List.mem_map.mpr ⟨a, mem_deleteWhere.mpr ⟨ha', hq f hmem hkeep a ha' he⟩, he⟩
  · rw [ha]
    intro a h
    exact hw.declared a (mem_deleteWhere.mp h).1
  · rw [ha]
    intro a h
    exact hw.sized a (mem_deleteWhere.mp h).1
  · rw [hf]
    intro f h
    exact hw.fileSizes f (mem_deleteWhere.mp h).1
  · rw [hf]
    intro f h
    exact hw.filesActive f (mem_deleteWhere.mp h).1

/-! ## 4. Purging -/

/-- Rows go with their bytes, after deletion jobs were queued: what every removal comes down to. -/
def Tables.purge (t : Tables) (p : Attachment → Bool) (q : ArtifactFile → Bool)
    (r : Artifact → Bool) (jobs : List DeletionJob) : Tables :=
  let t' := ((t.insertJobs jobs).deduct (usedOf p q t) (reservedOf p q t)).deleteAttachments p
  { t' with artifacts := deleteWhere r t.artifacts, files := deleteWhere q t.files }

/-- Inserting jobs changes the jobs only. -/
theorem insertJobs_eq (t : Tables) (jobs : List DeletionJob) :
    ∃ more, t.insertJobs jobs = { t with jobs := t.jobs ++ more } := by
  unfold Tables.insertJobs
  induction jobs generalizing t with
  | nil => exact ⟨[], by simp⟩
  | cons job jobs ih =>
    rw [List.foldl_cons]
    obtain ⟨more, he⟩ := ih (t.insertJob job)
    rw [he]
    unfold Tables.insertJob
    split
    · exact ⟨more, rfl⟩
    · exact ⟨job :: more, by simp⟩

section Frame

variable (t : Tables) (jobs : List DeletionJob)

@[simp] theorem insertJobs_account : (t.insertJobs jobs).account = t.account := by
  obtain ⟨more, he⟩ := insertJobs_eq t jobs
  rw [he]

@[simp] theorem insertJobs_attachments : (t.insertJobs jobs).attachments = t.attachments := by
  obtain ⟨more, he⟩ := insertJobs_eq t jobs
  rw [he]

@[simp] theorem insertJobs_chunks : (t.insertJobs jobs).chunks = t.chunks := by
  obtain ⟨more, he⟩ := insertJobs_eq t jobs
  rw [he]

@[simp] theorem insertJobs_artifacts : (t.insertJobs jobs).artifacts = t.artifacts := by
  obtain ⟨more, he⟩ := insertJobs_eq t jobs
  rw [he]

@[simp] theorem insertJobs_files : (t.insertJobs jobs).files = t.files := by
  obtain ⟨more, he⟩ := insertJobs_eq t jobs
  rw [he]

@[simp] theorem insertJobs_conversations :
    (t.insertJobs jobs).conversations = t.conversations := by
  obtain ⟨more, he⟩ := insertJobs_eq t jobs
  rw [he]

theorem insertJobs_nil : t.insertJobs [] = t := rfl

theorem insertJobs_one (job : DeletionJob) : t.insertJobs [job] = t.insertJob job := rfl

variable (p : Attachment → Bool) (q : ArtifactFile → Bool) (r : Artifact → Bool)

@[simp] theorem purge_attachments :
    (t.purge p q r jobs).attachments = deleteWhere p t.attachments := by
  unfold Tables.purge Tables.deleteAttachments Tables.deduct Tables.updateAccount
  simp

@[simp] theorem purge_artifacts : (t.purge p q r jobs).artifacts = deleteWhere r t.artifacts := rfl

@[simp] theorem purge_files : (t.purge p q r jobs).files = deleteWhere q t.files := rfl

@[simp] theorem purge_conversations :
    (t.purge p q r jobs).conversations = t.conversations := by
  unfold Tables.purge Tables.deleteAttachments Tables.deduct Tables.updateAccount
  simp

@[simp] theorem purge_account : (t.purge p q r jobs).account =
    (t.deduct (usedOf p q t) (reservedOf p q t)).account := by
  unfold Tables.purge Tables.deleteAttachments Tables.deduct Tables.updateAccount
  simp

@[simp] theorem purge_jobs : (t.purge p q r jobs).jobs = (t.insertJobs jobs).jobs := rfl

end Frame

theorem Balanced.purge {t : Tables} (hw : WellFormed t) (hb : Balanced t)
    (p : Attachment → Bool) (q : ArtifactFile → Bool) (r : Artifact → Bool)
    (jobs : List DeletionJob) : Balanced (t.purge p q r jobs) :=
  hb.remove hw p q (purge_attachments t jobs p q r) rfl (purge_account t jobs p q r)

theorem WellFormed.purge {t : Tables} (hw : WellFormed t) (p : Attachment → Bool)
    (q : ArtifactFile → Bool) (r : Artifact → Bool) (jobs : List DeletionJob)
    (hq : ∀ f ∈ t.files, q f = false → ∀ a ∈ t.artifacts, a.id = f.artifactId → r a = false) :
    WellFormed (t.purge p q r jobs) :=
  hw.remove p q r (by rw [purge_conversations]) (purge_attachments t jobs p q r) rfl rfl hq

theorem account_minus_zero (account : Option StorageAccount) :
    (account.map fun account =>
      { account with
        usedBytes := account.usedBytes - 0, reservedBytes := account.reservedBytes - 0 }) =
      account := by
  cases account with
  | none => rfl
  | some account => simp

/-- Nothing to purge. -/
theorem purge_none {t : Tables} {p : Attachment → Bool} {q : ArtifactFile → Bool}
    {r : Artifact → Bool} (hp : ∀ a ∈ t.attachments, p a = false)
    (hq : ∀ f ∈ t.files, q f = false) (hr : ∀ a ∈ t.artifacts, r a = false) :
    t.purge p q r [] = t := by
  have h1 : ∀ {α : Type} (c : α → Bool) (l : List α), (∀ x ∈ l, c x = false) →
      deleteWhere c l = l ∧ l.filter c = [] := by
    intro α c l h
    constructor
    · unfold deleteWhere
      rw [List.filter_eq_self]
      intro x hx
      rw [h x hx]
      rfl
    · rw [List.filter_eq_nil_iff]
      intro x hx
      rw [h x hx]
      decide
  have hzero : usedOf p q t = 0 ∧ reservedOf p q t = 0 := by
    unfold usedOf reservedOf
    rw [(h1 p _ hp).2, (h1 q _ hq).2]
    exact ⟨rfl, rfl⟩
  have hchunks : deleteWhere (fun row : ChunkRow =>
      t.attachments.any fun a => a.id == row.attachmentId && p a) t.chunks = t.chunks := by
    refine (h1 _ _ fun row _ => ?_).1
    rw [List.any_eq_false]
    intro a ha
    rw [hp a ha]
    simp
  unfold Tables.purge Tables.deleteAttachments Tables.deduct Tables.updateAccount
  rw [insertJobs_nil, hzero.1, hzero.2, (h1 r _ hr).1, (h1 q _ hq).1]
  simp only
  rw [(h1 p _ hp).1, hchunks, account_minus_zero]

/-! ## 5. The removals are purges -/

/-- One row by its key. -/
theorem filter_key {ρ : Type} {key : ρ → Uuid} {rows : List ρ} (hu : UniqueOn key rows) {r : ρ}
    (hr : r ∈ rows) : rows.filter (fun r' => key r' == key r) = [r] := by
  induction rows with
  | nil => nomatch hr
  | cons a rows ih =>
    obtain ⟨ha, hu'⟩ := List.nodup_cons.mp hu
    by_cases he : key a = key r
    · have hra : a = r := hu.eq List.mem_cons_self hr he
      subst hra
      rw [List.filter_cons_of_pos (by simp), List.filter_eq_nil_iff.mpr]
      intro b hb hk
      rw [beq_iff_eq] at hk
      exact ha (hk ▸ List.mem_map_of_mem hb)
    · have hmem : r ∈ rows := by
        rcases List.mem_cons.mp hr with h | h
        · exact absurd (h ▸ rfl) he
        · exact h
      rw [List.filter_cons_of_neg (by simpa using he)]
      exact ih hu' hmem

theorem fileBytes_nil (state : QuotaState) : fileBytes state [] = 0 := rfl

/-- The bytes of one attachment. -/
theorem usedOf_one {t : Tables} (hw : WellFormed t) {a : Attachment} (ha : a ∈ t.attachments) :
    usedOf (fun a' => a'.id == a.id) (fun _ => false) t =
      if a.quotaState = .committed then a.sizeBytes.getD 0 else 0 := by
  unfold usedOf
  rw [filter_key hw.attachmentIds ha]
  have hnone : t.files.filter (fun _ => false) = [] := by simp
  rw [hnone, fileBytes_nil]
  unfold committedAttachmentBytes
  rw [sumWhere_cons]
  simp

theorem reservedOf_one {t : Tables} (hw : WellFormed t) {a : Attachment} (ha : a ∈ t.attachments) :
    reservedOf (fun a' => a'.id == a.id) (fun _ => false) t =
      if a.quotaState = .reserved then a.declaredSizeBytes else 0 := by
  unfold reservedOf
  rw [filter_key hw.attachmentIds ha]
  have hnone : t.files.filter (fun _ => false) = [] := by simp
  rw [hnone, fileBytes_nil]
  unfold reservedAttachmentBytes
  rw [sumWhere_cons]
  simp

/-- The removal of one attachment. -/
def Tables.purgeOne (t : Tables) (a : Attachment) (job : DeletionJob) : Tables :=
  t.purge (fun a' => a'.id == a.id) (fun _ => false) (fun _ => false) [job]

theorem deleteWhere_false {ρ : Type} (rows : List ρ) : deleteWhere (fun _ => false) rows = rows := by
  unfold deleteWhere
  simp

theorem release_purgeOne {floor : ℤ → ℤ} (hfloor : ∀ n, 0 ≤ n → floor n = n) {t : Tables}
    (hw : WellFormed t) (hb : Balanced t) {a : Attachment} (ha : a ∈ t.attachments)
    (job : DeletionJob) :
    (((t.insertJob job).release floor
        (if a.quotaState = .committed then a.sizeBytes.getD 0 else 0)
        (if a.quotaState = .reserved then a.declaredSizeBytes else 0)).deleteAttachments
          fun a' => a'.id == a.id) = t.purgeOne a job := by
  have hrel := release_exact hfloor hw hb (insertJobs_account t [job])
    (fun a' => a'.id == a.id) (fun _ => false)
  rw [← usedOf_one hw ha, ← reservedOf_one hw ha, ← insertJobs_one, hrel]
  have h1 := (insertJobs_artifacts t [job])
  have h2 := (insertJobs_files t [job])
  unfold Tables.purgeOne Tables.purge
  rw [deleteWhere_false, deleteWhere_false]
  unfold Tables.deleteAttachments Tables.deduct Tables.updateAccount
  simp only [h1, h2]

theorem expireOrphan_eq {floor : ℤ → ℤ} (hfloor : ∀ n, 0 ≤ n → floor n = n) {t : Tables}
    (hw : WellFormed t) (hb : Balanced t) {a : Attachment} (ha : a ∈ t.attachments) (now : Int) :
    expireOrphan floor now t a =
      t.purgeOne a (Tables.queuedJob .attachment a.id a.objectKey now) :=
  release_purgeOne hfloor hw hb ha _

/-- The job of a user's deletion of an attachment. -/
def unboundJob (a : Attachment) (now : Int) : DeletionJob :=
  Tables.queuedJob .attachment a.id a.objectKey
    (deletionRunAt a.quotaState (a.uploadExpiresAt + 60000) now)

/-- What `deleteUnbound` looks for. -/
def isUnbound (t : Tables) (id : Uuid) (a : Attachment) : Bool :=
  a.id == id && t.conversationLive a.conversationId && a.messageId.isNone &&
    a.deletionStatus == .active

theorem deleteUnbound_eq {floor : ℤ → ℤ} (hfloor : ∀ n, 0 ≤ n → floor n = n) {t : Tables}
    (hw : WellFormed t) (hb : Balanced t) (id : Uuid) (now : Int) :
    deleteUnbound floor id now t =
      match t.attachments.find? (isUnbound t id) with
      | none => .error (.notFound "附件")
      | some a => .ok ((), t.purgeOne a (unboundJob a now)) := by
  unfold deleteUnbound isUnbound
  cases hsome : t.attachments.find? fun a =>
      a.id == id && t.conversationLive a.conversationId && a.messageId.isNone &&
        a.deletionStatus == .active with
  | none => rfl
  | some target =>
    have hmem := List.mem_of_find?_eq_some hsome
    have hid : target.id = id := by
      have h := List.find?_some hsome
      simp only [Bool.and_eq_true, beq_iff_eq] at h
      exact h.1.1.1
    have hsize : (if target.quotaState = .committed then
          target.sizeBytes.getD target.declaredSizeBytes else 0) =
        if target.quotaState = .committed then target.sizeBytes.getD 0 else 0 := by
      split
      · next hq =>
          obtain ⟨n, hn, -⟩ := hw.sized target hmem hq
          rw [hn]
          rfl
      · rfl
    have h := release_purgeOne hfloor hw hb hmem (unboundJob target now)
    simp only [hsize]
    rw [← hid]
    exact congrArg (fun t => Except.ok ((), t)) h

/-- The purges of expired attachments, one after the other. -/
def purgeOrphans (now : Int) (rows : List Attachment) (t : Tables) : Tables :=
  rows.foldl
    (fun t a => t.purgeOne a (Tables.queuedJob .attachment a.id a.objectKey now)) t

theorem mem_purgeOne {t : Tables} {a b : Attachment} {job : DeletionJob} :
    b ∈ (t.purgeOne a job).attachments ↔ b ∈ t.attachments ∧ b.id ≠ a.id := by
  unfold Tables.purgeOne
  rw [purge_attachments, mem_deleteWhere]
  simp

theorem WellFormed.purgeOne {t : Tables} (hw : WellFormed t) (a : Attachment)
    (job : DeletionJob) : WellFormed (t.purgeOne a job) :=
  hw.purge _ _ _ _ fun _ _ _ _ _ _ => rfl

theorem Balanced.purgeOne {t : Tables} (hw : WellFormed t) (hb : Balanced t) (a : Attachment)
    (job : DeletionJob) : Balanced (t.purgeOne a job) := hb.purge hw _ _ _ _

/-- **The rule of the orphan loop**: what the purge of one present row keeps, the loop keeps. -/
theorem purgeOrphans_invariant {Inv : Tables → Prop} {now : Int} {rows : List Attachment}
    {t : Tables} (h0 : Inv t) (hids : (rows.map (·.id)).Nodup)
    (hmem : ∀ a ∈ rows, a ∈ t.attachments)
    (hs : ∀ t a, a ∈ rows → a ∈ t.attachments → Inv t →
      Inv (t.purgeOne a (Tables.queuedJob .attachment a.id a.objectKey now))) :
    Inv (purgeOrphans now rows t) := by
  unfold purgeOrphans
  induction rows generalizing t with
  | nil => exact h0
  | cons a rows ih =>
    obtain ⟨hnew, hids'⟩ := List.nodup_cons.mp hids
    refine ih (hs t a List.mem_cons_self (hmem a List.mem_cons_self) h0) hids' ?_
      fun t b hb => hs t b (List.mem_cons_of_mem _ hb)
    intro b hb
    exact mem_purgeOne.mpr ⟨hmem b (List.mem_cons_of_mem _ hb), fun he =>
      hnew (List.mem_map.mpr ⟨b, hb, he⟩)⟩

theorem expireOrphans_eq {floor : ℤ → ℤ} (hfloor : ∀ n, 0 ≤ n → floor n = n) {now : Int}
    {rows : List Attachment} {t : Tables} (hw : WellFormed t) (hb : Balanced t)
    (hids : (rows.map (·.id)).Nodup) (hmem : ∀ a ∈ rows, a ∈ t.attachments) :
    rows.foldl (expireOrphan floor now) t = purgeOrphans now rows t := by
  unfold purgeOrphans
  induction rows generalizing t with
  | nil => rfl
  | cons a rows ih =>
    obtain ⟨hnew, hids'⟩ := List.nodup_cons.mp hids
    rw [List.foldl_cons, List.foldl_cons,
      expireOrphan_eq hfloor hw hb (hmem a List.mem_cons_self)]
    refine ih (hw.purgeOne a _) (hb.purgeOne hw a _) hids' ?_
    intro b hb'
    exact mem_purgeOne.mpr ⟨hmem b (List.mem_cons_of_mem _ hb'), fun he =>
      hnew (List.mem_map.mpr ⟨b, hb', he⟩)⟩

/-- The rows the orphan query may pick. -/
def pickedOrphans (picked : List Uuid) (now : Int) (t : Tables) : List Attachment :=
  t.attachments.filter fun a => picked.contains a.id && isExpiredOrphan now a

theorem enqueueExpiredOrphans_eq {floor : ℤ → ℤ} (hfloor : ∀ n, 0 ≤ n → floor n = n) {t : Tables}
    (hw : WellFormed t) (hb : Balanced t) (picked : List Uuid) (now : Int) :
    (enqueueExpiredOrphans floor picked now t).2 =
      purgeOrphans now (pickedOrphans picked now t) t := by
  refine expireOrphans_eq hfloor hw hb ?_ fun a ha => (List.mem_filter.mp ha).1
  exact List.Nodup.sublist (List.Sublist.map _ List.filter_sublist) hw.attachmentIds

/-! ## 6. Purging by artifact -/

theorem Tables.deduct_zero (t : Tables) : t.deduct 0 0 = t := by
  unfold Tables.deduct Tables.updateAccount
  rw [account_minus_zero]

/-- A release that is skipped when there is nothing to release. -/
theorem release_if_exact {floor : ℤ → ℤ} (hfloor : ∀ n, 0 ≤ n → floor n = n) {t t' : Tables}
    (hw : WellFormed t) (hb : Balanced t) (hacc : t'.account = t.account)
    (p : Attachment → Bool) (q : ArtifactFile → Bool) {used reserved : ℤ}
    (hu : used = usedOf p q t) (hr : reserved = reservedOf p q t) :
    (if used > 0 ∨ reserved > 0 then t'.release floor used reserved else t') =
      t'.deduct used reserved := by
  subst hu hr
  by_cases h : usedOf p q t > 0 ∨ reservedOf p q t > 0
  · rw [if_pos h]
    exact release_exact hfloor hw hb hacc p q
  · rw [if_neg h]
    have h1 := (usedOf_le hw p q).1
    have h2 := (reservedOf_le hw p q).1
    have h3 : usedOf p q t = 0 := by omega
    have h4 : reservedOf p q t = 0 := by omega
    rw [h3, h4, Tables.deduct_zero]

theorem usedOf_files (q : ArtifactFile → Bool) (t : Tables) :
    usedOf (fun _ => false) q t = fileBytes .committed (t.files.filter q) := by
  unfold usedOf
  have hnone : t.attachments.filter (fun _ => false) = [] := by simp
  rw [hnone]
  show 0 + _ = _
  rw [zero_add]

theorem reservedOf_files (q : ArtifactFile → Bool) (t : Tables) :
    reservedOf (fun _ => false) q t = fileBytes .reserved (t.files.filter q) := by
  unfold reservedOf
  have hnone : t.attachments.filter (fun _ => false) = [] := by simp
  rw [hnone]
  show 0 + _ = _
  rw [zero_add]

/-- The removal of files, by a predicate. -/
def Tables.purgeFiles (t : Tables) (q : ArtifactFile → Bool) (now : Int) : Tables :=
  t.purge (fun _ => false) q (fun _ => false) (fileJobs (t.files.filter q) fun _ => now)

theorem deleteChunks_false (t : Tables) :
    deleteWhere (fun row : ChunkRow =>
      t.attachments.any fun a => a.id == row.attachmentId && false) t.chunks = t.chunks := by
  have h : (fun row : ChunkRow => t.attachments.any fun a => a.id == row.attachmentId && false) =
      fun _ => false := by
    funext row
    simp
  rw [h, deleteWhere_false]

/-- Jobs, a conditional release, the files: in either order of the first two. -/
theorem purgeFiles_of_release {floor : ℤ → ℤ} (hfloor : ∀ n, 0 ≤ n → floor n = n) {t : Tables}
    (hw : WellFormed t) (hb : Balanced t) (q : ArtifactFile → Bool) (now : Int) :
    { (if fileBytes .committed (t.files.filter q) > 0 ∨ fileBytes .reserved (t.files.filter q) > 0
        then (t.insertJobs (fileJobs (t.files.filter q) fun _ => now)).release floor
          (fileBytes .committed (t.files.filter q)) (fileBytes .reserved (t.files.filter q))
        else t.insertJobs (fileJobs (t.files.filter q) fun _ => now)) with
      files := deleteWhere q t.files } = t.purgeFiles q now := by
  rw [release_if_exact hfloor hw hb (insertJobs_account t _) (fun _ => false) q
    (usedOf_files q t).symm (reservedOf_files q t).symm]
  obtain ⟨more, he⟩ := insertJobs_eq t (fileJobs (t.files.filter q) fun _ => now)
  unfold Tables.purgeFiles Tables.purge
  rw [he, usedOf_files, reservedOf_files]
  unfold Tables.deleteAttachments Tables.deduct Tables.updateAccount
  simp only [deleteWhere_false, deleteChunks_false]

/-- What `failArtifact` looks for. -/
def isFailable (artifactId conversationId : Uuid) (a : Artifact) : Bool :=
  a.id == artifactId && a.conversationId == conversationId && a.deletedAt.isNone

/-- The artifacts a failure marks. -/
def Tables.failArtifacts (t : Tables) (selected : Artifact → Bool) : Tables :=
  { t with
    artifacts := updateWhere selected (fun a => { a with status := .failed, readyAt := none })
      t.artifacts }

theorem filesActive_filter {t : Tables} (hw : WellFormed t) (q : ArtifactFile → Bool) :
    (t.files.filter fun f => q f && f.deletionStatus == .active) = t.files.filter q := by
  refine List.filter_congr fun f hf => ?_
  rw [hw.filesActive f hf]
  simp

theorem failArtifact_eq {floor : ℤ → ℤ} (hfloor : ∀ n, 0 ≤ n → floor n = n) {t : Tables}
    (hw : WellFormed t) (hb : Balanced t) (artifactId conversationId : Uuid) (now : Int) :
    failArtifact floor artifactId conversationId now t =
      match t.artifacts.find? (isFailable artifactId conversationId) with
      | none => .error (.notFound "产物")
      | some artifact =>
          if artifact.status = .deleted then .ok ([], t)
          else
            .ok ((t.files.filter fun f => f.artifactId == artifactId).map (·.objectKey),
              (t.purgeFiles (fun f => f.artifactId == artifactId) now).failArtifacts fun a =>
                a.id == artifactId && a.status != .deleted) := by
  unfold failArtifact isFailable
  cases t.artifacts.find? fun a =>
      a.id == artifactId && a.conversationId == conversationId && a.deletedAt.isNone with
  | none => rfl
  | some artifact =>
    simp only
    split
    · rfl
    · have h := purgeFiles_of_release hfloor hw hb (fun f => f.artifactId == artifactId) now
      simp only [filesActive_filter hw fun f => f.artifactId == artifactId]
      unfold Tables.failArtifacts
      rw [← h]
      congr 2
      · congr 1
        split <;> simp [Tables.release, Tables.updateAccount]

/-! ## 7. The cleanup of a run -/

/-- Inserting jobs does not see the account. -/
theorem insertJobs_updateAccount (t : Tables) (f : StorageAccount → StorageAccount)
    (jobs : List DeletionJob) :
    (t.updateAccount f).insertJobs jobs = (t.insertJobs jobs).updateAccount f := by
  unfold Tables.insertJobs
  induction jobs generalizing t with
  | nil => rfl
  | cons job jobs ih =>
    have hone : (t.updateAccount f).insertJob job = (t.insertJob job).updateAccount f := by
      unfold Tables.insertJob Tables.updateAccount
      split <;> rfl
    rw [List.foldl_cons, List.foldl_cons, hone, ih]

/-- The files of the artifacts a predicate selects. -/
def isFileOf (t : Tables) (selected : Artifact → Bool) (file : ArtifactFile) : Bool :=
  t.artifacts.any fun a => a.id == file.artifactId && selected a

theorem filesActive_filesOf {t : Tables} (hw : WellFormed t) (selected : Artifact → Bool) :
    ((filesOf t selected).filter fun f => f.deletionStatus == .active) = filesOf t selected := by
  rw [List.filter_eq_self]
  intro f hf
  rw [hw.filesActive f (List.mem_filter.mp hf).1]
  rfl

theorem cleanupRunArtifacts_eq {floor : ℤ → ℤ} (hfloor : ∀ n, 0 ≤ n → floor n = n) {t : Tables}
    (hw : WellFormed t) (hb : Balanced t) (input : CleanupInput) (now : Int) :
    cleanupRunArtifacts floor input now t =
      (t.purgeFiles (isFileOf t (runArtifact t input)) now).failArtifacts
        (runArtifact t input) := by
  have hrel := release_if_exact hfloor hw hb (rfl : t.account = t.account) (fun _ => false)
    (isFileOf t (runArtifact t input)) (usedOf_files _ t).symm (reservedOf_files _ t).symm
  unfold cleanupRunArtifacts
  simp only [filesActive_filesOf hw]
  unfold filesOf
  unfold isFileOf at hrel ⊢
  rw [hrel]
  unfold Tables.deduct
  rw [insertJobs_updateAccount]
  unfold Tables.purgeFiles Tables.failArtifacts Tables.purge Tables.deleteAttachments Tables.deduct
  rw [usedOf_files, reservedOf_files]
  unfold Tables.updateAccount
  simp only [insertJobs_attachments, insertJobs_chunks, insertJobs_artifacts, insertJobs_files,
    deleteWhere_false, deleteChunks_false]

/-! ## 8. The storage of conversations -/

theorem contains_ids {ρ : Type} {key : ρ → Uuid} {rows : List ρ} (hu : UniqueOn key rows)
    (p : ρ → Bool) {r : ρ} (hr : r ∈ rows) :
    ((rows.filter p).map key).contains (key r) = p r := by
  rw [Bool.eq_iff_iff, List.contains_iff_mem, List.mem_map]
  constructor
  · rintro ⟨r', hr', he⟩
    obtain ⟨hmem, hp⟩ := List.mem_filter.mp hr'
    rw [hu.eq hr hmem he.symm]
    exact hp
  · intro hp
    exact ⟨r, List.mem_filter.mpr ⟨hr, hp⟩, rfl⟩

theorem deleteWhere_congr {ρ : Type} {p p' : ρ → Bool} {rows : List ρ}
    (h : ∀ r ∈ rows, p r = p' r) : deleteWhere p rows = deleteWhere p' rows := by
  unfold deleteWhere
  refine List.filter_congr fun r hr => ?_
  rw [h r hr]

theorem any_congr_mem {ρ : Type} {p p' : ρ → Bool} {rows : List ρ}
    (h : ∀ r ∈ rows, p r = p' r) : rows.any p = rows.any p' := by
  induction rows with
  | nil => rfl
  | cons r rows ih =>
    rw [List.any_cons, List.any_cons, h r List.mem_cons_self,
      ih fun r' hr' => h r' (List.mem_cons_of_mem _ hr')]

/-- Deleting by ids is deleting by what selected the ids. -/
theorem deleteAttachments_ids {t : Tables} (hw : WellFormed t) (p : Attachment → Bool)
    (t' : Tables) (ha : t'.attachments = t.attachments) :
    (t'.deleteAttachments fun a => ((t.attachments.filter p).map (·.id)).contains a.id) =
      t'.deleteAttachments p := by
  have h : ∀ a ∈ t'.attachments,
      ((t.attachments.filter p).map (·.id)).contains a.id = p a := by
    intro a hmem
    rw [ha] at hmem
    exact contains_ids hw.attachmentIds p hmem
  unfold Tables.deleteAttachments
  rw [deleteWhere_congr h]
  congr 1
  refine deleteWhere_congr fun row _ => any_congr_mem fun a hmem => ?_
  exact congrArg (a.id == row.attachmentId && ·) (h a hmem)

theorem contains_artifactIds (t : Tables) (selected : Artifact → Bool) (file : ArtifactFile) :
    ((t.artifacts.filter selected).map (·.id)).contains file.artifactId =
      isFileOf t selected file := by
  unfold isFileOf
  rw [Bool.eq_iff_iff, List.contains_iff_mem, List.mem_map, List.any_eq_true]
  constructor
  · rintro ⟨a, ha, he⟩
    obtain ⟨hmem, hs⟩ := List.mem_filter.mp ha
    exact ⟨a, hmem, by rw [hs, he]; simp⟩
  · rintro ⟨a, hmem, h⟩
    rw [Bool.and_eq_true, beq_iff_eq] at h
    exact ⟨a, List.mem_filter.mpr ⟨hmem, h.2⟩, h.1⟩

/-- The attachments of the conversations. -/
def attachmentIn (conversationIds : List Uuid) (a : Attachment) : Bool :=
  conversationFilter conversationIds a.conversationId

def artifactIn (conversationIds : List Uuid) (a : Artifact) : Bool :=
  conversationFilter conversationIds a.conversationId

/-- The deletions that the removal of conversations queues. -/
def storageJobs (conversationIds : List Uuid) (now : Int) (t : Tables) : List DeletionJob :=
  attachmentJobs (t.attachments.filter (attachmentIn conversationIds)) now ++
    fileJobs (filesOf t (artifactIn conversationIds)) fun file =>
      deletionRunAt file.quotaState (file.createdAt + 3600000) now

theorem enqueueDeletion_eq {floor : ℤ → ℤ} (hfloor : ∀ n, 0 ≤ n → floor n = n) {t : Tables}
    (hw : WellFormed t) (hb : Balanced t) (conversationIds : List Uuid) (now : Int) :
    (enqueueConversationStorageDeletion floor conversationIds true now t).2 =
      t.purge (attachmentIn conversationIds) (isFileOf t (artifactIn conversationIds))
        (artifactIn conversationIds) (storageJobs conversationIds now t) := by
  have hrel := release_exact hfloor hw hb
    (insertJobs_account t (storageJobs conversationIds now t))
    (attachmentIn conversationIds) (isFileOf t (artifactIn conversationIds))
  by_cases hnone : t.attachments.filter (attachmentIn conversationIds) = [] ∧
      t.artifacts.filter (artifactIn conversationIds) = [] ∧
      filesOf t (artifactIn conversationIds) = []
  · -- nothing selected
    obtain ⟨h1, h2, h3⟩ := hnone
    have hjobs : storageJobs conversationIds now t = [] := by
      unfold storageJobs
      rw [h1, h3]
      rfl
    have hpurge : t.purge (attachmentIn conversationIds)
        (isFileOf t (artifactIn conversationIds)) (artifactIn conversationIds) [] = t := by
      refine purge_none ?_ ?_ ?_
      · intro a ha
        exact Bool.eq_false_iff.mpr (List.filter_eq_nil_iff.mp h1 a ha)
      · intro f hf
        exact Bool.eq_false_iff.mpr (List.filter_eq_nil_iff.mp h3 f hf)
      · intro a ha
        exact Bool.eq_false_iff.mpr (List.filter_eq_nil_iff.mp h2 a ha)
    rw [hjobs, hpurge]
    unfold enqueueConversationStorageDeletion
    unfold attachmentIn at h1
    unfold artifactIn at h2 h3
    simp only [h1, h2, h3]
    rfl
  · have hremoving : (!((t.attachments.filter (attachmentIn conversationIds)).isEmpty &&
        (t.artifacts.filter (artifactIn conversationIds)).isEmpty &&
        (filesOf t (artifactIn conversationIds)).isEmpty)) = true := by
      rw [Bool.not_eq_true', Bool.eq_false_iff]
      intro h
      simp only [Bool.and_eq_true, List.isEmpty_iff] at h
      exact hnone ⟨h.1.1, h.1.2, h.2⟩
    have hids := deleteAttachments_ids hw (attachmentIn conversationIds)
      ((t.insertJobs (storageJobs conversationIds now t)).deduct
        (usedOf (attachmentIn conversationIds) (isFileOf t (artifactIn conversationIds)) t)
        (reservedOf (attachmentIn conversationIds) (isFileOf t (artifactIn conversationIds)) t))
      (insertJobs_attachments t _)
    have hartifacts : deleteWhere (fun a : Artifact =>
        ((t.artifacts.filter (artifactIn conversationIds)).map (·.id)).contains a.id)
          t.artifacts = deleteWhere (artifactIn conversationIds) t.artifacts :=
      deleteWhere_congr fun a ha => contains_ids hw.artifactIds _ ha
    have hfiles : deleteWhere (fun file : ArtifactFile =>
        ((t.artifacts.filter (artifactIn conversationIds)).map (·.id)).contains file.artifactId)
          t.files = deleteWhere (isFileOf t (artifactIn conversationIds)) t.files :=
      deleteWhere_congr fun f _ => contains_artifactIds t _ f
    unfold Tables.purge
    rw [← hids, ← hrel, ← hartifacts, ← hfiles]
    unfold enqueueConversationStorageDeletion
    unfold attachmentIn artifactIn at hremoving
    simp only [Bool.true_and, hremoving, if_true]
    have h1 := insertJobs_artifacts t (storageJobs conversationIds now t)
    have h2 := insertJobs_files t (storageJobs conversationIds now t)
    unfold Tables.release Tables.updateAccount Tables.deleteAttachments
    unfold storageJobs at h1 h2 ⊢
    unfold attachmentIn artifactIn at h1 h2 ⊢
    simp only [h1, h2]
    rfl

end OpenVac.ChatStorage
