/-
  File:      OpenVac/ChatStorage/Changes.lean
  Subject:   What the transactions of the chat storage do to rows, bytes and deletion jobs, said
             once.

  * `Change` -- one way in which rows that hold bytes or objects come, go or change; the
    constructors name their guards. `Changes` -- several in a row.
  * `Known` -- ids are drawn, keys name their row.
  * `Change.wellFormed`, `Change.balanced`, `Change.known` -- every change keeps the invariants.
-/
import OpenVac.ChatStorage.Removal
import Mathlib.Logic.Relation

namespace OpenVac.ChatStorage

open Rows

/-! ## 1. Changes -/

/-- The columns of an attachment that its bytes and its object hang on. -/
structure Holding where
  id : Uuid
  conversationId : Uuid
  objectKey : ObjectKey
  quotaState : QuotaState
  deletionStatus : DeletionStatus
  declaredSizeBytes : ℤ
  sizeBytes : Option ℤ
  uploadExpiresAt : Int
  orphanExpiresAt : Int

def Attachment.holding (a : Attachment) : Holding :=
  { id := a.id
    conversationId := a.conversationId
    objectKey := a.objectKey
    quotaState := a.quotaState
    deletionStatus := a.deletionStatus
    declaredSizeBytes := a.declaredSizeBytes
    sizeBytes := a.sizeBytes
    uploadExpiresAt := a.uploadExpiresAt
    orphanExpiresAt := a.orphanExpiresAt }

/-- The deletion of the object is queued, or was. -/
def HasJob (t : Tables) (objectKey : ObjectKey) : Prop :=
  ∃ job ∈ t.jobs, job.objectKey = objectKey

/-- The attachment or the file an object belongs to. -/
def ObjectKey.sourceId : ObjectKey → Uuid
  | .attachment _ attachmentId _ => attachmentId
  | .artifact _ _ fileId _ => fileId

/-- Nothing happens to bytes, objects and jobs. Conversations may go that hold no rows. -/
structure Quiet (t t' : Tables) : Prop where
  user : t'.user = t.user
  requested : t'.deletionRequestedAt = t.deletionRequestedAt
  account : t'.account = t.account
  holdings : t'.attachments.map Attachment.holding = t.attachments.map Attachment.holding
  artifacts : t'.artifacts = t.artifacts
  files : t'.files = t.files
  jobs : t'.jobs = t.jobs
  attachmentHome : ∀ a ∈ t.attachments, a.conversationId ∈ t.conversations.map (·.id) →
    a.conversationId ∈ t'.conversations.map (·.id)
  artifactHome : ∀ a ∈ t.artifacts, a.conversationId ∈ t.conversations.map (·.id) →
    a.conversationId ∈ t'.conversations.map (·.id)

/-- Jobs of the rows that a removal selects; `due` says when an attachment's may run. -/
def JobsOf (due : Attachment → Int → Prop) (t : Tables) (p : Attachment → Bool)
    (q : ArtifactFile → Bool) (jobs : List DeletionJob) : Prop :=
  ∀ job ∈ jobs,
    (∃ a ∈ t.attachments, p a = true ∧ due a job.runAt ∧
      job = Tables.queuedJob .attachment a.id a.objectKey job.runAt) ∨
    (∃ f ∈ t.files, q f = true ∧ job = Tables.queuedJob .artifact f.id f.objectKey job.runAt)

/-- Every selected row's object has a job. -/
structure Covered (t t' : Tables) (p : Attachment → Bool) (q : ArtifactFile → Bool) : Prop where
  attachments : ∀ a ∈ t.attachments, p a = true → HasJob t' a.objectKey
  files : ∀ f ∈ t.files, q f = true → HasJob t' f.objectKey

/-- **What one transaction does**, or one part of it. -/
inductive Change (due : Attachment → Int → Prop) (issued : List Uuid) (t : Tables) :
    Tables → Prop where
  | quiet (t' : Tables) (h : Quiet t t') : Change due issued t t'
  | initiate (row : Attachment) (hopen : t.accountOpen = true)
      (hdrawn : row.id ∈ issued) (hfresh : ∀ a ∈ t.attachments, a.id ≠ row.id)
      (hjobs : ∀ job ∈ t.jobs, job.objectKey.sourceId ≠ row.id)
      (hhome : row.conversationId ∈ t.conversations.map (·.id))
      (hkey : ∃ filename, row.objectKey = .attachment row.conversationId row.id filename)
      (hstate : row.quotaState = .reserved ∧ row.deletionStatus = .active)
      (hsize : 0 < row.declaredSizeBytes)
      (hlimit : t.accountRow.usedBytes + t.accountRow.reservedBytes + row.declaredSizeBytes ≤
        t.accountRow.limitBytes)
      (horphan : row.uploadExpiresAt + 60000 ≤ row.orphanExpiresAt) :
      Change due issued t
        { t with
          account := some
            { t.accountRow with
              reservedBytes := t.accountRow.reservedBytes + row.declaredSizeBytes }
          attachments := t.attachments ++ [row] }
  | complete (a : Attachment) (f : Attachment → Attachment) (ha : a ∈ t.attachments)
      (hstate : a.quotaState = .reserved ∧ a.deletionStatus = .active)
      (hid : ∀ b, (f b).id = b.id)
      (hf : (f a).holding =
        { a.holding with quotaState := .committed, sizeBytes := some a.declaredSizeBytes }) :
      Change due issued t
        ((t.updateAccount fun account =>
          { account with
            reservedBytes := account.reservedBytes - a.declaredSizeBytes
            usedBytes := account.usedBytes + a.declaredSizeBytes }).setAttachment a.id f)
  | reject (a : Attachment) (f : Attachment → Attachment) (runAt : Int)
      (ha : a ∈ t.attachments) (hstate : a.quotaState = .reserved) (hdue : due a runAt)
      (hid : ∀ b, (f b).id = b.id)
      (hf : (f a).holding =
        { a.holding with quotaState := .released, deletionStatus := .queued }) :
      Change due issued t
        (((t.updateAccount fun account =>
          { account with
            reservedBytes := account.reservedBytes - a.declaredSizeBytes }).setAttachment
              a.id f).insertJob (Tables.queuedJob .attachment a.id a.objectKey runAt))
  | remove (p : Attachment → Bool) (q : ArtifactFile → Bool) (r : Artifact → Bool)
      (jobs : List DeletionJob)
      (hq : ∀ f ∈ t.files, q f = false → ∀ a ∈ t.artifacts, a.id = f.artifactId → r a = false)
      (hjobs : JobsOf due t p q jobs) (hcover : Covered t (t.purge p q r jobs) p q) :
      Change due issued t (t.purge p q r jobs)
  | createArtifact (row : Artifact) (hdrawn : row.id ∈ issued)
      (hfresh : ∀ a ∈ t.artifacts, a.id ≠ row.id)
      (hhome : row.conversationId ∈ t.conversations.map (·.id)) :
      Change due issued t { t with artifacts := t.artifacts ++ [row] }
  | settle (selected : Artifact → Bool) (f : Artifact → Artifact)
      (hf : ∀ a, (f a).id = a.id ∧ (f a).conversationId = a.conversationId)
      (hstatus : ∀ a ∈ t.artifacts, selected a = true →
        (f a).status = .failed ∨ (a.status = .generating ∧ (f a).status = .ready)) :
      Change due issued t { t with artifacts := updateWhere selected f t.artifacts }
  | reserveFile (row : ArtifactFile) (hopen : t.accountOpen = true)
      (hdrawn : row.id ∈ issued) (hfresh : ∀ f ∈ t.files, f.id ≠ row.id)
      (hjobs : ∀ job ∈ t.jobs, job.objectKey.sourceId ≠ row.id)
      (hhome : row.artifactId ∈ t.artifacts.map (·.id))
      (hkey : ∃ conversationId filename,
        row.objectKey = .artifact conversationId row.artifactId row.id filename)
      (hstate : row.quotaState = .reserved ∧ row.deletionStatus = .active)
      (hsize : 0 < row.sizeBytes)
      (hlimit : t.accountRow.usedBytes + t.accountRow.reservedBytes + row.sizeBytes ≤
        t.accountRow.limitBytes) :
      Change due issued t
        { t with
          files := t.files ++ [row]
          account := some
            { t.accountRow with
              reservedBytes := t.accountRow.reservedBytes + row.sizeBytes } }
  | commitFile (file : ArtifactFile) (hfile : file ∈ t.files)
      (hstate : file.quotaState = .reserved) :
      Change due issued t
        ((t.updateAccount fun account =>
          { account with
            reservedBytes := account.reservedBytes - file.sizeBytes
            usedBytes := account.usedBytes + file.sizeBytes }).setFile file.id
              fun file => { file with quotaState := .committed })
  | requeue (sourceId : Uuid) (objectKey : ObjectKey) (now : Int)
      (hdrawn : objectKey.sourceId ∈ issued)
      (hkey : ∃ conversationId artifactId fileId filename,
        objectKey = .artifact conversationId artifactId fileId filename)
      (hfailed : ∀ f ∈ t.files, f.objectKey = objectKey → ∀ a ∈ t.artifacts,
        a.id = f.artifactId → a.status = .failed) :
      Change due issued t (requeueJob t sourceId objectKey now)
  | requestDeletion (jobs : List DeletionJob) (at' : Int)
      (hjobs : JobsOf due t (fun _ => true) (fun _ => true) jobs)
      (hcover : Covered t (t.insertJobs jobs) (fun _ => true) (fun _ => true)) :
      Change due issued t { t.insertJobs jobs with deletionRequestedAt := some at' }
  | forget (hrequested : t.deletionRequestedAt.isSome = true) :
      Change due issued t (deleteUser t)

/-- Several changes, one after the other. -/
abbrev Changes (due : Attachment → Int → Prop) (issued : List Uuid) : Tables → Tables → Prop :=
  Relation.ReflTransGen (Change due issued)

/-- What every change keeps, changes keep. -/
theorem Changes.invariant {due : Attachment → Int → Prop} {issued : List Uuid}
    {Inv : Tables → Prop} (hs : ∀ t t', Change due issued t t' → Inv t → Inv t') {t t' : Tables}
    (h : Changes due issued t t') (h0 : Inv t) : Inv t' := by
  induction h with
  | refl => exact h0
  | tail _ hstep ih => exact hs _ _ hstep ih

/-! ## 2. Keys and homes -/

section WellFormed

variable {t : Tables}

/-- Rows with the same holdings have the same ids. -/
theorem ids_of_holdings {rows rows' : List Attachment}
    (h : rows'.map Attachment.holding = rows.map Attachment.holding) :
    rows'.map (·.id) = rows.map (·.id) := by
  have h' := congrArg (List.map Holding.id) h
  rw [List.map_map, List.map_map] at h'
  exact h'

theorem mem_of_holdings {rows rows' : List Attachment}
    (h : rows'.map Attachment.holding = rows.map Attachment.holding) {a' : Attachment}
    (ha : a' ∈ rows') : ∃ a ∈ rows, a.holding = a'.holding := by
  have hmem : a'.holding ∈ rows.map Attachment.holding := h ▸ List.mem_map_of_mem ha
  exact List.mem_map.mp hmem

theorem WellFormed.quiet {t' : Tables} (hw : WellFormed t) (h : Quiet t t') : WellFormed t' := by
  constructor
  · unfold UniqueOn
    rw [ids_of_holdings h.holdings]
    exact hw.attachmentIds
  · rw [h.artifacts]; exact hw.artifactIds
  · rw [h.files]; exact hw.fileIds
  · intro a' ha'
    obtain ⟨a, ha, he⟩ := mem_of_holdings h.holdings ha'
    have hc : a.conversationId = a'.conversationId := congrArg Holding.conversationId he
    rw [← hc]
    exact h.attachmentHome a ha (hw.attachmentHome a ha)
  · rw [h.artifacts]
    intro a ha
    exact h.artifactHome a ha (hw.artifactHome a ha)
  · rw [h.files, h.artifacts]; exact hw.fileHome
  · intro a' ha'
    obtain ⟨a, ha, he⟩ := mem_of_holdings h.holdings ha'
    have hd : a.declaredSizeBytes = a'.declaredSizeBytes := congrArg Holding.declaredSizeBytes he
    rw [← hd]
    exact hw.declared a ha
  · intro a' ha' hq
    obtain ⟨a, ha, he⟩ := mem_of_holdings h.holdings ha'
    have hs : a.sizeBytes = a'.sizeBytes := congrArg Holding.sizeBytes he
    have hqs : a.quotaState = a'.quotaState := congrArg Holding.quotaState he
    rw [← hs]
    exact hw.sized a ha (hqs.trans hq)
  · rw [h.files]; exact hw.fileSizes
  · rw [h.files]; exact hw.filesActive

/-- The keyed row, or another one. -/
theorem mem_setAttachment {a b : Attachment} {f : Attachment → Attachment} {account}
    (hw : WellFormed t) (ha : a ∈ t.attachments)
    (hb : b ∈ ((t.updateAccount account).setAttachment a.id f).attachments) :
    b = f a ∨ (b ∈ t.attachments ∧ b.id ≠ a.id) := by
  obtain ⟨b₀, hb₀, he⟩ := mem_updateWhere.mp hb
  by_cases hk : b₀.id = a.id
  · have hba : b₀ = a := hw.attachmentIds.eq hb₀ ha hk
    subst hba
    rw [if_pos (beq_self_eq_true _)] at he
    exact Or.inl he
  · rw [if_neg (by simpa using hk)] at he
    subst he
    exact Or.inr ⟨hb₀, hk⟩

theorem WellFormed.setAttachment {a : Attachment} {f : Attachment → Attachment} {account}
    (hw : WellFormed t) (ha : a ∈ t.attachments) (hid : ∀ b, (f b).id = b.id)
    (hc : (f a).conversationId = a.conversationId)
    (hd : (f a).declaredSizeBytes = a.declaredSizeBytes)
    (hs : (f a).quotaState = .committed → ∃ n, (f a).sizeBytes = some n ∧ 0 < n) :
    WellFormed ((t.updateAccount account).setAttachment a.id f) := by
  constructor
  · exact hw.attachmentIds.updateWhere hid
  · exact hw.artifactIds
  · exact hw.fileIds
  · intro b hb
    rcases mem_setAttachment hw ha hb with rfl | ⟨hb, -⟩
    · rw [hc]
      exact hw.attachmentHome a ha
    · exact hw.attachmentHome b hb
  · exact hw.artifactHome
  · exact hw.fileHome
  · intro b hb
    rcases mem_setAttachment hw ha hb with rfl | ⟨hb, -⟩
    · rw [hd]
      exact hw.declared a ha
    · exact hw.declared b hb
  · intro b hb
    rcases mem_setAttachment hw ha hb with rfl | ⟨hb, -⟩
    · exact hs
    · exact hw.sized b hb
  · exact hw.fileSizes
  · exact hw.filesActive

theorem WellFormed.initiate {row : Attachment} {account : Option StorageAccount}
    (hw : WellFormed t) (hfresh : ∀ a ∈ t.attachments, a.id ≠ row.id)
    (hhome : row.conversationId ∈ t.conversations.map (·.id))
    (hstate : row.quotaState = .reserved) (hsize : 0 < row.declaredSizeBytes) :
    WellFormed { t with account := account, attachments := t.attachments ++ [row] } := by
  constructor
  · exact hw.attachmentIds.append_one hfresh
  · exact hw.artifactIds
  · exact hw.fileIds
  · intro a ha
    rcases List.mem_append.mp ha with h | h
    · exact hw.attachmentHome a h
    · rw [List.mem_singleton.mp h]
      exact hhome
  · exact hw.artifactHome
  · exact hw.fileHome
  · intro a ha
    rcases List.mem_append.mp ha with h | h
    · exact hw.declared a h
    · rw [List.mem_singleton.mp h]
      exact hsize
  · intro a ha hq
    rcases List.mem_append.mp ha with h | h
    · exact hw.sized a h hq
    · rw [List.mem_singleton.mp h, hstate] at hq
      nomatch hq
  · exact hw.fileSizes
  · exact hw.filesActive

theorem WellFormed.createArtifact {row : Artifact} (hw : WellFormed t)
    (hfresh : ∀ a ∈ t.artifacts, a.id ≠ row.id)
    (hhome : row.conversationId ∈ t.conversations.map (·.id)) :
    WellFormed { t with artifacts := t.artifacts ++ [row] } := by
  constructor
  · exact hw.attachmentIds
  · exact hw.artifactIds.append_one hfresh
  · exact hw.fileIds
  · exact hw.attachmentHome
  · intro a ha
    rcases List.mem_append.mp ha with h | h
    · exact hw.artifactHome a h
    · rw [List.mem_singleton.mp h]
      exact hhome
  · intro f hf
    rw [List.map_append]
    exact List.mem_append_left _ (hw.fileHome f hf)
  · exact hw.declared
  · exact hw.sized
  · exact hw.fileSizes
  · exact hw.filesActive

theorem WellFormed.settle {selected : Artifact → Bool} {f : Artifact → Artifact}
    (hw : WellFormed t)
    (hf : ∀ a, (f a).id = a.id ∧ (f a).conversationId = a.conversationId) :
    WellFormed { t with artifacts := updateWhere selected f t.artifacts } := by
  constructor
  · exact hw.attachmentIds
  · exact hw.artifactIds.updateWhere fun a => (hf a).1
  · exact hw.fileIds
  · exact hw.attachmentHome
  · intro a ha
    have hstem : ∃ a₀ ∈ t.artifacts, a.conversationId = a₀.conversationId :=
      mem_updateWhere_stem (fun a => (hf a).2) ha
    obtain ⟨a₀, ha₀, he⟩ := hstem
    rw [he]
    exact hw.artifactHome a₀ ha₀
  · intro file hfile
    rw [map_updateWhere fun a => (hf a).1]
    exact hw.fileHome file hfile
  · exact hw.declared
  · exact hw.sized
  · exact hw.fileSizes
  · exact hw.filesActive

theorem WellFormed.reserveFile {row : ArtifactFile} {account : Option StorageAccount}
    (hw : WellFormed t) (hfresh : ∀ f ∈ t.files, f.id ≠ row.id)
    (hhome : row.artifactId ∈ t.artifacts.map (·.id)) (hstate : row.deletionStatus = .active)
    (hsize : 0 < row.sizeBytes) :
    WellFormed { t with files := t.files ++ [row], account := account } := by
  constructor
  · exact hw.attachmentIds
  · exact hw.artifactIds
  · exact hw.fileIds.append_one hfresh
  · exact hw.attachmentHome
  · exact hw.artifactHome
  · intro f hf
    rcases List.mem_append.mp hf with h | h
    · exact hw.fileHome f h
    · rw [List.mem_singleton.mp h]
      exact hhome
  · exact hw.declared
  · exact hw.sized
  · intro f hf
    rcases List.mem_append.mp hf with h | h
    · exact hw.fileSizes f h
    · rw [List.mem_singleton.mp h]
      exact hsize
  · intro f hf
    rcases List.mem_append.mp hf with h | h
    · exact hw.filesActive f h
    · rw [List.mem_singleton.mp h]
      exact hstate

/-- The commit of a file changes its quota state only. -/
theorem WellFormed.commitFile {id : Uuid} {account} (hw : WellFormed t) :
    WellFormed ((t.updateAccount account).setFile id
      fun file => { file with quotaState := .committed }) := by
  have hstem : ∀ f ∈ ((t.updateAccount account).setFile id
      fun file => { file with quotaState := .committed }).files,
      ∃ f₀ ∈ t.files, f.artifactId = f₀.artifactId ∧ f.sizeBytes = f₀.sizeBytes ∧
        f.deletionStatus = f₀.deletionStatus := by
    intro f hf
    obtain ⟨f₀, hf₀, rfl⟩ := mem_updateWhere.mp hf
    refine ⟨f₀, hf₀, ?_⟩
    split <;> exact ⟨rfl, rfl, rfl⟩
  constructor
  · exact hw.attachmentIds
  · exact hw.artifactIds
  · exact hw.fileIds.updateWhere fun _ => rfl
  · exact hw.attachmentHome
  · exact hw.artifactHome
  · intro f hf
    obtain ⟨f₀, hf₀, he, -, -⟩ := hstem f hf
    rw [he]
    exact hw.fileHome f₀ hf₀
  · exact hw.declared
  · exact hw.sized
  · intro f hf
    obtain ⟨f₀, hf₀, -, he, -⟩ := hstem f hf
    rw [he]
    exact hw.fileSizes f₀ hf₀
  · intro f hf
    obtain ⟨f₀, hf₀, -, -, he⟩ := hstem f hf
    rw [he]
    exact hw.filesActive f₀ hf₀

/-- Queueing anew reads and writes the jobs only. -/
theorem requeueJob_eq (t : Tables) (sourceId : Uuid) (objectKey : ObjectKey) (now : Int) :
    ∃ jobs, ∀ t', t'.jobs = t.jobs →
      requeueJob t' sourceId objectKey now = { t' with jobs := jobs } := by
  refine ⟨(requeueJob t sourceId objectKey now).jobs, fun t' he => ?_⟩
  unfold requeueJob Tables.insertJob
  rw [he]
  split
  · rfl
  · split
    · rw [← he]
    · rfl

variable {due : Attachment → Int → Prop} {issued : List Uuid} {t' : Tables}

theorem Change.wellFormed (h : Change due issued t t') (hw : WellFormed t) : WellFormed t' := by
  cases h with
  | quiet t' h => exact hw.quiet h
  | initiate row _ _ hfresh _ hhome _ hstate hsize _ _ =>
    exact hw.initiate hfresh hhome hstate.1 hsize
  | complete a f ha _ hid hf =>
    refine hw.setAttachment ha hid (congrArg Holding.conversationId hf)
      (congrArg Holding.declaredSizeBytes hf) fun _ => ?_
    exact ⟨a.declaredSizeBytes, congrArg Holding.sizeBytes hf, hw.declared a ha⟩
  | reject a f runAt ha _ _ hid hf =>
    have hset : WellFormed ((t.updateAccount fun account =>
        { account with
          reservedBytes := account.reservedBytes - a.declaredSizeBytes }).setAttachment
            a.id f) := by
      refine hw.setAttachment ha hid (congrArg Holding.conversationId hf)
        (congrArg Holding.declaredSizeBytes hf) fun hq => ?_
      have hreleased : (f a).quotaState = .released := congrArg Holding.quotaState hf
      rw [hreleased] at hq
      nomatch hq
    rw [← insertJobs_one]
    exact hset.congr (by rw [insertJobs_conversations]) (insertJobs_attachments _ _)
      (insertJobs_artifacts _ _) (insertJobs_files _ _)
  | remove p q r jobs hq _ _ => exact hw.purge p q r jobs hq
  | createArtifact row _ hfresh hhome => exact hw.createArtifact hfresh hhome
  | settle selected f hf _ => exact hw.settle hf
  | reserveFile row _ _ hfresh _ hhome _ hstate hsize _ =>
    exact hw.reserveFile hfresh hhome hstate.2 hsize
  | commitFile file _ _ => exact hw.commitFile
  | requeue sourceId objectKey now _ _ _ =>
    obtain ⟨jobs, he⟩ := requeueJob_eq t sourceId objectKey now
    rw [he t rfl]
    exact hw.congr rfl rfl rfl rfl
  | requestDeletion jobs at' _ _ =>
    refine hw.congr ?_ (insertJobs_attachments t jobs) (insertJobs_artifacts t jobs)
      (insertJobs_files t jobs)
    show (t.insertJobs jobs).conversations.map _ = _
    rw [insertJobs_conversations]
  | forget hrequested =>
    unfold deleteUser
    split
    · exact hw
    · exact wellFormed_empty.congr rfl rfl rfl rfl

end WellFormed

/-! ## 3. Bytes -/

section Balanced

variable {t : Tables}

/-- The account's row, present or not, holds the sums. -/
theorem Balanced.accountRow (hb : Balanced t) :
    t.accountRow.usedBytes = usedTotal t ∧ t.accountRow.reservedBytes = reservedTotal t := by
  unfold Tables.accountRow
  cases h : t.account with
  | none =>
    obtain ⟨h1, h2⟩ := hb.noAccount h
    unfold usedTotal reservedTotal
    rw [h1, h2]
    exact ⟨rfl, rfl⟩
  | some account =>
    obtain ⟨hu, hr, -⟩ := hb.counters account h
    exact ⟨hu, hr⟩

theorem Balanced.quiet {t' : Tables} (hb : Balanced t) (h : Quiet t t') : Balanced t' := by
  have hsum : ∀ (p : Holding → Bool) (w : Holding → ℤ),
      sumWhere (fun a => p a.holding) (fun a => w a.holding) t'.attachments =
        sumWhere (fun a => p a.holding) (fun a => w a.holding) t.attachments := by
    intro p w
    rw [← sumWhere_map Attachment.holding p w, h.holdings, sumWhere_map]
  have hu : usedTotal t' = usedTotal t := by
    unfold usedTotal
    rw [h.files]
    exact congrArg (· + _)
      (hsum (fun c => c.quotaState == .committed) (fun c => c.sizeBytes.getD 0))
  have hr : reservedTotal t' = reservedTotal t := by
    unfold reservedTotal
    rw [h.files]
    exact congrArg (· + _)
      (hsum (fun c => c.quotaState == .reserved) (fun c => c.declaredSizeBytes))
  constructor
  · intro hnone
    rw [h.account] at hnone
    obtain ⟨h1, h2⟩ := hb.noAccount hnone
    have hnil := h.holdings
    rw [h1, List.map_nil, List.map_eq_nil_iff] at hnil
    exact ⟨hnil, h.files.trans h2⟩
  · rw [h.account, hu, hr]
    exact hb.counters

theorem Balanced.initiate {row : Attachment} (hb : Balanced t)
    (hstate : row.quotaState = .reserved)
    (hlimit : t.accountRow.usedBytes + t.accountRow.reservedBytes + row.declaredSizeBytes ≤
      t.accountRow.limitBytes) :
    Balanced
      { t with
        account := some
          { t.accountRow with
            reservedBytes := t.accountRow.reservedBytes + row.declaredSizeBytes }
        attachments := t.attachments ++ [row] } := by
  obtain ⟨hu, hr⟩ := hb.accountRow
  constructor
  · intro hnone
    nomatch hnone
  · intro account haccount
    obtain rfl := Option.some.inj haccount
    unfold usedTotal reservedTotal committedAttachmentBytes reservedAttachmentBytes at *
    rw [sumWhere_append_one, sumWhere_append_one, hstate]
    simp only [beq_self_eq_true, if_true]
    refine ⟨?_, ?_, ?_⟩
    · have hne : (QuotaState.reserved == QuotaState.committed) = false := rfl
      rw [hne]
      simpa using hu
    · omega
    · omega

theorem Balanced.reserveFile {row : ArtifactFile} (hb : Balanced t)
    (hstate : row.quotaState = .reserved)
    (hlimit : t.accountRow.usedBytes + t.accountRow.reservedBytes + row.sizeBytes ≤
      t.accountRow.limitBytes) :
    Balanced
      { t with
        files := t.files ++ [row]
        account := some
          { t.accountRow with
            reservedBytes := t.accountRow.reservedBytes + row.sizeBytes } } := by
  obtain ⟨hu, hr⟩ := hb.accountRow
  constructor
  · intro hnone
    nomatch hnone
  · intro account haccount
    obtain rfl := Option.some.inj haccount
    unfold usedTotal reservedTotal fileBytes at *
    rw [sumWhere_append_one, sumWhere_append_one, hstate]
    simp only [beq_self_eq_true, if_true]
    refine ⟨?_, ?_, ?_⟩
    · have hne : (QuotaState.reserved == QuotaState.committed) = false := rfl
      rw [hne]
      simpa using hu
    · omega
    · omega

/-- One attachment changes its state; the account moves by the difference. -/
theorem Balanced.setAttachment {a : Attachment} {f : Attachment → Attachment}
    {move : StorageAccount → StorageAccount} (hw : WellFormed t) (hb : Balanced t)
    (ha : a ∈ t.attachments) (used reserved : ℤ)
    (hu : (if (f a).quotaState == .committed then (f a).sizeBytes.getD 0 else 0) =
      (if a.quotaState == .committed then a.sizeBytes.getD 0 else 0) + used)
    (hr : (if (f a).quotaState == .reserved then (f a).declaredSizeBytes else 0) =
      (if a.quotaState == .reserved then a.declaredSizeBytes else 0) + reserved)
    (hmove : ∀ account, (move account).usedBytes = account.usedBytes + used ∧
      (move account).reservedBytes = account.reservedBytes + reserved ∧
      (move account).limitBytes = account.limitBytes)
    (hle : used + reserved ≤ 0) :
    Balanced ((t.updateAccount move).setAttachment a.id f) := by
  have hsum : ∀ (p : Attachment → Bool) (w : Attachment → ℤ),
      sumWhere p w (updateWhere (fun b => b.id == a.id) f t.attachments) =
        sumWhere p w t.attachments - (if p a then w a else 0) +
          (if p (f a) then w (f a) else 0) :=
    fun p w => sumWhere_updateWhere_key hw.attachmentIds ha
  constructor
  · intro hnone
    have hnone' : t.account = none := Option.map_eq_none_iff.mp hnone
    obtain ⟨hnil, -⟩ := hb.noAccount hnone'
    rw [hnil] at ha
    nomatch ha
  · intro account' haccount'
    obtain ⟨account, haccount, rfl⟩ := Option.map_eq_some_iff.mp haccount'
    obtain ⟨hcu, hcr, hl⟩ := hb.counters account haccount
    obtain ⟨hm1, hm2, hm3⟩ := hmove account
    have hu' : usedTotal ((t.updateAccount move).setAttachment a.id f) = usedTotal t + used := by
      unfold usedTotal committedAttachmentBytes
      show sumWhere _ _ (updateWhere _ f t.attachments) + fileBytes .committed t.files = _
      rw [hsum, hu]
      ring
    have hr' : reservedTotal ((t.updateAccount move).setAttachment a.id f) =
        reservedTotal t + reserved := by
      unfold reservedTotal reservedAttachmentBytes
      show sumWhere _ _ (updateWhere _ f t.attachments) + fileBytes .reserved t.files = _
      rw [hsum, hr]
      ring
    rw [hu', hr', hm1, hm2, hm3]
    refine ⟨by omega, by omega, by omega⟩

theorem Balanced.commitFile {file : ArtifactFile} (hw : WellFormed t) (hb : Balanced t)
    (hfile : file ∈ t.files) (hstate : file.quotaState = .reserved) :
    Balanced ((t.updateAccount fun account =>
      { account with
        reservedBytes := account.reservedBytes - file.sizeBytes
        usedBytes := account.usedBytes + file.sizeBytes }).setFile file.id
          fun file => { file with quotaState := .committed }) := by
  have hsum : ∀ state : QuotaState, fileBytes state (updateWhere (fun f => f.id == file.id)
      (fun file => { file with quotaState := .committed }) t.files) =
      fileBytes state t.files - (if state = .reserved then file.sizeBytes else 0) +
        (if state = .committed then file.sizeBytes else 0) := by
    intro state
    have hone : fileBytes state (updateWhere (fun f => f.id == file.id)
        (fun file => { file with quotaState := .committed }) t.files) =
        fileBytes state t.files - (if file.quotaState == state then file.sizeBytes else 0) +
          (if QuotaState.committed == state then file.sizeBytes else 0) :=
      sumWhere_updateWhere_key hw.fileIds hfile
    rw [hone, hstate]
    cases state <;> rfl
  constructor
  · intro hnone
    have hnone' : t.account = none := Option.map_eq_none_iff.mp hnone
    obtain ⟨-, hnil⟩ := hb.noAccount hnone'
    rw [hnil] at hfile
    nomatch hfile
  · intro account' haccount'
    obtain ⟨account, haccount, rfl⟩ := Option.map_eq_some_iff.mp haccount'
    obtain ⟨hcu, hcr, hl⟩ := hb.counters account haccount
    have hc := hsum .committed
    have hr := hsum .reserved
    simp only [if_true, reduceCtorEq, if_false] at hc hr
    unfold usedTotal reservedTotal at *
    show account.usedBytes + file.sizeBytes =
        committedAttachmentBytes t.attachments + fileBytes .committed (updateWhere _ _ t.files) ∧
      account.reservedBytes - file.sizeBytes =
        reservedAttachmentBytes t.attachments + fileBytes .reserved (updateWhere _ _ t.files) ∧
      account.usedBytes + file.sizeBytes + (account.reservedBytes - file.sizeBytes) ≤
        account.limitBytes
    rw [hc, hr]
    refine ⟨by omega, by omega, by omega⟩

variable {due : Attachment → Int → Prop} {issued : List Uuid} {t' : Tables}

theorem Change.balanced (h : Change due issued t t') (hw : WellFormed t) (hb : Balanced t) :
    Balanced t' := by
  cases h with
  | quiet t' h => exact hb.quiet h
  | initiate row _ _ _ _ _ _ hstate _ hlimit _ => exact hb.initiate hstate.1 hlimit
  | complete a f ha hstate _ hf =>
    have hq : (f a).quotaState = .committed := congrArg Holding.quotaState hf
    have hs : (f a).sizeBytes = some a.declaredSizeBytes := congrArg Holding.sizeBytes hf
    refine hb.setAttachment hw ha a.declaredSizeBytes (-a.declaredSizeBytes)
      ?_ ?_ (fun account => ⟨rfl, ?_, rfl⟩) (by omega)
    · rw [hq, hs, hstate.1]
      simp
    · rw [hq, hstate.1]
      simp
    · exact Int.sub_eq_add_neg
  | reject a f runAt ha hstate _ _ hf =>
    have hq : (f a).quotaState = .released := congrArg Holding.quotaState hf
    have hset : Balanced ((t.updateAccount fun account =>
        { account with
          reservedBytes := account.reservedBytes - a.declaredSizeBytes }).setAttachment
            a.id f) := by
      have hpos := hw.declared a ha
      refine hb.setAttachment hw ha 0 (-a.declaredSizeBytes)
        ?_ ?_ (fun account => ⟨?_, ?_, rfl⟩) (by omega)
      · rw [hq, hstate]
        simp
      · rw [hq, hstate]
        simp
      · exact (add_zero _).symm
      · exact Int.sub_eq_add_neg
    rw [← insertJobs_one]
    exact hset.congr (insertJobs_account _ _) (insertJobs_attachments _ _)
      (insertJobs_files _ _)
  | remove p q r jobs _ _ _ => exact hb.purge hw p q r jobs
  | createArtifact row _ _ _ => exact hb.congr rfl rfl rfl
  | settle selected f _ _ => exact hb.congr rfl rfl rfl
  | reserveFile row _ _ _ _ _ _ hstate _ hlimit => exact hb.reserveFile hstate.1 hlimit
  | commitFile file hfile hstate => exact hb.commitFile hw hfile hstate
  | requeue sourceId objectKey now _ _ _ =>
    obtain ⟨jobs, he⟩ := requeueJob_eq t sourceId objectKey now
    rw [he t rfl]
    exact hb.congr rfl rfl rfl
  | requestDeletion jobs at' _ _ =>
    exact hb.congr (insertJobs_account t jobs) (insertJobs_attachments t jobs)
      (insertJobs_files t jobs)
  | forget hrequested =>
    unfold deleteUser
    split
    · exact hb
    · exact balanced_empty.congr rfl rfl rfl

end Balanced

end OpenVac.ChatStorage
