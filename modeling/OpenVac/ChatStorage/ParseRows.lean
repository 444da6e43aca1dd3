/-
  File:      OpenVac/ChatStorage/ParseRows.lean
  Subject:   What the steps of the chat storage do to the parsing of documents: to the status
             columns of attachments and to their passages.

  * `Attachment.coherent` -- which values the status columns take together.
  * `Aside` -- a move that is no worker's: a row keeps its columns, or is an upload that moves on,
    and passages go with their attachment only.
  * Every transaction of the services and of the removals is a move aside.
-/
import OpenVac.ChatStorage.Accounting

namespace OpenVac.ChatStorage

open Rows

/-! ## 1. Rows -/

/-- The upload has not ended. -/
def Attachment.uploading (a : Attachment) : Bool :=
  a.status == .initiated || a.status == .uploading || a.status == .scanning

/-- The status columns fit together, and only a job that is being worked on has a lease. -/
def Attachment.coherent (a : Attachment) : Bool :=
  match a.status with
  | .initiated | .uploading | .scanning =>
      a.parse.status == (if a.kind == .image then .not_required else .queued) &&
        a.parse.leaseToken.isNone
  | .processing =>
      a.kind == .document &&
        ((a.parse.status == .queued && a.parse.leaseToken.isNone) ||
          (a.parse.status == .processing && a.parse.leaseToken.isSome))
  | .ready =>
      a.parse.status == (if a.kind == .image then .not_required else .ready) &&
        a.parse.leaseToken.isNone
  | .failed => a.parse.status == .failed && a.parse.leaseToken.isNone
  | .deleted => false

/-- How a row may change in a step that is no worker's. -/
structure Attachment.Passes (a a' : Attachment) : Prop where
  id : a'.id = a.id
  kind : a'.kind = a.kind
  change : (a'.status = a.status ∧ a'.parse = a.parse) ∨
    (a.uploading = true ∧ (a.coherent = true →
      a'.coherent = true ∧ a'.parse.leaseToken = none ∧ a'.parse.status ≠ .ready))

theorem Attachment.Passes.refl (a : Attachment) : a.Passes a := ⟨rfl, rfl, Or.inl ⟨rfl, rfl⟩⟩

/-- Coherence reads three columns. -/
theorem Attachment.coherent_congr {a a' : Attachment} (hk : a'.kind = a.kind)
    (hs : a'.status = a.status) (hp : a'.parse = a.parse) : a'.coherent = a.coherent := by
  unfold Attachment.coherent
  rw [hk, hs, hp]

theorem Attachment.Passes.trans {a b c : Attachment} (h : a.Passes b) (h' : b.Passes c) :
    a.Passes c := by
  refine ⟨h'.id.trans h.id, h'.kind.trans h.kind, ?_⟩
  rcases h.change with ⟨hs, hp⟩ | ⟨hup, hco⟩
  · rcases h'.change with ⟨hs', hp'⟩ | ⟨hup', hco'⟩
    · exact Or.inl ⟨hs'.trans hs, hp'.trans hp⟩
    · refine Or.inr ⟨?_, fun hc => hco' ?_⟩
      · unfold Attachment.uploading at hup' ⊢
        rw [← hs]
        exact hup'
      · rw [Attachment.coherent_congr h.kind hs hp]
        exact hc
  · rcases h'.change with ⟨hs', hp'⟩ | ⟨-, hco'⟩
    · refine Or.inr ⟨hup, fun hc => ?_⟩
      rw [Attachment.coherent_congr h'.kind hs' hp', hp']
      exact hco hc
    · exact Or.inr ⟨hup, fun hc => hco' (hco hc).1⟩

theorem Attachment.Passes.coherent {a a' : Attachment} (h : a.Passes a')
    (hc : a.coherent = true) : a'.coherent = true := by
  rcases h.change with ⟨hs, hp⟩ | ⟨-, hco⟩
  · rw [Attachment.coherent_congr h.kind hs hp]
    exact hc
  · exact (hco hc).1

/-- Coherence of an upload. -/
theorem Attachment.coherent_uploading {a : Attachment} (hup : a.uploading = true) :
    a.coherent =
      (a.parse.status == (if a.kind == .image then .not_required else .queued) &&
        a.parse.leaseToken.isNone) := by
  unfold Attachment.uploading at hup
  simp only [Bool.or_eq_true, beq_iff_eq] at hup
  unfold Attachment.coherent
  rcases hup with (h | h) | h <;> rw [h]

theorem Attachment.coherent_upload {a : Attachment} (hup : a.uploading = true)
    (hc : a.coherent = true) : a.parse.leaseToken = none ∧ a.parse.status ≠ .ready := by
  rw [Attachment.coherent_uploading hup, Bool.and_eq_true, beq_iff_eq,
    Option.isNone_iff_eq_none] at hc
  refine ⟨hc.2, ?_⟩
  rw [hc.1]
  split <;> simp

/-- An upload that stays one, with its parse columns. -/
theorem Attachment.Passes.upload {a a' : Attachment} (hid : a'.id = a.id) (hk : a'.kind = a.kind)
    (hp : a'.parse = a.parse) (hup : a.uploading = true) (hup' : a'.uploading = true) :
    a.Passes a' := by
  refine ⟨hid, hk, Or.inr ⟨hup, fun hc => ?_⟩⟩
  have hc' : a'.coherent = true := by
    rw [Attachment.coherent_uploading hup', hp, hk, ← Attachment.coherent_uploading hup]
    exact hc
  exact ⟨hc', Attachment.coherent_upload hup' hc'⟩

/-! ## 2. Moves aside -/

/-- A move that is no worker's. -/
structure Aside (t t' : Tables) : Prop where
  rows : ∀ a' ∈ t'.attachments, ∃ a ∈ t.attachments, a.Passes a'
  chunks : ∃ gone : Uuid → Bool,
    t'.chunks = deleteWhere (fun row => gone row.attachmentId) t.chunks ∧
    (∀ a' ∈ t'.attachments, gone a'.id = false) ∧
    ∀ a ∈ t.attachments, gone a.id = false → ∃ a' ∈ t'.attachments, a.Passes a'

theorem Aside.of_same {t t' : Tables} (ha : t'.attachments = t.attachments)
    (hc : t'.chunks = t.chunks) : Aside t t' := by
  refine ⟨fun a' ha' => ⟨a', ha ▸ ha', .refl a'⟩, fun _ => false, ?_, fun _ _ => rfl,
    fun a hmem _ => ⟨a, ha ▸ hmem, .refl a⟩⟩
  rw [hc]
  exact (deleteWhere_false _).symm

theorem Aside.refl (t : Tables) : Aside t t := .of_same rfl rfl

theorem Aside.trans {t u v : Tables} (h : Aside t u) (h' : Aside u v) : Aside t v := by
  obtain ⟨gone, hchunks, hgone, hkept⟩ := h.chunks
  obtain ⟨gone', hchunks', hgone', hkept'⟩ := h'.chunks
  refine ⟨fun c hc => ?_, fun id => gone id || gone' id, ?_, fun c hc => ?_, fun a ha hno => ?_⟩
  · obtain ⟨b, hb, hbc⟩ := h'.rows c hc
    obtain ⟨a, ha, hab⟩ := h.rows b hb
    exact ⟨a, ha, hab.trans hbc⟩
  · rw [hchunks', hchunks]
    unfold deleteWhere
    rw [List.filter_filter]
    refine List.filter_congr fun row _ => ?_
    simp only [Bool.not_or, Bool.and_comm]
  · obtain ⟨b, hb, hbc⟩ := h'.rows c hc
    have hfirst := hgone b hb
    rw [← hbc.id] at hfirst
    simp only [hfirst, hgone' c hc, Bool.or_self]
  · simp only [Bool.or_eq_false_iff] at hno
    obtain ⟨b, hb, hab⟩ := hkept a ha hno.1
    obtain ⟨c, hc, hbc⟩ := hkept' b hb (by rw [hab.id]; exact hno.2)
    exact ⟨c, hc, hab.trans hbc⟩

/-- Deleting attachments takes their passages along, and no others. -/
theorem aside_delete {t u : Tables} (hu : UniqueOn (·.id) t.attachments)
    (ha : u.attachments = t.attachments) (hc : u.chunks = t.chunks) (p : Attachment → Bool) :
    Aside t (u.deleteAttachments p) := by
  rw [← ha] at hu
  refine (Aside.of_same ha hc).trans ⟨fun a' ha' => ⟨a', (mem_deleteWhere.mp ha').1, .refl a'⟩,
    fun id => u.attachments.any fun a => a.id == id && p a, rfl, fun a' ha' => ?_,
    fun a ha hno => ⟨a, mem_deleteWhere.mpr ⟨ha, ?_⟩, .refl a⟩⟩
  · obtain ⟨ha', hkeep⟩ := mem_deleteWhere.mp ha'
    refine List.any_eq_false.mpr fun a ha hsel => ?_
    rw [Bool.and_eq_true, beq_iff_eq] at hsel
    rw [hu.eq ha ha' hsel.1, hkeep] at hsel
    nomatch hsel.2
  · have hself := List.any_eq_false.mp hno a ha
    simpa using hself

/-- An update of attachments, row by row. -/
theorem aside_update {t t' : Tables} {p : Attachment → Bool} {f : Attachment → Attachment}
    (ha : t'.attachments = updateWhere p f t.attachments) (hc : t'.chunks = t.chunks)
    (hf : ∀ a ∈ t.attachments, p a = true → a.Passes (f a)) : Aside t t' := by
  have hrow : ∀ a ∈ t.attachments, a.Passes (if p a = true then f a else a) := by
    intro a hmem
    split
    · next h => exact hf a hmem h
    · exact .refl a
  refine ⟨fun a' ha' => ?_, fun _ => false, ?_, fun _ _ => rfl, fun a hmem _ => ?_⟩
  · rw [ha] at ha'
    obtain ⟨a, hmem, rfl⟩ := mem_updateWhere.mp ha'
    exact ⟨a, hmem, hrow a hmem⟩
  · rw [hc]
    exact (deleteWhere_false _).symm
  · rw [ha]
    exact ⟨_, mem_updateWhere_of_mem hmem, hrow a hmem⟩

/-! ## 3. The transactions of the services -/

section Services

variable {t t' : Tables}

/-- A fold whose rounds are moves aside. -/
theorem aside_foldl {α : Type} {f : Tables → α → Tables}
    (hf : ∀ t x, UniqueOn (·.id) t.attachments →
      UniqueOn (·.id) (f t x).attachments ∧ Aside t (f t x))
    (l : List α) (t : Tables) (hu : UniqueOn (·.id) t.attachments) : Aside t (l.foldl f t) := by
  induction l generalizing t with
  | nil => exact .refl t
  | cons x l ih =>
    have hround := hf t x hu
    exact hround.2.trans (ih (f t x) hround.1)

/-- A row that a lookup by id has found is the row of that id. -/
theorem find_id {p : Attachment → Bool} {id : Uuid} {target a : Attachment}
    (hu : UniqueOn (·.id) t.attachments)
    (hfind : (t.attachments.find? fun a => a.id == id && p a) = some target)
    (ha : a ∈ t.attachments) (hid : (a.id == id) = true) : a = target := by
  have hcond := List.find?_some hfind
  rw [Bool.and_eq_true] at hcond
  exact hu.eq ha (List.mem_of_find?_eq_some hfind)
    ((beq_iff_eq.mp hid).trans (beq_iff_eq.mp hcond.1).symm)

theorem aside_beginCompletion {id : Uuid} {r : Attachment × Bool}
    (hu : UniqueOn (·.id) t.attachments) (h : beginCompletion id t = .ok (r, t')) :
    Aside t t' := by
  unfold beginCompletion at h
  split at h
  · nomatch h
  · next target hfind =>
    split at h
    · obtain rfl := congrArg Prod.snd (Except.ok.inj h)
      exact .refl t
    · split at h
      · nomatch h
      · next hstate =>
        simp only [not_or, Bool.not_eq_true', Bool.not_eq_false, List.contains_iff_mem,
          List.mem_cons, List.not_mem_nil, or_false] at hstate
        obtain rfl := congrArg Prod.snd (Except.ok.inj h)
        refine aside_update rfl rfl fun a ha hid => .upload rfl rfl rfl ?_ rfl
        rw [find_id hu hfind ha hid]
        unfold Attachment.uploading
        rcases hstate.2.2 with h | h <;> rw [h] <;> rfl

/-- A row that is being verified. -/
theorem uploading_of_scanning {a : Attachment} (h : a.status = .scanning) : a.uploading = true := by
  unfold Attachment.uploading
  rw [h]
  rfl

theorem aside_completeVerified {id : Uuid} {sizeBytes : ℤ} {etag : Option String} {now : Int}
    {r : Option Attachment} (hu : UniqueOn (·.id) t.attachments)
    (h : completeVerified id sizeBytes etag now t = .ok (r, t')) : Aside t t' := by
  unfold completeVerified at h
  split at h
  · nomatch h
  · next target hfind =>
    have hcond := List.find?_some hfind
    simp only [Bool.and_eq_true, beq_iff_eq] at hcond
    obtain ⟨⟨⟨htarget, hscanning⟩, -⟩, -⟩ := hcond
    split at h
    · nomatch h
    · obtain rfl := congrArg Prod.snd (Except.ok.inj h)
      refine aside_update rfl rfl fun a ha hid => ?_
      have he : a = target := hu.eq ha (List.mem_of_find?_eq_some hfind)
        ((beq_iff_eq.mp hid).trans htarget.symm)
      have hup : a.uploading = true := uploading_of_scanning (he ▸ hscanning)
      refine ⟨rfl, rfl, Or.inr ⟨hup, fun hc => ?_⟩⟩
      have hlease := (Attachment.coherent_upload hup hc).1
      subst he
      cases hkind : a.kind <;> simp [Attachment.coherent, hlease]

theorem aside_resetCompletion (id : Uuid) (t : Tables) : Aside t (resetCompletion id t) := by
  refine aside_update rfl rfl fun a _ hp => .upload rfl rfl rfl ?_ rfl
  simp only [Bool.and_eq_true, beq_iff_eq] at hp
  exact uploading_of_scanning hp.1.1.2

theorem aside_rejectCompletion (hu : UniqueOn (·.id) t.attachments) (id : Uuid)
    (code message : String) (now : Int) : Aside t (rejectCompletion id code message now t) := by
  unfold rejectCompletion
  split
  · exact .refl t
  · next target hfind =>
    have hcond := List.find?_some hfind
    simp only [Bool.and_eq_true, beq_iff_eq] at hcond
    obtain ⟨⟨htarget, hscanning⟩, -⟩ := hcond
    refine aside_update (insertJobs_attachments _ [_]) (insertJobs_chunks _ [_])
      fun a ha hid => ?_
    have he : a = target := hu.eq ha (List.mem_of_find?_eq_some hfind)
      ((beq_iff_eq.mp hid).trans htarget.symm)
    have hup : a.uploading = true := uploading_of_scanning (he ▸ hscanning)
    refine ⟨rfl, rfl, Or.inr ⟨hup, fun hc => ?_⟩⟩
    have hlease := (Attachment.coherent_upload hup hc).1
    simp [Attachment.coherent, hlease]

theorem aside_bindToMessage {ids : List Uuid} {conversationId messageId : Uuid}
    {r : List Attachment} (h : bindToMessage ids conversationId messageId t = .ok (r, t')) :
    Aside t t' := by
  unfold bindToMessage at h
  simp only at h
  split at h
  · nomatch h
  · split at h
    · nomatch h
    · split at h
      · nomatch h
      · obtain rfl := congrArg Prod.snd (Except.ok.inj h)
        exact aside_update rfl rfl fun a _ _ => ⟨rfl, rfl, Or.inl ⟨rfl, rfl⟩⟩

theorem aside_deleteUnbound {floor : ℤ → ℤ} {id : Uuid} {now : Int} {r : Unit}
    (hu : UniqueOn (·.id) t.attachments) (h : deleteUnbound floor id now t = .ok (r, t')) :
    Aside t t' := by
  unfold deleteUnbound at h
  split at h
  · nomatch h
  · obtain rfl := congrArg Prod.snd (Except.ok.inj h)
    refine aside_delete hu ?_ ?_ _
    · exact insertJobs_attachments t [_]
    · exact insertJobs_chunks t [_]

/-! ## 4. Removal -/

theorem aside_enqueueConversationStorageDeletion (floor : ℤ → ℤ) (conversationIds : List Uuid)
    (deleteMetadata : Bool) (now : Int) (hu : UniqueOn (·.id) t.attachments) :
    Aside t (enqueueConversationStorageDeletion floor conversationIds deleteMetadata now t).2 := by
  unfold enqueueConversationStorageDeletion
  simp only
  generalize attachmentJobs _ now ++ _ = jobs
  split
  · exact (aside_delete hu (insertJobs_attachments t jobs) (insertJobs_chunks t jobs) _).trans
      (.of_same rfl rfl)
  · exact .of_same (insertJobs_attachments t jobs) (insertJobs_chunks t jobs)

theorem aside_deleteConversation (floor : ℤ → ℤ) (id : Uuid) (now : Int)
    (hu : UniqueOn (·.id) t.attachments) :
    Aside t (deleteConversation floor id now t).2 := by
  unfold deleteConversation
  split
  · exact .refl t
  · generalize hmark : { t with conversations := _ } = u
    have ha : u.attachments = t.attachments := by rw [← hmark]
    have hc : u.chunks = t.chunks := by rw [← hmark]
    rw [← ha] at hu
    exact (Aside.of_same ha hc).trans
      (aside_enqueueConversationStorageDeletion floor [id] true now hu)

/-- A removal keeps the ids unique. -/
theorem unique_enqueueConversationStorageDeletion (floor : ℤ → ℤ) (conversationIds : List Uuid)
    (deleteMetadata : Bool) (now : Int) (hu : UniqueOn (·.id) t.attachments) :
    UniqueOn (·.id) (enqueueConversationStorageDeletion floor conversationIds deleteMetadata now
      t).2.attachments := by
  unfold enqueueConversationStorageDeletion
  simp only
  generalize attachmentJobs _ now ++ _ = jobs
  have hjobs : UniqueOn (·.id) (t.insertJobs jobs).attachments := by
    rw [insertJobs_attachments]
    exact hu
  split
  · exact hjobs.deleteWhere _
  · exact hjobs

theorem aside_clearConversationData (floor : ℤ → ℤ) (now : Int)
    (hu : UniqueOn (·.id) t.attachments) : Aside t (clearConversationData floor now t).2 := by
  unfold clearConversationData
  simp only
  have hremove := aside_enqueueConversationStorageDeletion floor (t.conversations.map (·.id)) true
    now hu
  split
  · exact hremove
  · unfold deleteConversations
    exact (hremove.trans (aside_delete (unique_enqueueConversationStorageDeletion floor _ true now hu)
      rfl rfl _)).trans (.of_same rfl rfl)

theorem aside_prepareUserDeletion (now : Int) (hu : UniqueOn (·.id) t.attachments) :
    Aside t (prepareUserDeletion now t) := by
  unfold prepareUserDeletion
  split
  · exact .refl t
  · exact (aside_enqueueConversationStorageDeletion greatest [] false now hu).trans
      (.of_same rfl rfl)

theorem aside_deleteUser (t : Tables) : Aside t (deleteUser t) := by
  unfold deleteUser
  split
  · exact .refl t
  · refine ⟨fun _ h => (nomatch h), fun _ => true, ?_, fun _ h => (nomatch h),
      fun _ _ h => (nomatch h)⟩
    show [] = deleteWhere (fun _ => true) t.chunks
    simp [deleteWhere]

theorem aside_enqueueExpiredOrphans (floor : ℤ → ℤ) (picked : List Uuid) (now : Int)
    (hu : UniqueOn (·.id) t.attachments) :
    Aside t (enqueueExpiredOrphans floor picked now t).2 := by
  unfold enqueueExpiredOrphans
  refine aside_foldl (fun t row hu => ?_) _ t hu
  have hjobs : UniqueOn (·.id) (t.insertJobs [Tables.queuedJob .attachment row.id row.objectKey
      now]).attachments := by
    rw [insertJobs_attachments]
    exact hu
  refine ⟨hjobs.deleteWhere _, aside_delete hu ?_ ?_ _⟩
  · exact insertJobs_attachments t [_]
  · exact insertJobs_chunks t [_]

/-! ## 5. The artifact service -/

theorem aside_createArtifact {input : CreateArtifactInput} {r : Artifact}
    (h : createArtifact input t = .ok (r, t')) : Aside t t' := by
  obtain ⟨-, -, -, -, rfl⟩ := createArtifact_ok h
  exact .of_same rfl rfl

theorem aside_reserveFile {input : ReserveFileInput} {now : Int} {r : Unit} (hw : WellFormed t)
    (h : reserveFile input now t = .ok (r, t')) : Aside t t' := by
  obtain ⟨-, -, -, -, -, rfl⟩ := reserveFile_ok hw h
  exact .of_same rfl rfl

theorem aside_commitFile {fileId artifactId : Uuid} {r : ArtifactFile}
    (h : commitFile fileId artifactId t = .ok (r, t')) : Aside t t' := by
  unfold commitFile at h
  split at h
  · nomatch h
  · obtain rfl := congrArg Prod.snd (Except.ok.inj h)
    exact .of_same rfl rfl

theorem aside_requeueJob (t : Tables) (sourceId : Uuid) (objectKey : ObjectKey) (now : Int) :
    Aside t (requeueJob t sourceId objectKey now) := by
  unfold requeueJob
  split
  · exact .of_same rfl rfl
  · exact .of_same (insertJobs_attachments t [_]) (insertJobs_chunks t [_])

theorem aside_abortFile {floor : ℤ → ℤ} {fileId artifactId : Uuid} {objectKey : ObjectKey}
    {now : Int} {r : Unit} (h : abortFile floor fileId artifactId objectKey now t = .ok (r, t')) :
    Aside t t' := by
  unfold abortFile at h
  simp only at h
  split at h
  · next file _ =>
    split at h
    · nomatch h
    · obtain rfl := congrArg Prod.snd (Except.ok.inj h)
      have hrelease : Aside t (t.release floor 0 file.sizeBytes) := .of_same rfl rfl
      exact (hrelease.trans (aside_requeueJob _ fileId objectKey now)).trans (.of_same rfl rfl)
  · obtain rfl := congrArg Prod.snd (Except.ok.inj h)
    exact (aside_requeueJob t fileId objectKey now).trans (.of_same rfl rfl)

theorem aside_completeArtifact {artifactId conversationId : Uuid} {now : Int} {r : Artifact}
    (h : completeArtifact artifactId conversationId now t = .ok (r, t')) : Aside t t' := by
  unfold completeArtifact at h
  simp only at h
  split at h
  · nomatch h
  · split at h
    · nomatch h
    · split at h
      · nomatch h
      · obtain rfl := congrArg Prod.snd (Except.ok.inj h)
        exact .of_same rfl rfl

/-- Jobs are inserted and bytes released. -/
theorem aside_release (t : Tables) (floor : ℤ → ℤ) (jobs : List DeletionJob) (c : Prop)
    [Decidable c] (used reserved : ℤ) :
    Aside t (if c then (t.insertJobs jobs).release floor used reserved else t.insertJobs jobs) := by
  split <;> exact .of_same (insertJobs_attachments t jobs) (insertJobs_chunks t jobs)

theorem aside_failArtifact {floor : ℤ → ℤ} {artifactId conversationId : Uuid} {now : Int}
    {r : List ObjectKey} (h : failArtifact floor artifactId conversationId now t = .ok (r, t')) :
    Aside t t' := by
  unfold failArtifact at h
  simp only at h
  split at h
  · nomatch h
  · split at h
    · obtain rfl := congrArg Prod.snd (Except.ok.inj h)
      exact .refl t
    · obtain rfl := congrArg Prod.snd (Except.ok.inj h)
      exact (aside_release t floor _ _ _ _).trans (.of_same rfl rfl)

theorem aside_cleanupRunArtifacts (floor : ℤ → ℤ) (input : CleanupInput) (now : Int)
    (t : Tables) : Aside t (cleanupRunArtifacts floor input now t) := by
  unfold cleanupRunArtifacts
  simp only
  have hrelease (c : Prop) [Decidable c] (used reserved : ℤ) :
      Aside t (if c then t.release floor used reserved else t) := by
    split
    · exact .of_same rfl rfl
    · exact .refl t
  exact (hrelease _ _ _).trans
    (.of_same (insertJobs_attachments _ _) (insertJobs_chunks _ _))

end Services

end OpenVac.ChatStorage
