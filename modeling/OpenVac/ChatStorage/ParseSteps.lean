/-
  File:      OpenVac/ChatStorage/ParseSteps.lean
  Subject:   What one step of the chat storage does to the parsing of documents.

  * `Attachment.Worked` -- what an operation of a worker makes of the row it holds.
  * `ParseMove` -- the kinds of steps: nothing, a move aside, a new upload, a claim, work on a
    job that is current, a save of a job that is current.
  * `step_move` -- every step is one of them.
-/
import OpenVac.ChatStorage.ParseRows

namespace OpenVac.ChatStorage

open Rows

/-! ## 1. Work on a job -/

/-- What an operation of a worker makes of the row it holds. -/
structure Attachment.Worked (a a' : Attachment) : Prop where
  id : a'.id = a.id
  kind : a'.kind = a.kind
  coherent : a.coherent = true → a'.coherent = true
  lease : a'.parse.leaseToken = none ∨
    (a'.parse.leaseToken = a.parse.leaseToken ∧ a'.parse.lockedBy = a.parse.lockedBy)

/-- A row that is being parsed. -/
theorem Attachment.coherent_processing {a : Attachment} (hp : a.parse.status = .processing)
    (hc : a.coherent = true) :
    a.status = .processing ∧ a.kind = .document ∧ a.parse.leaseToken.isSome = true := by
  unfold Attachment.coherent at hc
  rw [hp] at hc
  cases hs : a.status <;> cases hk : a.kind <;> simp [hs, hk] at hc ⊢
  exact hc

theorem leasedParse_status {job : ChatAttachmentParseJob} {a : Attachment}
    (h : leasedParse job a = true) : a.parse.status = .processing := by
  unfold leasedParse at h
  simp only [Bool.and_eq_true, beq_iff_eq] at h
  exact h.1.1.2

theorem leasedParse_id {job : ChatAttachmentParseJob} {a : Attachment}
    (h : leasedParse job a = true) : a.id = job.id := by
  unfold leasedParse at h
  simp only [Bool.and_eq_true, beq_iff_eq] at h
  exact h.1.1.1

theorem leasedParse_token {job : ChatAttachmentParseJob} {a : Attachment}
    (h : leasedParse job a = true) : a.parse.leaseToken = some job.leaseToken := by
  unfold leasedParse at h
  simp only [Bool.and_eq_true, beq_iff_eq] at h
  exact h.2

/-- What an operation of a worker that commits has done. -/
theorem updateLeased_ok {job : ChatAttachmentParseJob} {f : Attachment → Attachment}
    {t t' : Tables} {r : Unit} (h : updateLeased job f t = .ok (r, t')) :
    (∃ a ∈ t.attachments, leasedParse job a = true) ∧
      t' = { t with attachments := updateWhere (leasedParse job) f t.attachments } := by
  unfold updateLeased at h
  split at h
  · next hany => exact ⟨List.any_eq_true.mp hany, (congrArg Prod.snd (Except.ok.inj h)).symm⟩
  · nomatch h

/-- A renewal moves the lock's time. -/
theorem Attachment.Worked.renew (a : Attachment) (lockedAt : Int) :
    a.Worked { a with parse := { a.parse with lockedAt := some lockedAt } } :=
  ⟨rfl, rfl, fun hc => hc, Or.inr ⟨rfl, rfl⟩⟩

/-- A job goes back to the queue. -/
theorem Attachment.Worked.requeue {a a' : Attachment} (hp : a.parse.status = .processing)
    (hid : a'.id = a.id) (hk : a'.kind = a.kind)
    (hs : a.status = .processing → a'.status = .processing)
    (hq : a'.parse.status = .queued) (hnone : a'.parse.leaseToken = none) : a.Worked a' := by
  refine ⟨hid, hk, fun hc => ?_, Or.inl hnone⟩
  obtain ⟨hstatus, hkind, -⟩ := Attachment.coherent_processing hp hc
  have hkind' : a'.kind = .document := hk.trans hkind
  simp [Attachment.coherent, hs hstatus, hq, hnone, hkind']

/-- A job fails for good. -/
theorem Attachment.Worked.fail {a a' : Attachment} (hid : a'.id = a.id) (hk : a'.kind = a.kind)
    (hs : a'.status = .failed) (hq : a'.parse.status = .failed)
    (hnone : a'.parse.leaseToken = none) : a.Worked a' := by
  refine ⟨hid, hk, fun _ => ?_, Or.inl hnone⟩
  simp [Attachment.coherent, hs, hq, hnone]

/-- The passages of a job are complete. -/
theorem Attachment.Worked.complete {a a' : Attachment} (hp : a.parse.status = .processing)
    (hid : a'.id = a.id) (hk : a'.kind = a.kind) (hs : a'.status = .ready)
    (hq : a'.parse.status = .ready) (hnone : a'.parse.leaseToken = none) : a.Worked a' := by
  refine ⟨hid, hk, fun hc => ?_, Or.inl hnone⟩
  have hkind' : a'.kind = .document := hk.trans (Attachment.coherent_processing hp hc).2.1
  simp [Attachment.coherent, hs, hq, hnone, hkind']

/-- What a save that commits has done. -/
theorem saveChunksAndComplete_ok {job : ChatAttachmentParseJob}
    {chunks : List PrivateAttachmentChunk} {provider : String} {now : Int} {t t' : Tables}
    {r : Unit} (h : saveChunksAndComplete job chunks provider now t = .ok (r, t')) :
    (∃ a ∈ t.attachments, leasedParse job a = true) ∧
      t' =
        { t with
          attachments := updateWhere (leasedParse job)
            (fun a =>
              { a with
                status := .ready
                parse := unlocked { a.parse with status := .ready, provider := some provider }
                failureCode := none
                failureMessage := none
                readyAt := some now }) t.attachments
          chunks := deleteWhere (fun row => row.attachmentId == job.id) t.chunks ++
            chunks.map fun chunk => ⟨job.id, chunk⟩ } := by
  unfold saveChunksAndComplete at h
  split at h
  · nomatch h
  · split at h
    · nomatch h
    · obtain ⟨t₂, hinsert, hupdate⟩ := Except.bind_ok_iff.mp h
      unfold insertChunks at hinsert
      split at hinsert
      · nomatch hinsert
      · split at hinsert
        · nomatch hinsert
        · obtain rfl := Except.ok.inj hinsert
          exact updateLeased_ok hupdate

/-! ## 2. Steps that are no worker's -/

/-- A transaction that is no worker's. -/
theorem aside_transact {s : Storage} {β : Type} {tx : Tables → Except StorageError (β × Tables)}
    (h : ∀ b t', tx s.tables = .ok (b, t') → Aside s.tables t') :
    Aside s.tables (s.transact tx).tables := by
  show Aside s.tables (Machine.commit s.tables (tx s.tables))
  rcases Machine.commit_cases s.tables (tx s.tables) with he | ⟨b, t', ht, he⟩
  · rw [he]
    exact .refl _
  · rw [he]
    exact h b t' ht

/-- Work on deletion jobs. -/
theorem aside_worked {t t' : Tables} (h : Worked t t') : Aside t t' := by
  obtain ⟨jobs, rfl, -⟩ := h
  exact .of_same rfl rfl

/-! ## 3. The kinds of steps -/

/-- The job an operation of a worker is about. -/
def Action.parseJob : Action → Option ChatAttachmentParseJob
  | .renewAttachmentLease job => some job
  | .markParserSubmitted job .. => some job
  | .deferParserPoll job _ => some job
  | .saveChunksAndComplete job .. => some job
  | .markAttachmentFailed job .. => some job
  | _ => none

section Moves

variable [JsString.Sha256]

/-- What a step does to the parsing of documents. -/
inductive ParseMove (s : Storage) (action : Action) (s' : Storage) : Prop
  | nothing (h : s' = s)
  | aside (hparse : action.parseJob = none) (h : Aside s.tables s'.tables)
      (hparsing : s'.parsing = s.parsing)
  | starts (row : Attachment) (hparse : action.parseJob = none) (hnew : row.id ∉ s.issued)
      (hup : row.uploading = true) (hc : row.coherent = true)
      (hrows : s'.tables.attachments = s.tables.attachments ++ [row])
      (hchunks : s'.tables.chunks = s.tables.chunks) (hparsing : s'.parsing = s.parsing)
  | claims (workerId : String) (leaseToken : Uuid) (a : Attachment)
      (haction : action = .claimAttachmentParse a.id workerId leaseToken)
      (hfresh : leaseToken ∉ s.issued) (ha : a ∈ s.tables.attachments)
      (hclaim : parseClaimable s.now a = true)
      (hstate : s' =
        { s.draw leaseToken with
          tables := s.tables.setAttachment a.id (claimedRow workerId leaseToken s.now)
          parsing := parseAttachmentJob workerId leaseToken
            (claimedRow workerId leaseToken s.now a) :: s.parsing })
  | works (job : ChatAttachmentParseJob) (f : Attachment → Attachment)
      (haction : action.parseJob = some job) (hjob : job ∈ s.parsing)
      (hcurrent : ∃ a ∈ s.tables.attachments, leasedParse job a = true)
      (hf : ∀ a, leasedParse job a = true → a.Worked (f a) ∧ (f a).parse.status ≠ .ready)
      (hstate : s' =
        { s with
          tables :=
            { s.tables with
              attachments := updateWhere (leasedParse job) f s.tables.attachments } })
  | saves (job : ChatAttachmentParseJob) (source : ChunkSource) (provider : String)
      (chunks : List PrivateAttachmentChunk) (f : Attachment → Attachment)
      (haction : action = .saveChunksAndComplete job source provider) (hjob : job ∈ s.parsing)
      (hcurrent : ∃ a ∈ s.tables.attachments, leasedParse job a = true)
      (hchunks : chunksOf job.mimeType source = .ok chunks)
      (hf : ∀ a, leasedParse job a = true → a.Worked (f a) ∧ (f a).parse.status = .ready)
      (hstate : s' =
        { s with
          tables :=
            { s.tables with
              attachments := updateWhere (leasedParse job) f s.tables.attachments
              chunks := deleteWhere (fun row => row.attachmentId == job.id) s.tables.chunks ++
                chunks.map fun chunk => ⟨job.id, chunk⟩ } })

variable {s : Storage}

/-- An operation of a worker, under its lease or without effect. -/
theorem move_works {action : Action} {job : ChatAttachmentParseJob} {f : Attachment → Attachment}
    (haction : action.parseJob = some job)
    (hf : ∀ a, leasedParse job a = true → a.Worked (f a) ∧ (f a).parse.status ≠ .ready) :
    ParseMove s action (s.parseStep job (updateLeased job f)) := by
  unfold Storage.parseStep
  split
  · next hjob =>
    unfold Storage.transact
    rcases Machine.commit_cases s.tables (updateLeased job f s.tables) with he | ⟨b, t', ht, he⟩
    · rw [he]
      exact .nothing rfl
    · obtain ⟨hcurrent, rfl⟩ := updateLeased_ok ht
      rw [he]
      exact .works job f haction (List.contains_iff_mem.mp hjob) hcurrent hf rfl
  · exact .nothing rfl

theorem move_saves {job : ChatAttachmentParseJob} {source : ChunkSource} {provider : String}
    {chunks : List PrivateAttachmentChunk} (hchunks : chunksOf job.mimeType source = .ok chunks) :
    ParseMove s (.saveChunksAndComplete job source provider)
      (s.parseStep job (saveChunksAndComplete job chunks provider s.now)) := by
  unfold Storage.parseStep
  split
  · next hjob =>
    unfold Storage.transact
    rcases Machine.commit_cases s.tables (saveChunksAndComplete job chunks provider s.now s.tables)
      with he | ⟨b, t', ht, he⟩
    · rw [he]
      exact .nothing rfl
    · obtain ⟨hcurrent, rfl⟩ := saveChunksAndComplete_ok ht
      rw [he]
      refine .saves job source provider chunks _ rfl (List.contains_iff_mem.mp hjob) hcurrent
        hchunks (fun a ha => ?_) rfl
      exact ⟨.complete (leasedParse_status ha) rfl rfl rfl rfl rfl, rfl⟩
  · exact .nothing rfl

theorem move_claims (id : Uuid) (workerId : String) (leaseToken : Uuid)
    (hfresh : leaseToken ∉ s.issued) :
    ParseMove s (.claimAttachmentParse id workerId leaseToken)
      { s.draw leaseToken with
        tables := (claimAttachmentParse id workerId leaseToken s.now s.tables).2
        parsing := (claimAttachmentParse id workerId leaseToken s.now s.tables).1.toList ++
          s.parsing } := by
  unfold claimAttachmentParse
  split
  · exact .aside rfl (.refl _) rfl
  · next a hfind =>
    have hcond := List.find?_some hfind
    rw [Bool.and_eq_true, beq_iff_eq] at hcond
    obtain ⟨rfl, hclaim⟩ := hcond
    exact .claims workerId leaseToken a rfl hfresh (List.mem_of_find?_eq_some hfind) hclaim rfl

variable (floor : ℤ → ℤ)

/-- **Every step is one of these moves.** -/
theorem step_move (hs : Sound s) (action : Action) :
    ParseMove s action (s.step floor action) := by
  have hw := hs.wellFormed
  have hu := hw.attachmentIds
  have hself (hparse : action.parseJob = none) : ParseMove s action s :=
    .aside hparse (.refl _) rfl
  cases action with
  | tick ms => exact .aside rfl (.refl _) rfl
  | addConversation id =>
    unfold Storage.step
    simp only
    split
    · exact hself rfl
    · exact .aside rfl (.of_same rfl rfl) rfl
  | addMessage message =>
    unfold Storage.step Storage.addRow
    simp only
    split
    · exact .aside rfl (.of_same rfl rfl) rfl
    · exact hself rfl
  | addRun run =>
    unfold Storage.step Storage.addRow
    simp only
    split
    · exact .aside rfl (.of_same rfl rfl) rfl
    · exact hself rfl
  | settleRun id => exact .aside rfl (.of_same rfl rfl) rfl
  | initiate id conversationId kind filename mimeType sizeBytes startedAt =>
    unfold Storage.step
    simp only
    split
    · exact hself rfl
    · next hnew =>
      simp only [Bool.or_eq_true, not_or, List.contains_iff_mem] at hnew
      unfold Storage.transact
      generalize hinput : (⟨id, conversationId, kind, filename, mimeType, sizeBytes, _, _, _⟩ :
        InitiateInput) = input
      rcases Machine.commit_cases (s.draw id).tables
        (initiate input s.now (s.draw id).tables) with he | ⟨b, t', ht, he⟩
      · rw [he]
        exact .aside rfl (.refl _) rfl
      · obtain ⟨-, -, -, -, -, rfl⟩ := initiate_ok ht
        rw [he]
        subst hinput
        refine .starts _ rfl hnew.1 ?_ ?_ rfl rfl rfl
        · rfl
        · cases kind <;> rfl
  | beginCompletion id =>
    exact .aside rfl (aside_transact fun b t' ht => aside_beginCompletion hu ht) rfl
  | completeVerified id sizeBytes etag =>
    exact .aside rfl (aside_transact fun b t' ht => aside_completeVerified hu ht) rfl
  | resetCompletion id => exact .aside rfl (aside_resetCompletion id s.tables) rfl
  | rejectCompletion id code message =>
    exact .aside rfl (aside_rejectCompletion hu id code message s.now) rfl
  | bindToMessage ids conversationId messageId =>
    exact .aside rfl (aside_transact fun b t' ht => aside_bindToMessage ht) rfl
  | deleteUnbound id =>
    exact .aside rfl (aside_transact fun b t' ht => aside_deleteUnbound hu ht) rfl
  | createArtifact input =>
    unfold Storage.step
    simp only
    split
    · exact hself rfl
    · exact .aside rfl (aside_transact (s := s.draw input.artifactId) fun b t' ht =>
        aside_createArtifact ht) rfl
  | reserveFile fileId artifactId conversationId format filename sizeBytes =>
    unfold Storage.step
    simp only
    split
    · exact hself rfl
    · unfold Storage.reserve
      split
      · next t' ht => exact .aside rfl (aside_reserveFile hw ht) rfl
      · exact .aside rfl (.refl _) rfl
  | commitFile call acknowledged =>
    unfold Storage.step Storage.commit
    simp only
    split
    · exact hself rfl
    · split
      · next t' ht => exact .aside rfl (aside_commitFile ht) rfl
      · exact hself rfl
  | abortFile call =>
    unfold Storage.step Storage.abort
    simp only
    split
    · exact hself rfl
    · exact .aside rfl (aside_transact fun b t' ht => aside_abortFile ht) rfl
  | completeArtifact artifactId conversationId =>
    exact .aside rfl (aside_transact fun b t' ht => aside_completeArtifact ht) rfl
  | failArtifact artifactId conversationId =>
    exact .aside rfl (aside_transact fun b t' ht => aside_failArtifact ht) rfl
  | cleanupRunArtifacts input =>
    exact .aside rfl (aside_cleanupRunArtifacts floor input s.now s.tables) rfl
  | deleteConversation id => exact .aside rfl (aside_deleteConversation floor id s.now hu) rfl
  | clearConversationData => exact .aside rfl (aside_clearConversationData floor s.now hu) rfl
  | prepareUserDeletion => exact .aside rfl (aside_prepareUserDeletion s.now hu) rfl
  | deleteUser => exact .aside rfl (aside_deleteUser s.tables) rfl
  | enqueueExpiredOrphans picked =>
    exact .aside rfl (aside_enqueueExpiredOrphans floor picked s.now hu) rfl
  | claimDeletion objectKey workerId leaseToken =>
    unfold Storage.step
    simp only
    split
    · exact hself rfl
    · exact .aside rfl (aside_worked (claimDeletion_worked objectKey workerId leaseToken s.now
        s.tables)) rfl
  | markDeletionSucceeded claimed =>
    exact .aside rfl (aside_worked (deletionStep_worked fun b t' ht =>
      markDeletionSucceeded_worked ht)) ((deletionStep_frame s claimed _ (.tick 0)).parsing rfl)
  | markDeletionFailed claimed message retryable retryAt =>
    exact .aside rfl (aside_worked (deletionStep_worked fun b t' ht =>
      markDeletionFailed_worked ht)) ((deletionStep_frame s claimed _ (.tick 0)).parsing rfl)
  | claimAttachmentParse id workerId leaseToken =>
    unfold Storage.step
    simp only
    split
    · exact .nothing rfl
    · next hfresh => exact move_claims id workerId leaseToken (by simpa using hfresh)
  | renewAttachmentLease job =>
    exact move_works rfl fun a ha =>
      ⟨.renew a s.now, fun h => ParseStatus.noConfusion ((leasedParse_status ha).symm.trans h)⟩
  | markParserSubmitted job parserJobId provider retryAt =>
    refine move_works rfl fun a ha => ⟨?_, fun h => nomatch h⟩
    exact .requeue (leasedParse_status ha) rfl rfl (fun h => h) rfl rfl
  | deferParserPoll job retryAt =>
    refine move_works rfl fun a ha => ⟨?_, fun h => nomatch h⟩
    exact .requeue (leasedParse_status ha) rfl rfl (fun h => h) rfl rfl
  | saveChunksAndComplete job source provider =>
    unfold Storage.step
    simp only
    split
    · next chunks hchunks => exact move_saves hchunks
    · exact .nothing rfl
  | markAttachmentFailed job retryable retryAt =>
    unfold Storage.step markAttachmentFailed
    simp only
    generalize (decide (job.attempts ≥ job.maxAttempts) || !retryable) = terminal
    refine move_works rfl fun a ha => ?_
    cases terminal with
    | true => exact ⟨.fail rfl rfl rfl rfl rfl, fun h => nomatch h⟩
    | false =>
      exact ⟨.requeue (leasedParse_status ha) rfl rfl (fun _ => rfl) rfl rfl,
        fun h => nomatch h⟩

end Moves

end OpenVac.ChatStorage
