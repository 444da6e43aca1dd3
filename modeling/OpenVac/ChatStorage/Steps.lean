/-
  File:      OpenVac/ChatStorage/Steps.lean
  Subject:   Every step of the storage machine is a series of changes, or work on deletion jobs.

  * `queuedAt` -- when the deletion of an attachment's object may run, as a step queues it.
  * `step_changes` -- the steps; `Storage.step_sound`, `Storage.after_sound` -- every reachable
    state is sound.
-/
import OpenVac.ChatStorage.Transactions

namespace OpenVac.ChatStorage

open Rows

/-! ## 1. The steps -/

/-- When the deletion of an attachment's object may run, where an action queues it. -/
def queuedAt (now : Int) (t : Tables) (action : Action) (a : Attachment) : Option Int :=
  match action with
  | .rejectCompletion id _ _ => if findScanning t id = some a then some now else none
  | .deleteUnbound id => if isUnbound t id a then some (requestedRunAt now a) else none
  | .deleteConversation id =>
      if t.conversationLive id && a.conversationId == id then some (requestedRunAt now a)
      else none
  | .clearConversationData => some (requestedRunAt now a)
  | .prepareUserDeletion => if t.user then some (requestedRunAt now a) else none
  | .enqueueExpiredOrphans picked =>
      if picked.contains a.id && isExpiredOrphan now a then some now else none
  | _ => none

/-- The worker's steps on deletion jobs. -/
def Action.worksDeletion : Action → Bool
  | .claimDeletion .. => true
  | .markDeletionSucceeded .. => true
  | .markDeletionFailed .. => true
  | _ => false

/-- The claim of a parse job. -/
def Action.claimsParse : Action → Bool
  | .claimAttachmentParse .. => true
  | _ => false

/-- Work on deletion jobs: no key comes or goes. -/
def Worked (t t' : Tables) : Prop :=
  ∃ jobs, t' = { t with jobs := jobs } ∧ jobs.map (·.objectKey) = t.jobs.map (·.objectKey)

theorem worked_refl (t : Tables) : Worked t t := ⟨t.jobs, rfl, rfl⟩

theorem worked_update (t : Tables) (p : DeletionJob → Bool) {f : DeletionJob → DeletionJob}
    (hf : ∀ job, (f job).objectKey = job.objectKey) :
    Worked t { t with jobs := updateWhere p f t.jobs } :=
  ⟨_, rfl, map_updateWhere hf _⟩

theorem claimDeletion_worked (objectKey : ObjectKey) (workerId : String) (leaseToken : Uuid)
    (now : Int) (t : Tables) :
    Worked t (claimDeletion objectKey workerId leaseToken now t).2 := by
  unfold claimDeletion
  split
  · exact worked_refl t
  · refine worked_update t _ ?_
    exact fun _ => rfl

theorem markDeletionSucceeded_worked {claimed : ClaimedDeletion} {now : Int} {t t' : Tables}
    {r : Unit} (h : markDeletionSucceeded claimed now t = .ok (r, t')) : Worked t t' := by
  unfold markDeletionSucceeded at h
  split at h
  · nomatch h
  · obtain rfl := congrArg Prod.snd (Except.ok.inj h)
    refine worked_update t _ ?_
    exact fun _ => rfl

theorem markDeletionFailed_worked {claimed : ClaimedDeletion} {message : String}
    {retryable : Bool} {retryAt now : Int} {t t' : Tables} {r : Unit}
    (h : markDeletionFailed claimed message retryable retryAt now t = .ok (r, t')) :
    Worked t t' := by
  unfold markDeletionFailed at h
  simp only at h
  split at h
  · nomatch h
  · obtain rfl := congrArg Prod.snd (Except.ok.inj h)
    refine worked_update t _ ?_
    exact fun _ => rfl

section Steps

variable {due : Attachment → Int → Prop} {s : Storage}

theorem transact_changes {β : Type} {tx : Tables → Except StorageError (β × Tables)}
    (h : ∀ b t', tx s.tables = .ok (b, t') → Changes due s.issued s.tables t') :
    Changes due (s.transact tx).issued s.tables (s.transact tx).tables := by
  rcases Machine.commit_cases s.tables (tx s.tables) with he | ⟨b, t', ht, he⟩
  · show Changes due s.issued s.tables (Machine.commit s.tables (tx s.tables))
    rw [he]
  · show Changes due s.issued s.tables (Machine.commit s.tables (tx s.tables))
    rw [he]
    exact h b t' ht

theorem parseStep_changes {job : ChatAttachmentParseJob}
    {tx : Tables → Except StorageError (Unit × Tables)}
    (h : ∀ b t', tx s.tables = .ok (b, t') → Quiet s.tables t') :
    Changes due (s.parseStep job tx).issued s.tables (s.parseStep job tx).tables := by
  unfold Storage.parseStep
  split
  · exact transact_changes fun b t' ht => .single (.quiet t' (h b t' ht))
  · exact .refl

theorem deletionStep_worked {claimed : ClaimedDeletion}
    {tx : Tables → Except StorageError (Unit × Tables)}
    (h : ∀ b t', tx s.tables = .ok (b, t') → Worked s.tables t') :
    Worked s.tables (s.deletionStep claimed tx).tables := by
  unfold Storage.deletionStep
  split
  · rcases Machine.commit_cases s.tables (tx s.tables) with he | ⟨b, t', ht, he⟩
    · show Worked s.tables (Machine.commit s.tables (tx s.tables))
      rw [he]
      exact worked_refl _
    · show Worked s.tables (Machine.commit s.tables (tx s.tables))
      rw [he]
      exact h b t' ht
  · exact worked_refl _

theorem addRow_changes {conversationId : Uuid} {f : Tables → Tables}
    (h : Quiet s.tables (f s.tables)) :
    Changes due (s.addRow conversationId f).issued s.tables (s.addRow conversationId f).tables := by
  unfold Storage.addRow
  split
  · exact .single (.quiet _ h)
  · exact .refl

theorem reserve_changes {input : ReserveFileInput}
    (h : ∀ b t', reserveFile input s.now s.tables = .ok (b, t') →
      Changes due s.issued s.tables t') :
    Changes due (s.reserve input).issued s.tables (s.reserve input).tables := by
  unfold Storage.reserve
  split
  · next t' ht => exact h _ t' ht
  · exact .refl

theorem commit_changes {call : PersistCall} {acknowledged : Bool} :
    Changes due (s.commit call acknowledged).issued s.tables
      (s.commit call acknowledged).tables := by
  unfold Storage.commit
  split
  · exact .refl
  · split
    · next t' ht => exact .single (commitFile_change ht)
    · exact .refl

theorem abort_changes {floor : ℤ → ℤ} (hfloor : ∀ n, 0 ≤ n → floor n = n) (hs : Sound s)
    {call : PersistCall} :
    Changes due (s.abort floor call).issued s.tables (s.abort floor call).tables := by
  unfold Storage.abort
  split
  · exact .refl
  · next hmem =>
      have hcall := hs.calls call (by simpa using hmem)
      exact transact_changes fun b t' ht =>
        abortFile_changes hfloor hs.wellFormed hs.balanced hs.known hcall.1 hcall.2 ht

variable [JsString.Sha256] {floor : ℤ → ℤ} (hfloor : ∀ n, 0 ≤ n → floor n = n)

include hfloor

/-- **Every step is changes or work on deletion jobs.** -/
theorem step_changes (hs : Sound s) (action : Action)
    (hdue : ∀ a ∈ s.tables.attachments, ∀ runAt,
      queuedAt s.now s.tables action a = some runAt → due a runAt) :
    (action.worksDeletion = false ∧
      Changes due (s.step floor action).issued s.tables (s.step floor action).tables) ∨
    (action.worksDeletion = true ∧ Worked s.tables (s.step floor action).tables) := by
  have hw := hs.wellFormed
  have hb := hs.balanced
  have hk := hs.known
  cases action with
  | tick ms => exact Or.inl ⟨rfl, .refl⟩
  | addConversation id =>
    unfold Storage.step
    simp only
    split
    · exact Or.inl ⟨rfl, .refl⟩
    · exact Or.inl ⟨rfl, .single (.quiet _ (addConversation_quiet s.tables id))⟩
  | addMessage message =>
    exact Or.inl ⟨rfl, addRow_changes
      ⟨rfl, rfl, rfl, rfl, rfl, rfl, rfl, fun _ _ h => h, fun _ _ h => h⟩⟩
  | addRun run =>
    exact Or.inl ⟨rfl, addRow_changes
      ⟨rfl, rfl, rfl, rfl, rfl, rfl, rfl, fun _ _ h => h, fun _ _ h => h⟩⟩
  | settleRun id =>
    exact Or.inl ⟨rfl, .single (.quiet _
      ⟨rfl, rfl, rfl, rfl, rfl, rfl, rfl, fun _ _ h => h, fun _ _ h => h⟩)⟩
  | initiate id conversationId kind filename mimeType sizeBytes startedAt =>
    unfold Storage.step
    simp only
    split
    · exact Or.inl ⟨rfl, .refl⟩
    · next hnew =>
        simp only [Bool.or_eq_true, not_or, List.contains_iff_mem] at hnew
        refine Or.inl ⟨rfl, transact_changes (s := s.draw id) fun b t' ht => .single ?_⟩
        refine initiate_change hk hnew.1 List.mem_cons_self rfl ?_ ht
        show startedAt + 900000 + 60000 ≤ startedAt + 86400000
        omega
  | beginCompletion id =>
    exact Or.inl ⟨rfl, transact_changes fun b t' ht =>
      .single (.quiet t' (beginCompletion_quiet ht))⟩
  | completeVerified id sizeBytes etag =>
    exact Or.inl ⟨rfl, transact_changes fun b t' ht => .single (completeVerified_change ht)⟩
  | resetCompletion id =>
    refine Or.inl ⟨rfl, .single (.quiet _ (Quiet.touch rfl ?_))⟩
    exact fun _ => rfl
  | rejectCompletion id code message =>
    refine Or.inl ⟨rfl, rejectCompletion_changes fun a ha hfind => hdue a ha s.now ?_⟩
    exact if_pos hfind
  | bindToMessage ids conversationId messageId =>
    exact Or.inl ⟨rfl, transact_changes fun b t' ht =>
      .single (.quiet t' (bindToMessage_quiet ht))⟩
  | deleteUnbound id =>
    refine Or.inl ⟨rfl, transact_changes fun b t' ht =>
      .single (deleteUnbound_change hfloor hw hb (fun a ha hun => hdue a ha _ ?_) ht)⟩
    exact if_pos hun
  | createArtifact input =>
    unfold Storage.step
    simp only
    split
    · exact Or.inl ⟨rfl, .refl⟩
    · exact Or.inl ⟨rfl, transact_changes (s := s.draw input.artifactId) fun b t' ht =>
        .single (createArtifact_change List.mem_cons_self ht)⟩
  | reserveFile fileId artifactId conversationId format filename sizeBytes =>
    unfold Storage.step
    simp only
    split
    · exact Or.inl ⟨rfl, .refl⟩
    · next hnew =>
        rw [List.contains_iff_mem] at hnew
        exact Or.inl ⟨rfl, reserve_changes (s := s.draw fileId) fun b t' ht =>
          .single (reserveFile_change hw hk hnew List.mem_cons_self rfl ht)⟩
  | commitFile call acknowledged => exact Or.inl ⟨rfl, commit_changes⟩
  | abortFile call => exact Or.inl ⟨rfl, abort_changes hfloor hs⟩
  | completeArtifact artifactId conversationId =>
    exact Or.inl ⟨rfl, transact_changes fun b t' ht =>
      .single (completeArtifact_change hw ht)⟩
  | failArtifact artifactId conversationId =>
    exact Or.inl ⟨rfl, transact_changes fun b t' ht => failArtifact_changes hfloor hw hb ht⟩
  | cleanupRunArtifacts input =>
    exact Or.inl ⟨rfl, cleanupRunArtifacts_changes hfloor hw hb input s.now⟩
  | deleteConversation id =>
    refine Or.inl ⟨rfl, deleteConversation_changes hfloor hw hb id s.now fun a ha hlive hid =>
      hdue a ha _ ?_⟩
    refine if_pos ?_
    rw [hlive, hid]
    simp
  | clearConversationData =>
    exact Or.inl ⟨rfl, clearConversationData_changes hfloor hw hb s.now fun a ha =>
      hdue a ha _ rfl⟩
  | prepareUserDeletion =>
    refine Or.inl ⟨rfl, prepareUserDeletion_changes hw s.now fun a ha huser => hdue a ha _ ?_⟩
    exact if_pos huser
  | deleteUser => exact Or.inl ⟨rfl, deleteUser_changes s.tables⟩
  | enqueueExpiredOrphans picked =>
    refine Or.inl ⟨rfl, enqueueExpiredOrphans_changes hfloor hw hb picked s.now
      fun a ha hpick hexp => hdue a ha s.now ?_⟩
    refine if_pos ?_
    rw [hpick, hexp]
    rfl
  | claimDeletion objectKey workerId leaseToken =>
    unfold Storage.step
    simp only
    split
    · exact Or.inr ⟨rfl, worked_refl _⟩
    · exact Or.inr ⟨rfl, claimDeletion_worked objectKey workerId leaseToken s.now s.tables⟩
  | markDeletionSucceeded claimed =>
    exact Or.inr ⟨rfl, deletionStep_worked fun b t' ht => markDeletionSucceeded_worked ht⟩
  | markDeletionFailed claimed message retryable retryAt =>
    exact Or.inr ⟨rfl, deletionStep_worked fun b t' ht => markDeletionFailed_worked ht⟩
  | claimAttachmentParse id workerId leaseToken =>
    unfold Storage.step
    simp only
    split
    · exact Or.inl ⟨rfl, .refl⟩
    · exact Or.inl ⟨rfl, .single (.quiet _
        (claimAttachmentParse_quiet id workerId leaseToken s.now s.tables))⟩
  | renewAttachmentLease job =>
    exact Or.inl ⟨rfl, parseStep_changes fun b t' ht => updateLeased_quiet ht fun _ => rfl⟩
  | markParserSubmitted job parserJobId provider retryAt =>
    exact Or.inl ⟨rfl, parseStep_changes fun b t' ht => updateLeased_quiet ht fun _ => rfl⟩
  | deferParserPoll job retryAt =>
    exact Or.inl ⟨rfl, parseStep_changes fun b t' ht => updateLeased_quiet ht fun _ => rfl⟩
  | saveChunksAndComplete job source provider =>
    unfold Storage.step
    simp only
    split
    · exact Or.inl ⟨rfl, parseStep_changes fun b t' ht => saveChunksAndComplete_quiet ht⟩
    · exact Or.inl ⟨rfl, .refl⟩
  | markAttachmentFailed job retryable retryAt =>
    exact Or.inl ⟨rfl, parseStep_changes fun b t' ht => updateLeased_quiet ht fun _ => rfl⟩

end Steps

/-! ## 2. Every reachable state is sound -/

/-- Keys that some jobs of the old tables have. -/
theorem Worked.keys {t t' : Tables} (h : Worked t t') {job : DeletionJob} (hjob : job ∈ t'.jobs) :
    ∃ known ∈ t.jobs, known.objectKey = job.objectKey := by
  obtain ⟨jobs, rfl, hkeys⟩ := h
  have hmem : job.objectKey ∈ t.jobs.map (·.objectKey) := hkeys ▸ List.mem_map_of_mem hjob
  exact List.mem_map.mp hmem

/-- The three invariants of the tables, through changes and work on jobs. -/
theorem tables_sound {due : Attachment → Int → Prop} {issued : List Uuid} {t t' : Tables}
    (hw : WellFormed t) (hb : Balanced t) (hk : Known issued t)
    (h : Changes due issued t t' ∨ Worked t t') :
    WellFormed t' ∧ Balanced t' ∧ Known issued t' := by
  rcases h with h | h
  · have hstep : ∀ t t', Change due issued t t' →
        WellFormed t ∧ Balanced t ∧ Known issued t →
        WellFormed t' ∧ Balanced t' ∧ Known issued t' := by
      intro t t' hc hinv
      obtain ⟨hw, hb, hk⟩ := hinv
      exact ⟨hc.wellFormed hw, hc.balanced hw hb, hc.known hw hk⟩
    exact h.invariant hstep ⟨hw, hb, hk⟩
  · have hkeys : ∀ job ∈ t'.jobs, job.objectKey.sourceId ∈ issued := by
      intro job hjob
      obtain ⟨known, hknown, he⟩ := h.keys hjob
      rw [← he]
      exact hk.jobKeys known hknown
    obtain ⟨jobs, rfl, -⟩ := h
    exact ⟨hw.congr rfl rfl rfl rfl, hb.congr rfl rfl rfl,
      ⟨hk.attachmentIds, hk.attachmentKeys, hk.artifactIds, hk.fileIds, hk.fileKeys, hkeys⟩⟩

theorem Storage.initial_sound : Sound .initial where
  wellFormed := wellFormed_empty
  balanced := balanced_empty
  known :=
    { attachmentIds := fun _ h => nomatch h
      attachmentKeys := fun _ h => nomatch h
      artifactIds := fun _ h => nomatch h
      fileIds := fun _ h => nomatch h
      fileKeys := fun _ h => nomatch h
      jobKeys := fun _ h => nomatch h }
  calls := fun _ h => nomatch h

/-- What a step does outside the tables. -/
structure StepFrame (s s' : Storage) (action : Action) : Prop where
  now : s.now ≤ s'.now
  issued : ∀ id ∈ s.issued, id ∈ s'.issued
  persisting : ∀ call ∈ s'.persisting, call ∈ s.persisting ∨
    (call.fileId ∈ s'.issued ∧ ∃ conversationId filename,
      call.objectKey = .artifact conversationId call.artifactId call.fileId filename)
  deleting : action.worksDeletion = false → s'.deleting = s.deleting
  parsing : action.claimsParse = false → s'.parsing = s.parsing

theorem StepFrame.tables (s : Storage) (t : Tables) (action : Action) :
    StepFrame s { s with tables := t } action :=
  ⟨Int.le_refl _, fun _ h => h, fun _ h => Or.inl h, fun _ => rfl, fun _ => rfl⟩

theorem StepFrame.draw (s : Storage) (id : Uuid) (t : Tables) (action : Action) :
    StepFrame s { s.draw id with tables := t } action :=
  ⟨Int.le_refl _, fun _ h => List.mem_cons_of_mem _ h, fun _ h => Or.inl h, fun _ => rfl,
    fun _ => rfl⟩

theorem parseStep_frame (s : Storage) (job : ChatAttachmentParseJob)
    (tx : Tables → Except StorageError (Unit × Tables)) (action : Action) :
    StepFrame s (s.parseStep job tx) action := by
  unfold Storage.parseStep
  split
  · exact .tables s _ action
  · exact .tables s s.tables action

theorem deletionStep_frame (s : Storage) (claimed : ClaimedDeletion)
    (tx : Tables → Except StorageError (Unit × Tables)) (action : Action) :
    StepFrame s (s.deletionStep claimed tx) action := by
  unfold Storage.deletionStep
  split
  · exact .tables s _ action
  · exact .tables s s.tables action

theorem addRow_frame (s : Storage) (conversationId : Uuid) (f : Tables → Tables)
    (action : Action) : StepFrame s (s.addRow conversationId f) action := by
  unfold Storage.addRow
  split
  · exact .tables s _ action
  · exact .tables s s.tables action

section Reachable

variable [JsString.Sha256] (floor : ℤ → ℤ)

/-- **The frame of every step.** -/
theorem step_frame (s : Storage) (action : Action) : StepFrame s (s.step floor action) action := by
  have hself : StepFrame s s action := .tables s s.tables action
  cases action with
  | tick ms =>
    exact ⟨Int.le_add_of_nonneg_right (Int.natCast_nonneg ms), fun _ h => h,
      fun _ h => Or.inl h, fun _ => rfl, fun _ => rfl⟩
  | addConversation id =>
    unfold Storage.step
    simp only
    split
    · exact hself
    · exact .draw s id _ _
  | addMessage message =>
    unfold Storage.step
    exact addRow_frame _ _ _ _
  | addRun run =>
    unfold Storage.step
    exact addRow_frame _ _ _ _
  | initiate id conversationId kind filename mimeType sizeBytes startedAt =>
    unfold Storage.step
    simp only
    split
    · exact hself
    · exact .draw s id _ _
  | createArtifact input =>
    unfold Storage.step
    simp only
    split
    · exact hself
    · exact .draw s input.artifactId _ _
  | reserveFile fileId artifactId conversationId format filename sizeBytes =>
    unfold Storage.step
    simp only
    split
    · exact hself
    · unfold Storage.reserve
      split
      · refine ⟨Int.le_refl _, fun _ h => List.mem_cons_of_mem _ h, fun call hcall => ?_,
          fun _ => rfl, fun _ => rfl⟩
        rcases List.mem_cons.mp hcall with rfl | h
        · exact Or.inr ⟨List.mem_cons_self, conversationId, filename, rfl⟩
        · exact Or.inl h
      · exact .draw s fileId s.tables _
  | commitFile call acknowledged =>
    unfold Storage.step Storage.commit
    simp only
    split
    · exact hself
    · split
      · refine ⟨Int.le_refl _, fun _ h => h, fun other hother => Or.inl ?_, fun _ => rfl,
          fun _ => rfl⟩
        simp only at hother
        split at hother
        · exact List.mem_of_mem_erase hother
        · exact hother
      · exact hself
  | abortFile call =>
    unfold Storage.step Storage.abort
    simp only
    split
    · exact hself
    · exact ⟨Int.le_refl _, fun _ h => h,
        fun other hother => Or.inl (List.mem_of_mem_erase hother), fun _ => rfl, fun _ => rfl⟩
  | claimDeletion objectKey workerId leaseToken =>
    unfold Storage.step
    simp only
    split
    · exact hself
    · exact ⟨Int.le_refl _, fun _ h => List.mem_cons_of_mem _ h, fun _ h => Or.inl h,
        fun h => (nomatch h), fun _ => rfl⟩
  | markDeletionSucceeded claimed => exact deletionStep_frame _ _ _ _
  | markDeletionFailed claimed message retryable retryAt => exact deletionStep_frame _ _ _ _
  | claimAttachmentParse id workerId leaseToken =>
    unfold Storage.step
    simp only
    split
    · exact hself
    · exact ⟨Int.le_refl _, fun _ h => List.mem_cons_of_mem _ h, fun _ h => Or.inl h,
        fun _ => rfl, fun h => (nomatch h)⟩
  | renewAttachmentLease job => exact parseStep_frame _ _ _ _
  | markParserSubmitted job parserJobId provider retryAt => exact parseStep_frame _ _ _ _
  | deferParserPoll job retryAt => exact parseStep_frame _ _ _ _
  | saveChunksAndComplete job source provider =>
    unfold Storage.step
    simp only
    split
    · exact parseStep_frame _ _ _ _
    · exact hself
  | markAttachmentFailed job retryable retryAt => exact parseStep_frame _ _ _ _
  | _ => exact .tables s _ _

variable {floor} (hfloor : ∀ n, 0 ≤ n → floor n = n)

include hfloor

theorem Storage.step_sound {s : Storage} (hs : Sound s) (action : Action) :
    Sound (s.step floor action) := by
  have hframe := step_frame floor s action
  have hstep : Changes (fun _ _ => True) (s.step floor action).issued s.tables
      (s.step floor action).tables ∨ Worked s.tables (s.step floor action).tables :=
    (step_changes hfloor hs action fun _ _ _ _ => True.intro).imp And.right And.right
  obtain ⟨hw, hb, hk⟩ := tables_sound hs.wellFormed hs.balanced (hs.known.mono hframe.issued) hstep
  refine ⟨hw, hb, hk, fun call hcall => ?_⟩
  rcases hframe.persisting call hcall with hold | hnew
  · obtain ⟨hid, hkey⟩ := hs.calls call hold
    exact ⟨hframe.issued _ hid, hkey⟩
  · exact hnew

/-- **Every reachable state is sound.** -/
theorem Storage.after_sound (actions : List Action) : Sound (Storage.after floor actions) :=
  Machine.run_invariant Storage.initial_sound
    (fun _ action hs => Storage.step_sound hfloor hs action) actions

end Reachable

end OpenVac.ChatStorage
