/-
  File:      OpenVac/ChatStorage/Accounting.lean
  Subject:   The byte accounting of the chat storage.

  * `step_floor` -- no step reaches the floor of a decrement: the machine that clamps and the
    machine that does not take the same steps.
  * `storage_accounting` -- in every reachable state the counters are the sums.
-/
import OpenVac.ChatStorage.Steps

namespace OpenVac.ChatStorage

open Rows

/-! ## 1. The clamps -/

theorem greatest_exact : ∀ n : ℤ, 0 ≤ n → greatest n = n := fun _ h => max_eq_left h

section Floor

variable {floor : ℤ → ℤ} (hfloor : ∀ n, 0 ≤ n → floor n = n) {t : Tables}

include hfloor

theorem deleteUnbound_floor (hw : WellFormed t) (hb : Balanced t) (id : Uuid) (now : Int) :
    deleteUnbound floor id now t = deleteUnbound (fun n => n) id now t := by
  rw [deleteUnbound_eq hfloor hw hb, deleteUnbound_eq (fun _ _ => rfl) hw hb]

theorem abortFile_floor (hw : WellFormed t) (hb : Balanced t) (fileId artifactId : Uuid)
    (objectKey : ObjectKey) (now : Int) :
    abortFile floor fileId artifactId objectKey now t =
      abortFile (fun n => n) fileId artifactId objectKey now t := by
  unfold abortFile
  simp only
  split
  · next file hfind =>
      have hmem := List.mem_of_find?_eq_some hfind
      have hcond := List.find?_some hfind
      simp only [Bool.and_eq_true, beq_iff_eq] at hcond
      rw [release_file hfloor hw hb hmem hcond.2,
        release_file (fun _ _ => rfl) hw hb hmem hcond.2]
  · rfl

theorem failArtifact_floor (hw : WellFormed t) (hb : Balanced t)
    (artifactId conversationId : Uuid) (now : Int) :
    failArtifact floor artifactId conversationId now t =
      failArtifact (fun n => n) artifactId conversationId now t := by
  rw [failArtifact_eq hfloor hw hb, failArtifact_eq (fun _ _ => rfl) hw hb]

theorem cleanupRunArtifacts_floor (hw : WellFormed t) (hb : Balanced t) (input : CleanupInput)
    (now : Int) :
    cleanupRunArtifacts floor input now t = cleanupRunArtifacts (fun n => n) input now t := by
  rw [cleanupRunArtifacts_eq hfloor hw hb, cleanupRunArtifacts_eq (fun _ _ => rfl) hw hb]

theorem deleteConversation_floor (hw : WellFormed t) (hb : Balanced t) (id : Uuid) (now : Int) :
    (deleteConversation floor id now t).2 = (deleteConversation (fun n => n) id now t).2 := by
  have hquiet := markConversation_quiet t id
  unfold deleteConversation
  split
  · rfl
  · simp only
    rw [enqueueDeletion_eq hfloor (hw.quiet hquiet) (hb.quiet hquiet),
      enqueueDeletion_eq (fun _ _ => rfl) (hw.quiet hquiet) (hb.quiet hquiet)]

theorem clearConversationData_floor (hw : WellFormed t) (hb : Balanced t) (now : Int) :
    (clearConversationData floor now t).2 = (clearConversationData (fun n => n) now t).2 := by
  unfold clearConversationData
  simp only
  rw [enqueueDeletion_eq hfloor hw hb, enqueueDeletion_eq (fun _ _ => rfl) hw hb]

theorem enqueueExpiredOrphans_floor (hw : WellFormed t) (hb : Balanced t) (picked : List Uuid)
    (now : Int) :
    (enqueueExpiredOrphans floor picked now t).2 =
      (enqueueExpiredOrphans (fun n => n) picked now t).2 := by
  rw [enqueueExpiredOrphans_eq hfloor hw hb, enqueueExpiredOrphans_eq (fun _ _ => rfl) hw hb]

variable [JsString.Sha256]

/-- **No step reaches the floor.** -/
theorem step_floor {s : Storage} (hs : Sound s) (action : Action) :
    s.step floor action = s.step (fun n => n) action := by
  have hw := hs.wellFormed
  have hb := hs.balanced
  cases action with
  | deleteUnbound id =>
    show s.transact _ = s.transact _
    unfold Storage.transact
    rw [deleteUnbound_floor hfloor hw hb]
  | abortFile call =>
    show s.abort floor call = s.abort _ call
    unfold Storage.abort Storage.transact
    rw [abortFile_floor hfloor hw hb]
  | failArtifact artifactId conversationId =>
    show s.transact _ = s.transact _
    unfold Storage.transact
    rw [failArtifact_floor hfloor hw hb]
  | cleanupRunArtifacts input =>
    unfold Storage.step
    simp only
    rw [cleanupRunArtifacts_floor hfloor hw hb]
  | deleteConversation id =>
    unfold Storage.step
    simp only
    rw [deleteConversation_floor hfloor hw hb]
  | clearConversationData =>
    unfold Storage.step
    simp only
    rw [clearConversationData_floor hfloor hw hb]
  | enqueueExpiredOrphans picked =>
    unfold Storage.step
    simp only
    rw [enqueueExpiredOrphans_floor hfloor hw hb]
  | _ => rfl

/-- Whole runs with and without the clamp agree. -/
theorem after_floor (actions : List Action) :
    Storage.after floor actions = Storage.after (fun n => n) actions := by
  unfold Storage.after
  induction actions using List.reverseRecOn with
  | nil => rfl
  | append_singleton actions action ih =>
    have hs : Sound (Machine.run (Storage.step floor) .initial actions) :=
      Storage.after_sound hfloor actions
    rw [Machine.run_append, Machine.run_append, Machine.run_cons, Machine.run_cons,
      Machine.run_nil, Machine.run_nil, ← ih]
    exact step_floor hfloor hs action

end Floor

/-! ## 2. The counters -/

/-- **The counters are the sums, within the limit, and no clamp ever clips.** -/
theorem storage_accounting [JsString.Sha256] (actions : List Action) :
    let s := Storage.after greatest actions
    s = Storage.after (fun n => n) actions ∧
    (s.tables.account = none → s.tables.attachments = [] ∧ s.tables.files = []) ∧
    (∀ a ∈ s.tables.attachments, a.quotaState = .committed → a.sizeBytes.isSome) ∧
    ∀ account, s.tables.account = some account →
      account.usedBytes =
        committedAttachmentBytes s.tables.attachments + fileBytes .committed s.tables.files ∧
      account.reservedBytes =
        reservedAttachmentBytes s.tables.attachments + fileBytes .reserved s.tables.files ∧
      0 ≤ account.usedBytes ∧ 0 ≤ account.reservedBytes ∧
      account.usedBytes + account.reservedBytes ≤ account.limitBytes := by
  intro s
  have hs : Sound s := Storage.after_sound greatest_exact actions
  refine ⟨after_floor greatest_exact actions, hs.balanced.noAccount, ?_, ?_⟩
  · intro a ha hq
    obtain ⟨n, hn, -⟩ := hs.wellFormed.sized a ha hq
    rw [hn]
    rfl
  · intro account haccount
    obtain ⟨hu, hr, hl⟩ := hs.balanced.counters account haccount
    have h1 : 0 ≤ usedTotal s.tables :=
      add_nonneg (committedAttachmentBytes_nonneg hs.wellFormed.sized)
        (fileBytes_nonneg hs.wellFormed.fileSizes _)
    have h2 : 0 ≤ reservedTotal s.tables :=
      add_nonneg (reservedAttachmentBytes_nonneg hs.wellFormed.declared)
        (fileBytes_nonneg hs.wellFormed.fileSizes _)
    exact ⟨hu, hr, hu ▸ h1, hr ▸ h2, hl⟩

end OpenVac.ChatStorage
