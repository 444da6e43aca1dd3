/-
  File:      OpenVac/ChatStorage/Clearing.lean
  Subject:   `clearConversationData` (server/api/store.ts) statement by statement, with what the
             user creates in between.

  * `Clearing.statement` -- the next SQL statement, on what is committed by then. A creation reads
    none of the rows that the transaction has written and not yet committed.
  * `Clearing.blocks` -- a creation waits for the account's row and for a locked artifact.
  * `LosesNothing` -- every row the transaction removed has a deletion job and gave its bytes back.
  * `Undisturbed` -- what decides it, when the conversations are deleted.
  * `clearing_loses_nothing_iff`; `created_in_between_lost` -- an upload initiated between the
    selection and the deletion of its conversation.
-/
import OpenVac.ChatStorage.Accounting

namespace OpenVac.ChatStorage

open Rows

/-! ## 1. The transaction -/

/-- The statement that comes next. -/
inductive ClearPoint where
  | selectConversations
  | selectAttachments
  | selectArtifacts
  | selectFiles
  | insertJobs
  | updateAccount
  | deleteAttachments
  | deleteArtifacts
  | deleteConversations
  | done
  deriving DecidableEq, Repr

structure Clearing where
  storage : Storage
  next : ClearPoint
  conversationIds : List Uuid
  /-- Selected `FOR UPDATE`, as the files and the rows of `artifactIds`. -/
  attachments : List Attachment
  artifactIds : List Uuid
  files : List ArtifactFile
  accountLocked : Bool
  /-- The rows whose bytes the account's update has subtracted. -/
  releasedAttachments : List Attachment
  releasedFiles : List ArtifactFile
  /-- The rows that are gone, deleted or taken along. -/
  removedAttachments : List Attachment
  removedFiles : List ArtifactFile

namespace Clearing

def start (s : Storage) : Clearing :=
  ⟨s, .selectConversations, [], [], [], [], false, [], [], [], []⟩

def withStorage (c : Clearing) (s : Storage) : Clearing := { c with storage := s }

/-- A statement that writes. -/
def write (c : Clearing) (t : Tables) : Clearing :=
  let old := c.storage.tables
  { c with
    storage := { c.storage with tables := t }
    removedAttachments :=
      c.removedAttachments ++ old.attachments.filter fun a => !(t.attachments.contains a)
    removedFiles := c.removedFiles ++ old.files.filter fun f => !(t.files.contains f) }

/-- The condition of the account's update and of the deletions by id. -/
def removing (c : Clearing) : Bool :=
  !(c.attachments.isEmpty && c.artifactIds.isEmpty && c.files.isEmpty)

def statement (c : Clearing) : Clearing :=
  let t := c.storage.tables
  match c.next with
  | .selectConversations =>
      { c with next := .selectAttachments, conversationIds := t.conversations.map (·.id) }
  | .selectAttachments =>
      { c with
        next := .selectArtifacts
        attachments := t.attachments.filter (attachmentIn c.conversationIds) }
  | .selectArtifacts =>
      { c with
        next := .selectFiles
        artifactIds := (t.artifacts.filter (artifactIn c.conversationIds)).map (·.id) }
  | .selectFiles =>
      { c with next := .insertJobs, files := filesOf t (artifactIn c.conversationIds) }
  | .insertJobs =>
      { c.write (t.insertJobs (attachmentJobs c.attachments c.storage.now ++
          fileJobs c.files fun file =>
            deletionRunAt file.quotaState (file.createdAt + 3600000) c.storage.now)) with
        next := .updateAccount }
  | .updateAccount =>
      if c.removing then
        { c.write (t.release greatest
            (committedAttachmentBytes c.attachments + fileBytes .committed c.files)
            (reservedAttachmentBytes c.attachments + fileBytes .reserved c.files)) with
          next := .deleteAttachments
          accountLocked := t.account.isSome
          releasedAttachments := c.attachments
          releasedFiles := c.files }
      else { c with next := .deleteConversations }
  | .deleteAttachments =>
      { c.write (t.deleteAttachments fun a => (c.attachments.map (·.id)).contains a.id) with
        next := .deleteArtifacts }
  | .deleteArtifacts =>
      { c.write
          { t with
            artifacts := deleteWhere (fun a => c.artifactIds.contains a.id) t.artifacts
            files := deleteWhere (fun file => c.artifactIds.contains file.artifactId) t.files } with
        next := .deleteConversations }
  | .deleteConversations =>
      { (if c.conversationIds.isEmpty then c
          else c.write (deleteConversations (fun _ => true) t)) with
        next := .done
        accountLocked := false }
  | .done => c

end Clearing

/-! ## 2. What the user creates in between -/

/-- The creations, and the passing of time. -/
def Action.isCreation : Action → Bool
  | .tick .. => true
  | .addConversation .. => true
  | .addMessage .. => true
  | .addRun .. => true
  | .initiate .. => true
  | .createArtifact .. => true
  | .reserveFile .. => true
  | _ => false

/-- The artifact a reservation is for; its row is locked. -/
def Action.reservesFor : Action → Uuid → Bool
  | .reserveFile _ artifactId .., id => artifactId == id
  | _, _ => false

namespace Clearing

/-- The creation waits for a row that the transaction has locked. -/
def blocks (c : Clearing) : Action → Bool
  | .initiate .. => c.accountLocked
  | .reserveFile _ artifactId .. =>
      c.accountLocked || (c.next != .done && c.artifactIds.contains artifactId)
  | _ => false

inductive Event where
  | statement
  | create (action : Action)

section Run

variable [JsString.Sha256]

def step (c : Clearing) : Event → Clearing
  | .statement => c.statement
  | .create action =>
      if action.isCreation && !(c.blocks action) then
        c.withStorage (c.storage.step greatest action)
      else c

def after (s : Storage) (events : List Event) : Clearing :=
  Machine.run step (start s) events

end Run

/-- **Every removed row** has its deletion queued and its bytes released. -/
def LosesNothing (c : Clearing) : Prop :=
  (∀ a ∈ c.removedAttachments,
    (∃ job ∈ c.storage.tables.jobs, job.objectKey = a.objectKey) ∧ a ∈ c.releasedAttachments) ∧
  ∀ f ∈ c.removedFiles,
    (∃ job ∈ c.storage.tables.jobs, job.objectKey = f.objectKey) ∧ f ∈ c.releasedFiles

/-- When the conversations are deleted: there are none, or no attachment is left and every file
    left was selected. -/
def Undisturbed (c : Clearing) : Prop :=
  c.conversationIds = [] ∨
    (c.storage.tables.attachments = [] ∧ ∀ f ∈ c.storage.tables.files, f ∈ c.files)

end Clearing

/-! ## 3. Creations add rows -/

/-- What a creation does to the rows. -/
structure Grown (s s' : Storage) (action : Action) : Prop where
  wellFormed : WellFormed s'.tables
  attachments : ∃ more, s'.tables.attachments = s.tables.attachments ++ more ∧
    ∀ a ∈ more, a.id ∉ s.issued ∧ a.id ∈ s'.issued
  artifacts : ∃ more, s'.tables.artifacts = s.tables.artifacts ++ more ∧
    ∀ a ∈ more, ∀ old ∈ s.tables.artifacts, old.id ≠ a.id
  files : ∃ more, s'.tables.files = s.tables.files ++ more ∧
    ∀ f ∈ more, action.reservesFor f.artifactId = true
  jobs : s'.tables.jobs = s.tables.jobs

/-- Nothing but conversations, messages and runs. -/
theorem Grown.same {s s' : Storage} {action : Action} (hw : WellFormed s'.tables)
    (ha : s'.tables.attachments = s.tables.attachments)
    (hr : s'.tables.artifacts = s.tables.artifacts) (hf : s'.tables.files = s.tables.files)
    (hj : s'.tables.jobs = s.tables.jobs) : Grown s s' action :=
  ⟨hw, ⟨[], by rw [ha, List.append_nil], fun _ h => nomatch h⟩,
    ⟨[], by rw [hr, List.append_nil], fun _ h => nomatch h⟩,
    ⟨[], by rw [hf, List.append_nil], fun _ h => nomatch h⟩, hj⟩

theorem addRow_grown {s : Storage} (hw : WellFormed s.tables) {conversationId : Uuid}
    {f : Tables → Tables} (h : Quiet s.tables (f s.tables))
    (ha : (f s.tables).attachments = s.tables.attachments) (action : Action) :
    Grown s (s.addRow conversationId f) action := by
  unfold Storage.addRow
  split
  · exact .same (hw.quiet h) ha h.artifacts h.files h.jobs
  · exact .same hw rfl rfl rfl rfl

theorem transact_grown {β : Type} {s d : Storage} {action : Action}
    {tx : Tables → Except StorageError (β × Tables)} (h0 : Grown s d action)
    (h : ∀ b t', tx d.tables = .ok (b, t') → Grown s { d with tables := t' } action) :
    Grown s (d.transact tx) action := by
  show Grown s { d with tables := Machine.commit d.tables (tx d.tables) } action
  rcases Machine.commit_cases d.tables (tx d.tables) with he | ⟨b, t', htx, he⟩
  · rw [he]
    exact h0
  · rw [he]
    exact h b t' htx

/-- **A creation adds rows and keeps the others.** -/
theorem creation_grown [JsString.Sha256] {s : Storage} (hw : WellFormed s.tables)
    {action : Action} (h : action.isCreation = true) :
    Grown s (s.step greatest action) action := by
  unfold Storage.step
  cases action with
  | tick ms => exact .same hw rfl rfl rfl rfl
  | addConversation id =>
    simp only
    split
    · exact .same hw rfl rfl rfl rfl
    · exact .same (hw.quiet (addConversation_quiet s.tables id)) rfl rfl rfl rfl
  | addMessage message =>
    exact addRow_grown hw
      ⟨rfl, rfl, rfl, rfl, rfl, rfl, rfl, fun _ _ h => h, fun _ _ h => h⟩ rfl _
  | addRun run =>
    exact addRow_grown hw
      ⟨rfl, rfl, rfl, rfl, rfl, rfl, rfl, fun _ _ h => h, fun _ _ h => h⟩ rfl _
  | initiate id conversationId kind filename mimeType sizeBytes startedAt =>
    simp only
    split
    · exact .same hw rfl rfl rfl rfl
    · next hnew =>
      simp only [Bool.or_eq_true, not_or, List.contains_iff_mem] at hnew
      refine transact_grown (.same hw rfl rfl rfl rfl) fun row t' htx => ?_
      obtain ⟨-, hlive, -, hsize, hfresh, rfl⟩ := initiate_ok htx
      refine ⟨hw.initiate hfresh (conversationLive_home hlive) rfl hsize, ⟨[_], rfl, ?_⟩,
        ⟨[], (List.append_nil _).symm, fun _ h => (nomatch h)⟩,
        ⟨[], (List.append_nil _).symm, fun _ h => (nomatch h)⟩, rfl⟩
      intro a ha
      rw [List.mem_singleton.mp ha]
      exact ⟨hnew.1, List.mem_cons_self⟩
  | createArtifact input =>
    simp only
    split
    · exact .same hw rfl rfl rfl rfl
    · refine transact_grown (.same hw rfl rfl rfl rfl) fun row t' htx => ?_
      obtain ⟨hlive, hid, hconversation, hfresh, rfl⟩ := createArtifact_ok htx
      have hhome := conversationLive_home hlive
      rw [← hid] at hfresh
      rw [← hconversation] at hhome
      refine ⟨hw.createArtifact hfresh hhome,
        ⟨[], (List.append_nil _).symm, fun _ h => (nomatch h)⟩, ⟨[_], rfl, ?_⟩,
        ⟨[], (List.append_nil _).symm, fun _ h => (nomatch h)⟩, rfl⟩
      intro a ha old hold
      rw [List.mem_singleton.mp ha]
      exact hfresh old hold
  | reserveFile fileId artifactId conversationId format filename sizeBytes =>
    simp only
    split
    · exact .same hw rfl rfl rfl rfl
    · unfold Storage.reserve
      split
      · next r t' htx =>
        obtain ⟨-, hhome, -, hsize, hfresh, he⟩ := reserveFile_ok hw htx
        subst he
        refine ⟨hw.reserveFile hfresh hhome rfl hsize,
          ⟨[], (List.append_nil _).symm, fun _ h => (nomatch h)⟩,
          ⟨[], (List.append_nil _).symm, fun _ h => (nomatch h)⟩, ⟨[_], rfl, ?_⟩, rfl⟩
        intro f hf
        rw [List.mem_singleton.mp hf]
        exact beq_self_eq_true _
      · exact .same hw rfl rfl rfl rfl
  | _ => nomatch h

/-! ## 4. The invariant -/

namespace Clearing

/-- Nothing released and nothing removed yet. -/
structure Untouched (c : Clearing) : Prop where
  releasedAttachments : c.releasedAttachments = []
  releasedFiles : c.releasedFiles = []
  removedAttachments : c.removedAttachments = []
  removedFiles : c.removedFiles = []

/-- The selected attachments are there: their rows are locked. -/
def Held (c : Clearing) : Prop := ∀ a ∈ c.attachments, a ∈ c.storage.tables.attachments

/-- The selected artifacts are there, and no other has one of their ids. -/
structure Marked (c : Clearing) : Prop where
  selected : ∀ a ∈ c.storage.tables.artifacts, a.id ∈ c.artifactIds →
    artifactIn c.conversationIds a = true
  present : ∀ id ∈ c.artifactIds, id ∈ c.storage.tables.artifacts.map (·.id)

/-- Every file of a selected artifact was selected. -/
def Complete (c : Clearing) : Prop :=
  ∀ f ∈ c.storage.tables.files, f.artifactId ∈ c.artifactIds → f ∈ c.files

structure Queued (c : Clearing) : Prop where
  attachments : ∀ a ∈ c.attachments, HasJob c.storage.tables a.objectKey
  files : ∀ f ∈ c.files, HasJob c.storage.tables f.objectKey

structure Released (c : Clearing) : Prop where
  attachments : c.releasedAttachments = c.attachments
  files : c.releasedFiles = c.files

/-- What is gone was selected; no attachment left was. -/
structure Gone (c : Clearing) : Prop where
  removedAttachments : ∀ a ∈ c.removedAttachments, a ∈ c.attachments
  removedFiles : ∀ f ∈ c.removedFiles, f ∈ c.files
  left : ∀ a ∈ c.storage.tables.attachments, a ∉ c.attachments

/-- What holds before each statement. -/
def Phase (c : Clearing) : ClearPoint → Prop
  | .selectConversations | .selectAttachments => c.Untouched
  | .selectArtifacts => c.Untouched ∧ c.Held
  | .selectFiles => c.Untouched ∧ c.Held ∧ c.Marked
  | .insertJobs => c.Untouched ∧ c.Held ∧ c.Complete
  | .updateAccount => c.Untouched ∧ c.Held ∧ c.Complete ∧ c.Queued
  | .deleteAttachments =>
      (c.removedAttachments = [] ∧ c.removedFiles = []) ∧ c.Held ∧ c.Complete ∧ c.Queued ∧
        c.Released
  | .deleteArtifacts => c.Complete ∧ c.Queued ∧ c.Released ∧ c.Gone
  | .deleteConversations => c.Queued ∧ c.Released ∧ c.Gone
  | .done => True

structure Invariant (c : Clearing) : Prop where
  wellFormed : WellFormed c.storage.tables
  drawn : ∀ a ∈ c.storage.tables.attachments, a.id ∈ c.storage.issued
  selectedDrawn : ∀ a ∈ c.attachments, a.id ∈ c.storage.issued
  phase : c.Phase c.next

theorem start_invariant {s : Storage} (hs : Sound s) : (start s).Invariant where
  wellFormed := hs.wellFormed
  drawn := hs.known.attachmentIds
  selectedDrawn := fun _ h => nomatch h
  phase := ⟨rfl, rfl, rfl, rfl⟩

section Create

variable [JsString.Sha256]

/-- **A creation keeps the invariant.** -/
theorem Invariant.create {c : Clearing} (hi : c.Invariant) {action : Action}
    (hcreation : action.isCreation = true) (hfree : c.blocks action = false) :
    (c.withStorage (c.storage.step greatest action)).Invariant := by
  have hg := creation_grown hi.wellFormed hcreation
  have hframe := step_frame greatest c.storage action
  obtain ⟨moreA, hA, hAnew⟩ := hg.attachments
  obtain ⟨moreR, hR, hRnew⟩ := hg.artifacts
  obtain ⟨moreF, hF, hFnew⟩ := hg.files
  have hheld : c.Held →
      (c.withStorage (c.storage.step greatest action)).Held := by
    intro h a ha
    show a ∈ (c.storage.step greatest action).tables.attachments
    rw [hA]
    exact List.mem_append_left _ (h a ha)
  have hmarked : c.Marked →
      (c.withStorage (c.storage.step greatest action)).Marked := by
    intro h
    constructor
    · intro a ha hid
      have ha' : a ∈ c.storage.tables.artifacts ++ moreR := hR ▸ ha
      rcases List.mem_append.mp ha' with hold | hnew
      · exact h.selected a hold hid
      · obtain ⟨old, hold, he⟩ := List.mem_map.mp (h.present a.id hid)
        exact absurd he (hRnew a hnew old hold)
    · intro id hid
      show id ∈ (c.storage.step greatest action).tables.artifacts.map (·.id)
      rw [hR, List.map_append]
      exact List.mem_append_left _ (h.present id hid)
  have hcomplete : c.next ≠ .done → c.Complete →
      (c.withStorage (c.storage.step greatest action)).Complete := by
    intro hrunning h f hf hid
    have hf' : f ∈ c.storage.tables.files ++ moreF := hF ▸ hf
    rcases List.mem_append.mp hf' with hold | hnew
    · exact h f hold hid
    · -- its artifact is locked
      have hres := hFnew f hnew
      cases action with
      | reserveFile fileId artifactId conversationId format filename sizeBytes =>
        have heq : artifactId = f.artifactId := beq_iff_eq.mp hres
        have hid' : f.artifactId ∈ c.artifactIds := hid
        have hblocked : (c.accountLocked ||
          (c.next != .done && c.artifactIds.contains artifactId)) = false := hfree
        rw [heq, List.contains_iff_mem.mpr hid', bne_iff_ne.mpr hrunning] at hblocked
        simp at hblocked
      | _ => nomatch hres
  have hqueued : c.Queued →
      (c.withStorage (c.storage.step greatest action)).Queued := by
    intro h
    exact ⟨fun a ha => hasJob_of_jobs (h.attachments a ha) hg.jobs,
      fun f hf => hasJob_of_jobs (h.files f hf) hg.jobs⟩
  have hreleased : c.Released →
      (c.withStorage (c.storage.step greatest action)).Released :=
    fun h => ⟨h.attachments, h.files⟩
  have hgone : c.Gone →
      (c.withStorage (c.storage.step greatest action)).Gone := by
    intro h
    refine ⟨h.removedAttachments, h.removedFiles, fun a ha hsel => ?_⟩
    have ha' : a ∈ c.storage.tables.attachments ++ moreA := hA ▸ ha
    rcases List.mem_append.mp ha' with hold | hnew
    · exact h.left a hold hsel
    · exact (hAnew a hnew).1 (hi.selectedDrawn a hsel)
  have huntouched : c.Untouched →
      (c.withStorage (c.storage.step greatest action)).Untouched :=
    fun h => ⟨h.releasedAttachments, h.releasedFiles, h.removedAttachments, h.removedFiles⟩
  refine ⟨hg.wellFormed, ?_, fun a ha => hframe.issued _ (hi.selectedDrawn a ha), ?_⟩
  · intro a ha
    have ha' : a ∈ c.storage.tables.attachments ++ moreA := hA ▸ ha
    rcases List.mem_append.mp ha' with hold | hnew
    · exact hframe.issued _ (hi.drawn a hold)
    · exact (hAnew a hnew).2
  · have hphase : ∀ point, c.next = point → c.Phase point →
        (c.withStorage (c.storage.step greatest action)).Phase point := by
      intro point hnext h
      rw [hnext] at hcomplete
      cases point with
      | selectConversations => exact huntouched h
      | selectAttachments => exact huntouched h
      | selectArtifacts => exact ⟨huntouched h.1, hheld h.2⟩
      | selectFiles => exact ⟨huntouched h.1, hheld h.2.1, hmarked h.2.2⟩
      | insertJobs => exact ⟨huntouched h.1, hheld h.2.1, hcomplete (by decide) h.2.2⟩
      | updateAccount =>
        obtain ⟨h1, h2, h3, h4⟩ := h
        exact ⟨huntouched h1, hheld h2, hcomplete (by decide) h3, hqueued h4⟩
      | deleteAttachments =>
        obtain ⟨h1, h2, h3, h4, h5⟩ := h
        exact ⟨h1, hheld h2, hcomplete (by decide) h3, hqueued h4, hreleased h5⟩
      | deleteArtifacts =>
        obtain ⟨h1, h2, h3, h4⟩ := h
        exact ⟨hcomplete (by decide) h1, hqueued h2, hreleased h3, hgone h4⟩
      | deleteConversations =>
        obtain ⟨h1, h2, h3⟩ := h
        exact ⟨hqueued h1, hreleased h2, hgone h3⟩
      | done => exact True.intro
    exact hphase c.next rfl hi.phase

end Create

/-! ## 5. The statements keep the invariant -/

theorem mem_removedAttachments {c : Clearing} {t : Tables} {a : Attachment} :
    a ∈ (c.write t).removedAttachments ↔ a ∈ c.removedAttachments ∨
      (a ∈ c.storage.tables.attachments ∧ a ∉ t.attachments) := by
  unfold write
  simp only [List.mem_append, List.mem_filter, Bool.not_eq_true', List.contains_eq_mem,
    decide_eq_false_iff_not]

theorem mem_removedFiles {c : Clearing} {t : Tables} {f : ArtifactFile} :
    f ∈ (c.write t).removedFiles ↔ f ∈ c.removedFiles ∨
      (f ∈ c.storage.tables.files ∧ f ∉ t.files) := by
  unfold write
  simp only [List.mem_append, List.mem_filter, Bool.not_eq_true', List.contains_eq_mem,
    decide_eq_false_iff_not]

/-- A statement that removes no row. -/
theorem write_removed {c : Clearing} {t : Tables}
    (ha : t.attachments = c.storage.tables.attachments) (hf : t.files = c.storage.tables.files) :
    (c.write t).removedAttachments = c.removedAttachments ∧
      (c.write t).removedFiles = c.removedFiles := by
  have hnone : ∀ {ρ : Type} [DecidableEq ρ] (rows : List ρ),
      rows.filter (fun r => !(rows.contains r)) = [] := by
    intro ρ _ rows
    refine List.filter_eq_nil_iff.mpr fun r hr => ?_
    rw [List.contains_iff_mem.mpr hr]
    decide
  unfold write
  rw [ha, hf]
  simp only [hnone, List.append_nil]
  exact ⟨trivial, trivial⟩

variable {c : Clearing}

theorem Invariant.selectConversations (hi : c.Invariant) (hnext : c.next = .selectConversations) :
    c.statement.Invariant := by
  have hphase := hi.phase
  rw [hnext] at hphase
  unfold statement
  rw [hnext]
  exact ⟨hi.wellFormed, hi.drawn, hi.selectedDrawn,
    ⟨hphase.releasedAttachments, hphase.releasedFiles, hphase.removedAttachments,
      hphase.removedFiles⟩⟩

theorem Invariant.selectAttachments (hi : c.Invariant) (hnext : c.next = .selectAttachments) :
    c.statement.Invariant := by
  have hphase := hi.phase
  rw [hnext] at hphase
  unfold statement
  rw [hnext]
  refine ⟨hi.wellFormed, hi.drawn, ?_, ⟨⟨hphase.releasedAttachments, hphase.releasedFiles,
    hphase.removedAttachments, hphase.removedFiles⟩, ?_⟩⟩
  · intro a ha
    exact hi.drawn a (List.mem_filter.mp ha).1
  · intro a ha
    exact (List.mem_filter.mp ha).1

theorem Invariant.selectArtifacts (hi : c.Invariant) (hnext : c.next = .selectArtifacts) :
    c.statement.Invariant := by
  have hphase := hi.phase
  rw [hnext] at hphase
  obtain ⟨huntouched, hheld⟩ := hphase
  unfold statement
  rw [hnext]
  refine ⟨hi.wellFormed, hi.drawn, hi.selectedDrawn, ⟨⟨huntouched.releasedAttachments,
    huntouched.releasedFiles, huntouched.removedAttachments, huntouched.removedFiles⟩, hheld, ?_⟩⟩
  constructor
  · intro a ha hid
    obtain ⟨b, hb, he⟩ := List.mem_map.mp hid
    obtain ⟨hmem, hin⟩ := List.mem_filter.mp hb
    rw [hi.wellFormed.artifactIds.eq ha hmem he.symm]
    exact hin
  · intro id hid
    obtain ⟨b, hb, he⟩ := List.mem_map.mp hid
    exact List.mem_map.mpr ⟨b, (List.mem_filter.mp hb).1, he⟩

theorem Invariant.selectFiles (hi : c.Invariant) (hnext : c.next = .selectFiles) :
    c.statement.Invariant := by
  have hphase := hi.phase
  rw [hnext] at hphase
  obtain ⟨huntouched, hheld, hmarked⟩ := hphase
  unfold statement
  rw [hnext]
  refine ⟨hi.wellFormed, hi.drawn, hi.selectedDrawn, ⟨⟨huntouched.releasedAttachments,
    huntouched.releasedFiles, huntouched.removedAttachments, huntouched.removedFiles⟩, hheld, ?_⟩⟩
  -- the file's artifact is there, and it was selected
  intro f hf hid
  obtain ⟨a, ha, he⟩ := List.mem_map.mp (hi.wellFormed.fileHome f hf)
  have hin := hmarked.selected a ha (by rw [he]; exact hid)
  refine List.mem_filter.mpr ⟨hf, List.any_eq_true.mpr ⟨a, ha, ?_⟩⟩
  rw [he, hin]
  simp

/-- The jobs of the selected rows. -/
theorem selectedJobs_cover (c : Clearing) (now : Int) :
    (∀ a ∈ c.attachments, ∃ job ∈ attachmentJobs c.attachments now ++
      fileJobs c.files (fun file =>
        deletionRunAt file.quotaState (file.createdAt + 3600000) now),
        job.objectKey = a.objectKey) ∧
    ∀ f ∈ c.files, ∃ job ∈ attachmentJobs c.attachments now ++
      fileJobs c.files (fun file =>
        deletionRunAt file.quotaState (file.createdAt + 3600000) now),
        job.objectKey = f.objectKey := by
  constructor
  · intro a ha
    exact ⟨_, List.mem_append_left _ (List.mem_map.mpr ⟨a, ha, rfl⟩), rfl⟩
  · intro f hf
    exact ⟨_, List.mem_append_right _ (List.mem_map.mpr ⟨f, hf, rfl⟩), rfl⟩

theorem Invariant.insertJobs (hi : c.Invariant) (hnext : c.next = .insertJobs) :
    c.statement.Invariant := by
  have hphase := hi.phase
  rw [hnext] at hphase
  obtain ⟨huntouched, hheld, hcomplete⟩ := hphase
  obtain ⟨hcoverA, hcoverF⟩ := selectedJobs_cover c c.storage.now
  unfold statement
  rw [hnext]
  simp only
  generalize attachmentJobs c.attachments c.storage.now ++
    fileJobs c.files (fun file =>
      deletionRunAt file.quotaState (file.createdAt + 3600000) c.storage.now) = jobs at *
  obtain ⟨hremA, hremF⟩ := write_removed
    (insertJobs_attachments c.storage.tables jobs) (insertJobs_files c.storage.tables jobs)
  refine ⟨?_, ?_, hi.selectedDrawn, ⟨⟨huntouched.releasedAttachments, huntouched.releasedFiles,
    hremA.trans huntouched.removedAttachments, hremF.trans huntouched.removedFiles⟩, ?_, ?_,
    ⟨?_, ?_⟩⟩⟩
  · exact hi.wellFormed.congr
      (congrArg (List.map (·.id)) (insertJobs_conversations c.storage.tables jobs))
      (insertJobs_attachments _ _) (insertJobs_artifacts _ _) (insertJobs_files _ _)
  · show ∀ a ∈ (c.storage.tables.insertJobs jobs).attachments, _
    rw [insertJobs_attachments]
    exact hi.drawn
  · show ∀ a ∈ c.attachments, a ∈ (c.storage.tables.insertJobs jobs).attachments
    rw [insertJobs_attachments]
    exact hheld
  · show ∀ f ∈ (c.storage.tables.insertJobs jobs).files, _
    rw [insertJobs_files]
    exact hcomplete
  · intro a ha
    obtain ⟨job, hjob, he⟩ := hcoverA a ha
    exact he ▸ hasJob_of_mem hjob
  · intro f hf
    obtain ⟨job, hjob, he⟩ := hcoverF f hf
    exact he ▸ hasJob_of_mem hjob

theorem Invariant.updateAccount (hi : c.Invariant) (hnext : c.next = .updateAccount) :
    c.statement.Invariant := by
  have hphase := hi.phase
  rw [hnext] at hphase
  obtain ⟨huntouched, hheld, hcomplete, hqueued⟩ := hphase
  unfold statement
  rw [hnext]
  simp only
  split
  · obtain ⟨hremA, hremF⟩ := @write_removed c (c.storage.tables.release greatest
      (committedAttachmentBytes c.attachments + fileBytes .committed c.files)
      (reservedAttachmentBytes c.attachments + fileBytes .reserved c.files)) rfl rfl
    exact ⟨hi.wellFormed.congr rfl rfl rfl rfl, hi.drawn, hi.selectedDrawn,
      ⟨hremA.trans huntouched.removedAttachments, hremF.trans huntouched.removedFiles⟩, hheld,
      hcomplete, ⟨hqueued.attachments, hqueued.files⟩, ⟨rfl, rfl⟩⟩
  · next hnothing =>
    -- nothing selected
    unfold removing at hnothing
    simp only [Bool.not_eq_true', Bool.not_eq_false, Bool.and_eq_true,
      List.isEmpty_iff] at hnothing
    obtain ⟨⟨hA, -⟩, hF⟩ := hnothing
    refine ⟨hi.wellFormed, hi.drawn, hi.selectedDrawn, ⟨hqueued.attachments, hqueued.files⟩,
      ⟨?_, ?_⟩, ⟨?_, ?_, ?_⟩⟩
    · exact huntouched.releasedAttachments.trans hA.symm
    · exact huntouched.releasedFiles.trans hF.symm
    · show ∀ a ∈ c.removedAttachments, _
      rw [huntouched.removedAttachments]
      exact fun _ h => nomatch h
    · show ∀ f ∈ c.removedFiles, _
      rw [huntouched.removedFiles]
      exact fun _ h => nomatch h
    · intro a _ hsel
      have hsel' : a ∈ c.attachments := hsel
      rw [hA] at hsel'
      nomatch hsel'

theorem Invariant.deleteAttachments (hi : c.Invariant) (hnext : c.next = .deleteAttachments) :
    c.statement.Invariant := by
  have hphase := hi.phase
  rw [hnext] at hphase
  obtain ⟨⟨hremA, hremF⟩, hheld, hcomplete, hqueued, hreleased⟩ := hphase
  unfold statement
  rw [hnext]
  simp only
  refine ⟨?_, ?_, hi.selectedDrawn, hcomplete, ⟨hqueued.attachments, hqueued.files⟩,
    ⟨hreleased.attachments, hreleased.files⟩, ⟨?_, ?_, ?_⟩⟩
  · exact hi.wellFormed.remove (fun a => (c.attachments.map (·.id)).contains a.id)
      (fun _ => false) (fun _ => false) rfl rfl (deleteWhere_false _).symm
      (deleteWhere_false _).symm fun _ _ _ _ _ _ => rfl
  · intro a ha
    exact hi.drawn a (mem_deleteWhere.mp ha).1
  · intro a ha
    rcases mem_removedAttachments.mp ha with hold | ⟨hmem, hgone⟩
    · rw [hremA] at hold
      nomatch hold
    · -- it has the id of a selected row, which is there
      have hid : (c.attachments.map (·.id)).contains a.id = true := by
        by_contra hno
        exact hgone (mem_deleteWhere.mpr ⟨hmem, Bool.eq_false_iff.mpr hno⟩)
      obtain ⟨b, hb, he⟩ := List.mem_map.mp (List.contains_iff_mem.mp hid)
      rw [hi.wellFormed.attachmentIds.eq hmem (hheld b hb) he.symm]
      exact hb
  · intro f hf
    rcases mem_removedFiles.mp hf with hold | ⟨hmem, hgone⟩
    · rw [hremF] at hold
      nomatch hold
    · exact absurd hmem hgone
  · intro a ha hsel
    obtain ⟨-, hkeep⟩ := mem_deleteWhere.mp ha
    have hid : (c.attachments.map (·.id)).contains a.id = true :=
      List.contains_iff_mem.mpr (List.mem_map.mpr ⟨a, hsel, rfl⟩)
    rw [hid] at hkeep
    nomatch hkeep

theorem Invariant.deleteArtifacts (hi : c.Invariant) (hnext : c.next = .deleteArtifacts) :
    c.statement.Invariant := by
  have hphase := hi.phase
  rw [hnext] at hphase
  obtain ⟨hcomplete, hqueued, hreleased, hgone⟩ := hphase
  unfold statement
  rw [hnext]
  simp only
  refine ⟨?_, hi.drawn, hi.selectedDrawn, ⟨hqueued.attachments, hqueued.files⟩,
    ⟨hreleased.attachments, hreleased.files⟩, ⟨?_, ?_, hgone.left⟩⟩
  · refine hi.wellFormed.remove (fun _ => false)
      (fun file => c.artifactIds.contains file.artifactId)
      (fun a => c.artifactIds.contains a.id) rfl (deleteWhere_false _).symm rfl rfl ?_
    intro f _ hkeep a _ he
    rw [he]
    exact hkeep
  · intro a ha
    rcases mem_removedAttachments.mp ha with hold | ⟨hmem, hno⟩
    · exact hgone.removedAttachments a hold
    · exact absurd hmem hno
  · intro f hf
    rcases mem_removedFiles.mp hf with hold | ⟨hmem, hno⟩
    · exact hgone.removedFiles f hold
    · refine hcomplete f hmem ?_
      by_contra hid
      refine hno (mem_deleteWhere.mpr ⟨hmem, ?_⟩)
      rw [Bool.eq_false_iff]
      exact fun h => hid (List.contains_iff_mem.mp h)

theorem deleteWhere_true {ρ : Type} (rows : List ρ) : deleteWhere (fun _ => true) rows = [] := by
  unfold deleteWhere
  simp

/-- Deleting the user's conversations takes every row along. -/
theorem deleteAll_rows {t : Tables} (hw : WellFormed t) :
    (ChatStorage.deleteConversations (fun _ => true) t).conversations = [] ∧
    (ChatStorage.deleteConversations (fun _ => true) t).attachments = [] ∧
    (ChatStorage.deleteConversations (fun _ => true) t).artifacts = [] ∧
    (ChatStorage.deleteConversations (fun _ => true) t).files = [] := by
  refine ⟨deleteWhere_true _, deleteWhere_true _, deleteWhere_true _, ?_⟩
  refine List.filter_eq_nil_iff.mpr fun f hf => ?_
  obtain ⟨a, ha, he⟩ := List.mem_map.mp (hw.fileHome f hf)
  have hany : (t.artifacts.any fun a => a.id == f.artifactId && true) = true := by
    refine List.any_eq_true.mpr ⟨a, ha, ?_⟩
    rw [he]
    simp
  rw [Bool.not_eq_true', Bool.not_eq_false]
  exact hany

theorem Invariant.deleteConversations (hi : c.Invariant)
    (hnext : c.next = .deleteConversations) : c.statement.Invariant := by
  unfold statement
  rw [hnext]
  simp only
  split
  · exact ⟨hi.wellFormed, hi.drawn, hi.selectedDrawn, True.intro⟩
  · obtain ⟨h1, h2, h3, h4⟩ := deleteAll_rows hi.wellFormed
    refine ⟨wellFormed_empty.congr (congrArg (List.map Conversation.id) h1) h2 h3 h4, ?_,
      hi.selectedDrawn, True.intro⟩
    intro a ha
    have hnil : a ∈ (ChatStorage.deleteConversations (fun _ => true)
      c.storage.tables).attachments := ha
    rw [h2] at hnil
    nomatch hnil

/-- **Every statement keeps the invariant.** -/
theorem Invariant.statement (hi : c.Invariant) : c.statement.Invariant := by
  cases hnext : c.next with
  | selectConversations => exact hi.selectConversations hnext
  | selectAttachments => exact hi.selectAttachments hnext
  | selectArtifacts => exact hi.selectArtifacts hnext
  | selectFiles => exact hi.selectFiles hnext
  | insertJobs => exact hi.insertJobs hnext
  | updateAccount => exact hi.updateAccount hnext
  | deleteAttachments => exact hi.deleteAttachments hnext
  | deleteArtifacts => exact hi.deleteArtifacts hnext
  | deleteConversations => exact hi.deleteConversations hnext
  | done =>
    unfold Clearing.statement
    rw [hnext]
    exact hi

/-! ## 6. What the deletion of the conversations takes along -/

section Main

variable [JsString.Sha256]

theorem Invariant.step (hi : c.Invariant) (event : Event) : (c.step event).Invariant := by
  cases event with
  | statement => exact hi.statement
  | create action =>
    unfold Clearing.step
    simp only
    split
    · next h =>
        rw [Bool.and_eq_true, Bool.not_eq_true'] at h
        exact hi.create h.1 h.2
    · exact hi

theorem after_invariant (actions : List Action) (events : List Event) :
    (after (Storage.after greatest actions) events).Invariant :=
  Machine.run_invariant (start_invariant (Storage.after_sound greatest_exact actions))
    (fun _ event hi => hi.step event) events

omit [JsString.Sha256] in
/-- Until the conversations are deleted, the removed rows are selected ones. -/
theorem Invariant.losesNothing (hi : c.Invariant) (hrunning : c.next ≠ .done) :
    c.LosesNothing := by
  have hempty : c.removedAttachments = [] → c.removedFiles = [] → c.LosesNothing := by
    intro h1 h2
    unfold LosesNothing
    rw [h1, h2]
    exact ⟨fun _ h => (nomatch h), fun _ h => (nomatch h)⟩
  have hselected : c.Queued → c.Released → c.Gone → c.LosesNothing := by
    intro hqueued hreleased hgone
    constructor
    · intro a ha
      have hsel := hgone.removedAttachments a ha
      rw [hreleased.attachments]
      exact ⟨hqueued.attachments a hsel, hsel⟩
    · intro f hf
      have hsel := hgone.removedFiles f hf
      rw [hreleased.files]
      exact ⟨hqueued.files f hsel, hsel⟩
  have hphase := hi.phase
  cases hnext : c.next with
  | selectConversations =>
    rw [hnext] at hphase
    exact hempty hphase.removedAttachments hphase.removedFiles
  | selectAttachments =>
    rw [hnext] at hphase
    exact hempty hphase.removedAttachments hphase.removedFiles
  | selectArtifacts =>
    rw [hnext] at hphase
    exact hempty hphase.1.removedAttachments hphase.1.removedFiles
  | selectFiles =>
    rw [hnext] at hphase
    exact hempty hphase.1.removedAttachments hphase.1.removedFiles
  | insertJobs =>
    rw [hnext] at hphase
    exact hempty hphase.1.removedAttachments hphase.1.removedFiles
  | updateAccount =>
    rw [hnext] at hphase
    exact hempty hphase.1.removedAttachments hphase.1.removedFiles
  | deleteAttachments =>
    rw [hnext] at hphase
    exact hempty hphase.1.1 hphase.1.2
  | deleteArtifacts =>
    rw [hnext] at hphase
    exact hselected hphase.2.1 hphase.2.2.1 hphase.2.2.2
  | deleteConversations =>
    rw [hnext] at hphase
    exact hselected hphase.1 hphase.2.1 hphase.2.2
  | done => exact absurd hnext hrunning

omit [JsString.Sha256] in
/-- **The last statement** loses nothing exactly when it finds the storage undisturbed. -/
theorem Invariant.losesNothing_iff (hi : c.Invariant) (hnext : c.next = .deleteConversations) :
    c.statement.LosesNothing ↔ c.Undisturbed := by
  have hbefore := hi.losesNothing (by rw [hnext]; decide)
  have hphase := hi.phase
  rw [hnext] at hphase
  obtain ⟨hqueued, hreleased, hgone⟩ := hphase
  obtain ⟨-, hA, -, hF⟩ := deleteAll_rows hi.wellFormed
  unfold Clearing.statement Undisturbed
  rw [hnext]
  simp only
  by_cases hids : c.conversationIds = []
  · -- no conversation was enumerated: none is deleted
    rw [if_pos (List.isEmpty_iff.mpr hids)]
    exact ⟨fun _ => Or.inl hids, fun _ => hbefore⟩
  · rw [if_neg (by simpa using hids)]
    constructor
    · intro h
      refine Or.inr ⟨List.eq_nil_iff_forall_not_mem.mpr fun a ha => ?_, fun f hf => ?_⟩
      · have hrem : a ∈ (c.write (ChatStorage.deleteConversations (fun _ => true)
            c.storage.tables)).removedAttachments :=
          mem_removedAttachments.mpr (Or.inr ⟨ha, by rw [hA]; exact List.not_mem_nil⟩)
        have hrel : a ∈ c.releasedAttachments := (h.1 a hrem).2
        rw [hreleased.attachments] at hrel
        exact hgone.left a ha hrel
      · have hrem : f ∈ (c.write (ChatStorage.deleteConversations (fun _ => true)
            c.storage.tables)).removedFiles :=
          mem_removedFiles.mpr (Or.inr ⟨hf, by rw [hF]; exact List.not_mem_nil⟩)
        have hrel : f ∈ c.releasedFiles := (h.2 f hrem).2
        rw [hreleased.files] at hrel
        exact hrel
    · intro h
      obtain ⟨hnone, hall⟩ := h.resolve_left hids
      constructor
      · intro a ha
        rcases mem_removedAttachments.mp ha with hold | ⟨hmem, -⟩
        · exact hbefore.1 a hold
        · rw [hnone] at hmem
          nomatch hmem
      · intro f hf
        rcases mem_removedFiles.mp hf with hold | ⟨hmem, -⟩
        · exact hbefore.2 f hold
        · have hsel := hall f hmem
          refine ⟨hqueued.files f hsel, ?_⟩
          show f ∈ c.releasedFiles
          rw [hreleased.files]
          exact hsel

/-- **Clearing loses no storage** exactly when its last statement finds no attachment, and no file
    that was not selected; until then it loses nothing. -/
theorem clearing_loses_nothing_iff (actions : List Action) (events : List Event) :
    let c := after (Storage.after greatest actions) events
    (c.next ≠ .done → c.LosesNothing) ∧
      (c.next = .deleteConversations → (c.statement.LosesNothing ↔ c.Undisturbed)) := by
  intro c
  have hi : c.Invariant := after_invariant actions events
  exact ⟨hi.losesNothing, hi.losesNothing_iff⟩

/-- What the statements alone find. -/
def Alone (c : Clearing) : ClearPoint → Prop
  | .selectConversations | .done => True
  | .selectAttachments =>
      (∀ a ∈ c.storage.tables.attachments, attachmentIn c.conversationIds a = true) ∧
        ∀ a ∈ c.storage.tables.artifacts, artifactIn c.conversationIds a = true
  | .selectArtifacts | .selectFiles =>
      (∀ a ∈ c.storage.tables.attachments, a ∈ c.attachments) ∧
        ∀ a ∈ c.storage.tables.artifacts, artifactIn c.conversationIds a = true
  | .insertJobs | .updateAccount | .deleteAttachments =>
      (∀ a ∈ c.storage.tables.attachments, a ∈ c.attachments) ∧
        ∀ f ∈ c.storage.tables.files, f ∈ c.files
  | .deleteArtifacts | .deleteConversations =>
      c.storage.tables.attachments = [] ∧ ∀ f ∈ c.storage.tables.files, f ∈ c.files

omit [JsString.Sha256] in
theorem Invariant.alone (hi : c.Invariant) (h : c.Alone c.next) :
    c.statement.Alone c.statement.next := by
  unfold Clearing.statement
  cases hnext : c.next with
  | selectConversations =>
    refine ⟨fun a ha => ?_, fun a ha => ?_⟩
    · unfold attachmentIn conversationFilter
      rw [List.contains_iff_mem.mpr (hi.wellFormed.attachmentHome a ha), Bool.or_true]
    · unfold artifactIn conversationFilter
      rw [List.contains_iff_mem.mpr (hi.wellFormed.artifactHome a ha), Bool.or_true]
  | selectAttachments =>
    rw [hnext] at h
    exact ⟨fun a ha => List.mem_filter.mpr ⟨ha, h.1 a ha⟩, h.2⟩
  | selectArtifacts =>
    rw [hnext] at h
    exact h
  | selectFiles =>
    rw [hnext] at h
    refine ⟨h.1, fun f hf => ?_⟩
    obtain ⟨a, ha, he⟩ := List.mem_map.mp (hi.wellFormed.fileHome f hf)
    refine List.mem_filter.mpr ⟨hf, List.any_eq_true.mpr ⟨a, ha, ?_⟩⟩
    rw [he, h.2 a ha]
    simp
  | insertJobs =>
    rw [hnext] at h
    refine ⟨?_, ?_⟩
    · show ∀ a ∈ (c.storage.tables.insertJobs _).attachments, _
      rw [insertJobs_attachments]
      exact h.1
    · show ∀ f ∈ (c.storage.tables.insertJobs _).files, _
      rw [insertJobs_files]
      exact h.2
  | updateAccount =>
    rw [hnext] at h
    simp only
    split
    · exact h
    · next hnothing =>
      unfold removing at hnothing
      simp only [Bool.not_eq_true', Bool.not_eq_false, Bool.and_eq_true,
        List.isEmpty_iff] at hnothing
      obtain ⟨⟨hA, -⟩, -⟩ := hnothing
      refine ⟨List.eq_nil_iff_forall_not_mem.mpr fun a ha => ?_, h.2⟩
      have hsel := h.1 a ha
      rw [hA] at hsel
      nomatch hsel
  | deleteAttachments =>
    rw [hnext] at h
    refine ⟨List.filter_eq_nil_iff.mpr fun a ha => ?_, h.2⟩
    have hid : (c.attachments.map (·.id)).contains a.id = true :=
      List.contains_iff_mem.mpr (List.mem_map.mpr ⟨a, h.1 a ha, rfl⟩)
    rw [Bool.not_eq_true', Bool.not_eq_false]
    exact hid
  | deleteArtifacts =>
    rw [hnext] at h
    exact ⟨h.1, fun f hf => h.2 f (mem_deleteWhere.mp hf).1⟩
  | deleteConversations => exact True.intro
  | done =>
    rw [hnext]
    exact True.intro

/-- **Alone, clearing is undisturbed**: nothing is lost unless something was created in between. -/
theorem alone_undisturbed (actions : List Action) (n : ℕ) :
    let c := after (Storage.after greatest actions) (List.replicate n .statement)
    c.next = .deleteConversations → c.Undisturbed := by
  intro c hnext
  have h : c.Invariant ∧ c.Alone c.next := by
    have hstart : (start (Storage.after greatest actions)).Invariant ∧
        (start (Storage.after greatest actions)).Alone .selectConversations :=
      ⟨start_invariant (Storage.after_sound greatest_exact actions), True.intro⟩
    have hstep : ∀ (c : Clearing) (event : Event), event = .statement →
        c.Invariant ∧ c.Alone c.next → (c.step event).Invariant ∧
          (c.step event).Alone (c.step event).next := by
      intro c event he hi
      subst he
      exact ⟨hi.1.statement, hi.1.alone hi.2⟩
    exact @Machine.run_invariant_of _ _ Clearing.step (fun c : Clearing => c.Invariant ∧
      c.Alone c.next) (fun event => event = Event.statement) _ hstart hstep
      (List.replicate n .statement) fun event he => (List.mem_replicate.mp he).2
  have halone := h.2
  rw [hnext] at halone
  exact Or.inr halone

end Main

/-! ## 7. An upload in between -/

/-- The user has one conversation, and starts clearing it; an upload is initiated after the
    attachments were selected. -/
def createdInBetween : List Event :=
  [.statement, .statement, .create (.initiate 2 1 .document "a" "text/plain" 10 0), .statement,
    .statement, .statement, .statement]

/-- **The upload is lost**: its row goes with the conversation, no deletion of its object is
    queued and its bytes stay reserved. -/
theorem created_in_between_lost :
    ¬ ∀ [JsString.Sha256] (actions : List Action) (events : List Event),
      (after (Storage.after greatest actions) events).next = .deleteConversations →
        (after (Storage.after greatest actions) events).statement.LosesNothing := by
  intro h
  let : JsString.Sha256 := ⟨fun text => text⟩
  have hloses := h [.addConversation 1] createdInBetween (by decide +kernel)
  have hlost : ∃ a ∈ (after (Storage.after greatest [.addConversation 1])
      createdInBetween).statement.removedAttachments,
      a ∉ (after (Storage.after greatest [.addConversation 1])
        createdInBetween).statement.releasedAttachments := by
    decide +kernel
  obtain ⟨a, ha, hno⟩ := hlost
  exact hno (hloses.1 a ha).2

/-- Clearing a conversation with one upload, and nothing in between. -/
theorem clearing_loses_nothing_alone :
    let _ : JsString.Sha256 := ⟨fun text => text⟩
    let c := after (Storage.after greatest
      [.addConversation 1, .initiate 2 1 .document "a" "text/plain" 10 0])
      (List.replicate 8 .statement)
    c.statement.removedAttachments.length = 1 ∧ c.statement.LosesNothing := by
  intro _ c
  have hnext : c.next = .deleteConversations := by decide +kernel
  have hiff := (clearing_loses_nothing_iff [.addConversation 1,
    .initiate 2 1 .document "a" "text/plain" 10 0] (List.replicate 8 .statement)).2 hnext
  exact ⟨by decide +kernel, hiff.mpr (alone_undisturbed _ 8 hnext)⟩

end Clearing

end OpenVac.ChatStorage
