/-
  File:      OpenVac/KnowledgeBase/Identity.lean
  Subject:   Ids and keys of the knowledge tables, over every run.

  * `Known db` -- ids are drawn, an id or a key names one row, a version has its document and a
    document's current version is one of its own.
  * `Known.of_keys` -- the invariant rests on ids, owners, current versions and task keys alone.
  * `known_step`, `known_after` -- **every reachable state is known.**
-/
import OpenVac.KnowledgeBase.Steps

namespace OpenVac.KnowledgeBase

open Rows JsString JsUrl

structure Known (db : Database) : Prop where
  versionIds : ∀ v ∈ db.versions, v.id < db.nextId
  documentIds : ∀ d ∈ db.documents, d.id < db.nextId
  taskIds : ∀ t ∈ db.tasks, t.id < db.nextId
  versions : UniqueOn (·.id) db.versions
  documents : UniqueOn (·.id) db.documents
  tasks : UniqueOn (·.id) db.tasks
  taskKeys : UniqueOn (·.idempotencyKey) db.tasks
  owner : ∀ v ∈ db.versions, ∃ d ∈ db.documents, d.id = v.documentId
  current : ∀ d ∈ db.documents, ∀ id, d.currentVersionId = some id →
    ∃ v ∈ db.versions, v.id = id ∧ v.documentId = d.id

def KnowledgeVersion.key (v : KnowledgeVersion) : Uuid × Uuid := (v.id, v.documentId)

def KnowledgeDocument.key (d : KnowledgeDocument) : Uuid × Option Uuid :=
  (d.id, d.currentVersionId)

def BackgroundTask.key (t : BackgroundTask) : Uuid × TaskKey := (t.id, t.idempotencyKey)

/-- A table whose rows have the keys of another's has a row for each row of the other. -/
theorem exists_of_map_eq {α β : Type} {key : α → β} {rows rows' : List α}
    (h : rows'.map key = rows.map key) {a : α} (ha : a ∈ rows') : ∃ b ∈ rows, key b = key a := by
  have hm : key a ∈ rows.map key := h ▸ List.mem_map_of_mem ha
  exact List.mem_map.mp hm

/-- A column of equal keys. -/
theorem uniqueOn_of_map_eq {α β γ : Type} {key : α → β} {rows rows' : List α} {column : α → γ}
    (proj : β → γ) (hp : ∀ a, proj (key a) = column a) (h : rows'.map key = rows.map key)
    (hu : UniqueOn column rows) : UniqueOn column rows' := by
  have hcol : ∀ l : List α, l.map column = (l.map key).map proj := by
    intro l
    rw [List.map_map]
    exact List.map_congr_left fun a _ => (hp a).symm
  unfold UniqueOn at hu ⊢
  rw [hcol, h, ← hcol]
  exact hu

namespace Known

variable {db db' : Database}

/-- **What the invariant rests on.** -/
theorem of_keys (h : Known db) (hv : db'.versions.map KnowledgeVersion.key =
      db.versions.map KnowledgeVersion.key)
    (hd : db'.documents.map KnowledgeDocument.key = db.documents.map KnowledgeDocument.key)
    (ht : db'.tasks.map BackgroundTask.key = db.tasks.map BackgroundTask.key)
    (hn : db.nextId ≤ db'.nextId) : Known db' where
  versionIds v hm := by
    obtain ⟨v₀, hm₀, e⟩ := exists_of_map_eq hv hm
    have hid : v₀.id = v.id := congrArg Prod.fst e
    rw [← hid]
    exact Nat.lt_of_lt_of_le (h.versionIds v₀ hm₀) hn
  documentIds d hm := by
    obtain ⟨d₀, hm₀, e⟩ := exists_of_map_eq hd hm
    have hid : d₀.id = d.id := congrArg Prod.fst e
    rw [← hid]
    exact Nat.lt_of_lt_of_le (h.documentIds d₀ hm₀) hn
  taskIds t hm := by
    obtain ⟨t₀, hm₀, e⟩ := exists_of_map_eq ht hm
    have hid : t₀.id = t.id := congrArg Prod.fst e
    rw [← hid]
    exact Nat.lt_of_lt_of_le (h.taskIds t₀ hm₀) hn
  versions := uniqueOn_of_map_eq Prod.fst (fun _ => rfl) hv h.versions
  documents := uniqueOn_of_map_eq Prod.fst (fun _ => rfl) hd h.documents
  tasks := uniqueOn_of_map_eq Prod.fst (fun _ => rfl) ht h.tasks
  taskKeys := uniqueOn_of_map_eq Prod.snd (fun _ => rfl) ht h.taskKeys
  owner v hm := by
    obtain ⟨v₀, hm₀, ev⟩ := exists_of_map_eq hv hm
    obtain ⟨d₀, hmd, ed⟩ := h.owner v₀ hm₀
    obtain ⟨d, hd', e⟩ := exists_of_map_eq hd.symm hmd
    have hown : v₀.documentId = v.documentId := congrArg Prod.snd ev
    have hid : d.id = d₀.id := congrArg Prod.fst e
    exact ⟨d, hd', by rw [hid, ed, hown]⟩
  current d hm id hc := by
    obtain ⟨d₀, hm₀, ed⟩ := exists_of_map_eq hd hm
    have hcur : d₀.currentVersionId = d.currentVersionId := congrArg Prod.snd ed
    obtain ⟨v₀, hmv, hid, hown⟩ := h.current d₀ hm₀ id (hcur.trans hc)
    obtain ⟨v, hv', ev⟩ := exists_of_map_eq hv.symm hmv
    have hvid : v.id = v₀.id := congrArg Prod.fst ev
    have hvown : v.documentId = v₀.documentId := congrArg Prod.snd ev
    have hdid : d₀.id = d.id := congrArg Prod.fst ed
    exact ⟨v, hv', hvid.trans hid, by rw [hvown, hown, hdid]⟩

theorem agree (h : Known db) (e : Agree db' db) : Known db' :=
  h.of_keys (by rw [e.versions]) (by rw [e.documents]) (by rw [e.tasks]) e.next

theorem setVersion (h : Known db) (id : Uuid) {f : KnowledgeVersion → KnowledgeVersion}
    (hf : ∀ v, (f v).key = v.key) : Known (db.setVersion id f) :=
  h.of_keys (map_updateWhere hf _) rfl rfl (Nat.le_refl _)

theorem setDocument (h : Known db) (id : Uuid) {f : KnowledgeDocument → KnowledgeDocument}
    (hf : ∀ d, (f d).key = d.key) : Known (db.setDocument id f) :=
  h.of_keys rfl (map_updateWhere hf _) rfl (Nat.le_refl _)

/-- The same for a version and a document, and whatever agrees with the result. -/
theorem set (h : Known db) {versionId documentId : Uuid}
    {f : KnowledgeVersion → KnowledgeVersion} {g : KnowledgeDocument → KnowledgeDocument}
    (e : Agree db' ((db.setVersion versionId f).setDocument documentId g))
    (hf : ∀ v, (f v).key = v.key) (hg : ∀ d, (g d).key = d.key) : Known db' :=
  ((h.setVersion versionId hf).setDocument documentId hg).agree e

/-- The same with an update of the tasks. -/
theorem setAll (h : Known db) {p : KnowledgeVersion → Bool} {q : KnowledgeDocument → Bool}
    {r : BackgroundTask → Bool} {f : KnowledgeVersion → KnowledgeVersion}
    {g : KnowledgeDocument → KnowledgeDocument} {k : BackgroundTask → BackgroundTask}
    (hv : db'.versions = updateWhere p f db.versions)
    (hd : db'.documents = updateWhere q g db.documents)
    (ht : db'.tasks = updateWhere r k db.tasks) (hn : db.nextId ≤ db'.nextId)
    (hf : ∀ v, (f v).key = v.key) (hg : ∀ d, (g d).key = d.key) (hk : ∀ t, (k t).key = t.key) :
    Known db' :=
  h.of_keys (by rw [hv, map_updateWhere hf]) (by rw [hd, map_updateWhere hg])
    (by rw [ht, map_updateWhere hk]) hn

theorem setCurrentStatus (h : Known db) (documentId versionId : Uuid) (status : KnowledgeStatus) :
    Known (db.setCurrentStatus documentId versionId status) :=
  h.of_keys rfl (map_updateWhere (f := withStatus status) (fun _ => rfl) _) rfl (Nat.le_refl _)

theorem archivePublished (h : Known db) (documentId : Uuid) :
    Known (db.archivePublished documentId) :=
  h.of_keys (map_updateWhere (f := archivedVersion) (fun _ => rfl) _) rfl rfl (Nat.le_refl _)

theorem updateTasks (h : Known db) (p : BackgroundTask → Bool)
    {f : BackgroundTask → BackgroundTask} (hf : ∀ t, (f t).key = t.key) :
    Known { db with tasks := updateWhere p f db.tasks } :=
  h.of_keys rfl rfl (map_updateWhere hf _) (Nat.le_refl _)

/-- A task with a new id and a key that no task has. -/
theorem queueTask (h : Known db) (key : TaskKey) (payload : KnowledgeIngestionPayload)
    (runAt : Int) : Known (db.queueTask key payload runAt) := by
  by_cases hq : (db.tasks.any fun task => task.idempotencyKey == key) = true
  · unfold Database.queueTask
    rw [if_pos hq]
    exact h
  · unfold Database.queueTask
    rw [if_neg hq]
    have hlt : db.nextId < db.nextId + 1 := Nat.lt_succ_self _
    refine ⟨fun v hv => Nat.lt_succ_of_lt (h.versionIds v hv),
      fun d hd => Nat.lt_succ_of_lt (h.documentIds d hd), fun t ht => ?_, h.versions,
      h.documents, ?_, ?_, h.owner, h.current⟩
    · rcases List.mem_append.mp ht with ht | ht
      · exact Nat.lt_succ_of_lt (h.taskIds t ht)
      · rw [List.mem_singleton.mp ht]
        exact hlt
    · exact h.tasks.append_one fun t ht => Nat.ne_of_lt (h.taskIds t ht)
    · refine h.taskKeys.append_one fun t ht e => hq ?_
      exact List.any_eq_true.mpr ⟨t, ht, beq_iff_eq.mpr e⟩

/-- A new version that becomes the current one of its document. -/
theorem insertVersion (h : Known db) {v : KnowledgeVersion} {documentId : Uuid}
    {status : KnowledgeStatus} (hid : v.id = db.nextId) (hdocument : v.documentId = documentId)
    (hown : ∃ d ∈ db.documents, d.id = documentId) :
    Known (({ db with nextId := db.nextId + 1, versions := db.versions ++ [v] } :
      Database).setDocument documentId (withCurrent status db.nextId)) := by
  subst hdocument
  have hdoc : ∀ d ∈ updateWhere (fun d : KnowledgeDocument => d.id == v.documentId)
      (withCurrent status db.nextId) db.documents, ∃ d₀ ∈ db.documents, d.id = d₀.id ∧
        ((d.currentVersionId = d₀.currentVersionId) ∨
          (d.id = v.documentId ∧ d.currentVersionId = some v.id)) := by
    intro d hd
    obtain ⟨d₀, hm, rfl⟩ := mem_updateWhere.mp hd
    refine ⟨d₀, hm, ?_⟩
    split
    · next he => exact ⟨rfl, Or.inr ⟨beq_iff_eq.mp he, by rw [hid]; rfl⟩⟩
    · exact ⟨rfl, Or.inl rfl⟩
  refine ⟨fun w hw => ?_, fun d hd => ?_, fun t ht => Nat.lt_succ_of_lt (h.taskIds t ht), ?_, ?_,
    h.tasks, h.taskKeys, fun w hw => ?_, fun d hd id hc => ?_⟩
  · rcases List.mem_append.mp hw with hw | hw
    · exact Nat.lt_succ_of_lt (h.versionIds w hw)
    · rw [List.mem_singleton.mp hw, hid]
      exact Nat.lt_succ_self _
  · obtain ⟨d₀, hm, e, _⟩ := hdoc d hd
    rw [e]
    exact Nat.lt_succ_of_lt (h.documentIds d₀ hm)
  · exact h.versions.append_one fun w hw => by
      rw [hid]
      exact Nat.ne_of_lt (h.versionIds w hw)
  · exact h.documents.updateWhere fun _ => rfl
  · have hex : ∃ d ∈ db.documents, d.id = w.documentId := by
      rcases List.mem_append.mp hw with hw | hw
      · exact h.owner w hw
      · rw [List.mem_singleton.mp hw]
        exact hown
    obtain ⟨d, hd, e⟩ := hex
    refine ⟨_, mem_updateWhere_of_mem hd, ?_⟩
    split
    · exact e
    · exact e
  · obtain ⟨d₀, hm, e, hcur | ⟨hd', hcur⟩⟩ := hdoc d hd
    · obtain ⟨w, hw, hwid, hwown⟩ := h.current d₀ hm id (hcur ▸ hc)
      exact ⟨w, List.mem_append_left _ hw, hwid, hwown.trans e.symm⟩
    · refine ⟨v, List.mem_append_right _ (List.mem_singleton.mpr rfl), ?_, hd'.symm⟩
      exact Option.some.inj (hcur.symm.trans hc)

/-- A new document with its first version. -/
theorem insertDocument (h : Known db) {v : KnowledgeVersion} (sourceId : Option Uuid)
    (externalKey : Option Text) (status : KnowledgeStatus) (hid : v.id = db.nextId + 1)
    (hown : v.documentId = db.nextId) :
    Known { db with
      nextId := db.nextId + 2
      documents := db.documents ++
        [⟨db.nextId, sourceId, externalKey, status, some (db.nextId + 1)⟩]
      versions := db.versions ++ [v] } := by
  have hlt : ∀ n, n < db.nextId → n < db.nextId + 2 := fun n hn =>
    Nat.lt_of_lt_of_le hn (Nat.le_add_right _ _)
  refine ⟨fun w hw => ?_, fun d hd => ?_, fun t ht => hlt _ (h.taskIds t ht), ?_, ?_,
    h.tasks, h.taskKeys, fun w hw => ?_, fun d hd id hc => ?_⟩
  · rcases List.mem_append.mp hw with hw | hw
    · exact hlt _ (h.versionIds w hw)
    · rw [List.mem_singleton.mp hw, hid]
      exact Nat.lt_succ_self _
  · rcases List.mem_append.mp hd with hd | hd
    · exact hlt _ (h.documentIds d hd)
    · rw [List.mem_singleton.mp hd]
      exact Nat.lt_add_of_pos_right (by decide)
  · refine h.versions.append_one fun w hw => ?_
    rw [hid]
    exact Nat.ne_of_lt (Nat.lt_succ_of_lt (h.versionIds w hw))
  · exact h.documents.append_one fun d hd => Nat.ne_of_lt (h.documentIds d hd)
  · rcases List.mem_append.mp hw with hw | hw
    · obtain ⟨d, hd, e⟩ := h.owner w hw
      exact ⟨d, List.mem_append_left _ hd, e⟩
    · rw [List.mem_singleton.mp hw]
      exact ⟨_, List.mem_append_right _ (List.mem_singleton.mpr rfl), hown.symm⟩
  · rcases List.mem_append.mp hd with hd | hd
    · obtain ⟨w, hw, e⟩ := h.current d hd id hc
      exact ⟨w, List.mem_append_left _ hw, e⟩
    · rw [List.mem_singleton.mp hd] at hc ⊢
      refine ⟨v, List.mem_append_right _ (List.mem_singleton.mpr rfl), ?_, hown⟩
      exact hid.trans (Option.some.inj hc)

/-- An id names one version. -/
theorem version_eq (h : Known db) {v w : KnowledgeVersion} (hv : v ∈ db.versions)
    (hw : w ∈ db.versions) (e : v.id = w.id) : v = w := h.versions.eq hv hw e

theorem fresh (h : Known db) : ∀ v ∈ db.versions, v.id ≠ db.nextId :=
  fun v hv => Nat.ne_of_lt (h.versionIds v hv)

end Known

/-! ## 2. Every run -/

section Runs

variable [Sha256] [LocaleOrder] [UrlParser]

omit [Sha256] [LocaleOrder] [UrlParser] in
theorem known_approveWithNote {db : Database} (h : Known db) (target : CurrentTarget)
    (actorId : UserId) (note : Text) (now : Int) :
    Known (approveWithNote target actorId note now db) := by
  unfold approveWithNote
  dsimp only
  have hset := h.setVersion target.version.id
    (f := manuallyApproved (manualReview actorId now target.contentHash note)
      (target.version.citationMetadata.ingestionMode == some .full_text) now) fun _ => rfl
  split
  · exact (hset.queueTask ..).setDocument _ fun _ => rfl
  · exact hset.setDocument _ fun _ => rfl

omit [Sha256] [LocaleOrder] [UrlParser] in
theorem known_publishVerified {db : Database} (h : Known db) (documentId versionId : Uuid)
    (contentHash : Text) (fullText : Bool) (review : Review) (now : Int) :
    Known (publishVerified documentId versionId contentHash fullText review now db).2 := by
  unfold publishVerified
  dsimp only
  have hset := h.setVersion versionId (f := verifiedVersion review fullText now) fun _ => rfl
  split
  · exact hset.queueTask ..
  · exact hset.setCurrentStatus ..

omit [Sha256] [LocaleOrder] [UrlParser] in
theorem known_queueReviewTask {db : Database} (h : Known db) (transition : KnowledgeReviewTransition)
    (preserve : Bool) (now : Int) : Known (queueReviewTask transition preserve now db) := by
  unfold queueReviewTask
  split
  · split
    · exact h
    · exact h.queueTask ..
  · exact h

omit [Sha256] [LocaleOrder] [UrlParser] in
theorem leasedUpdate_key {now : Int} {job : KnowledgeIngestionJob}
    {f : BackgroundTask → BackgroundTask} {a : Action} (hf : LeasedUpdate now job f a)
    (t : BackgroundTask) : (f t).key = t.key := by
  cases hf <;> rfl

/-- **One step keeps the tables known.** -/
theorem known_step {s : Base} (h : Known s.db) (a : Action) : Known (s.step a).db := by
  cases step_effect h.fresh a with
  | quiet documentId sourceId effect =>
    exact (h.setDocument documentId (f := linked sourceId) fun _ => rfl).agree effect
  | activatePending _ _ _ _ effect => exact h.set effect (fun _ => rfl) fun _ => rfl
  | createKnowledgeDraft effect => exact (h.insertDocument _ _ _ rfl rfl).agree effect
  | importKnowledgeCandidate _ effect => exact (h.insertDocument _ _ _ rfl rfl).agree effect
  | updateKnowledgeDraft _ _ _ _ _ _ effect => exact h.set effect (fun _ => rfl) fun _ => rfl
  | reviewKnowledgeDocument _ _ _ _ _ _ _ _ effect =>
    refine Known.agree (known_queueReviewTask ?_ ..) effect
    exact h.set (Agree.refl _) (fun _ => rfl) fun _ => rfl
  | publishKnowledgeDraft _ _ _ _ _ _ effect => exact h.set effect (fun _ => rfl) fun _ => rfl
  | archiveKnowledgeDocument _ effect =>
    split at effect
    · exact h.set effect (fun _ => rfl) fun _ => rfl
    · exact (h.setDocument _ (f := withStatus .archived) fun _ => rfl).agree effect
  | rollbackKnowledgeDocument number found _ mem owner _ effect =>
    have hown := h.owner _ mem
    rw [owner] at hown
    refine Known.agree ?_ effect
    exact (h.archivePublished _).insertVersion rfl owner hown
  | completeReview _ _ _ _ _ _ _ effect =>
    split at effect
    · refine Known.agree (Known.queueTask ?_ ..) effect
      exact h.set (Agree.refl _) (fun _ => rfl) fun _ => rfl
    · exact h.set effect (fun _ => rfl) fun _ => rfl
  | archive _ _ effect => exact h.set effect (fun _ => rfl) fun _ => rfl
  | manual_approve_with_note sourceId _ _ _ _ _ effect =>
    have hlinked := fun id => h.setDocument id (f := linked sourceId) fun _ => rfl
    exact (known_approveWithNote (hlinked _) ..).agree effect
  | manual_edit_and_retry sourceId _ found document _ _ effect =>
    have hlinked := fun id => h.setDocument id (f := linked sourceId) fun _ => rfl
    refine Known.agree ((hlinked _).insertVersion rfl rfl ?_) effect
    have hmem := List.mem_of_find?_eq_some (loadCurrentTarget_ok found).1
    rw [← document] at hmem
    refine ⟨_, mem_updateWhere_of_mem hmem, ?_⟩
    split <;> rfl
  | revised number _ leased _ _ effect =>
    have hown := h.owner _ (leasedTarget_ok leased).mem
    refine Known.agree ?_ effect
    exact h.insertVersion rfl rfl hown
  | needsHuman _ _ effect =>
    have hset := fun id => h.setVersion id (f := needsHumanVersion) fun _ => rfl
    exact ((hset _).setCurrentStatus ..).agree effect
  | verified _ _ _ _ _ effect => exact (known_publishVerified h ..).agree effect
  | @initiateUpload input sourceId effect =>
    have hdocument := h.insertDocument (v := uploadedVersion input s.db.nextId (s.db.nextId + 1))
      sourceId none .processing rfl rfl
    exact hdocument.of_keys (by rw [effect.versions]) (by rw [effect.documents])
      (by rw [effect.tasks]) effect.next
  | completeUpload _ _ _ _ _ _ _ effect =>
    exact (h.queueTask ..).set effect (fun _ => rfl) fun _ => rfl
  | claimNext _ _ _ effect =>
    refine h.of_keys (by rw [effect.versions]) (by rw [effect.documents]) ?_
      (Nat.le_of_succ_le effect.next)
    rw [effect.tasks]
    exact map_updateWhere (f := leasedTask _ _ _) (fun _ => rfl) _
  | leasedUpdate _ update effect => exact (h.updateTasks _ (leasedUpdate_key update)).agree effect
  | saveParsedForReview _ _ _ _ _ _ _ _ effect =>
    exact h.setAll effect.versions effect.documents effect.tasks effect.next (fun _ => rfl)
      (fun _ => rfl) fun _ => rfl
  | saveEmbeddingsAndComplete _ _ _ _ _ _ _ _ _ _ _ _ _ effect =>
    exact h.setAll effect.versions effect.documents effect.tasks effect.next (fun _ => rfl)
      (fun _ => rfl) fun _ => rfl

theorem known_after (actions : List Action) : Known (Base.after actions).db :=
  @Machine.run_invariant _ _ _ (fun s : Base => Known s.db) _
    ⟨fun _ hv => absurd hv List.not_mem_nil, fun _ hd => absurd hd List.not_mem_nil,
      fun _ ht => absurd ht List.not_mem_nil, UniqueOn.nil _, UniqueOn.nil _, UniqueOn.nil _,
      UniqueOn.nil _, fun _ hv => absurd hv List.not_mem_nil,
      fun _ hd => absurd hd List.not_mem_nil⟩
    (fun _ a h => known_step h a) actions

end Runs

end OpenVac.KnowledgeBase
