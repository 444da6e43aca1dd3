/-
  File:      OpenVac/ChatStorage/ParseLeases.lean
  Subject:   The leases of parse jobs, over every run of the chat storage.

  * `ParseSound` -- a row's lease token belongs to one claimed job; passages belong to ready
    documents.
  * `Lasting` -- what is kept of a document that is ready or has failed; `step_lasting`.
  * `Saved` -- the passages of a document are those of one save; `step_saved`.
  * `parse_leases` -- the main result; `storage_references` -- what the rows refer to.
-/
import OpenVac.ChatStorage.ParseSteps

namespace OpenVac.ChatStorage

open Rows

/-! ## 1. The invariant -/

structure ParseSound (s : Storage) : Prop where
  coherent : ∀ a ∈ s.tables.attachments, a.coherent = true
  held : ∀ a ∈ s.tables.attachments, ∀ token, a.parse.leaseToken = some token →
    ∃ job ∈ s.parsing, job.leaseToken = token ∧ job.id = a.id ∧
      a.parse.lockedBy = some job.workerId
  tokens : ∀ job ∈ s.parsing, job.leaseToken ∈ s.issued
  distinct : ∀ job ∈ s.parsing, ∀ job' ∈ s.parsing, job.leaseToken = job'.leaseToken → job = job'
  passages : ∀ row ∈ s.tables.chunks, ∃ a ∈ s.tables.attachments,
    a.id = row.attachmentId ∧ a.parse.status = .ready

theorem initial_parseSound : ParseSound .initial where
  coherent := fun _ h => nomatch h
  held := fun _ h => nomatch h
  tokens := fun _ h => nomatch h
  distinct := fun _ h => nomatch h
  passages := fun _ h => nomatch h

/-- A row that can be claimed is being parsed and keeps its place. -/
theorem claimedRow_coherent {workerId : String} {token : Uuid} {now : Int} {a : Attachment}
    (h : parseClaimable now a = true) : (claimedRow workerId token now a).coherent = true := by
  unfold parseClaimable at h
  simp only [Bool.and_eq_true, beq_iff_eq] at h
  obtain ⟨⟨⟨⟨hkind, -⟩, -⟩, hstatus⟩, -⟩ := h
  simp [Attachment.coherent, claimedRow, hkind, hstatus]

/-- A row that can be claimed is not ready. -/
theorem claimable_not_ready {now : Int} {a : Attachment} (h : parseClaimable now a = true) :
    a.parse.status ≠ .ready ∧ a.status = .processing := by
  unfold parseClaimable at h
  simp only [Bool.and_eq_true, beq_iff_eq, Bool.or_eq_true] at h
  refine ⟨fun hready => ?_, h.1.2⟩
  rw [hready] at h
  rcases h.2 with ⟨hq, -⟩ | ⟨hq, -⟩ <;> nomatch hq

section Step

variable {s s' : Storage}

/-- A row of the tables after a claim. -/
theorem mem_claimed (hu : UniqueOn (·.id) s.tables.attachments) {workerId : String}
    {token : Uuid} {now : Int} {a b : Attachment}
    (ha : a ∈ s.tables.attachments)
    (hb : b ∈ (s.tables.setAttachment a.id (claimedRow workerId token now)).attachments) :
    b = claimedRow workerId token now a ∨ (b ∈ s.tables.attachments ∧ b.id ≠ a.id) := by
  obtain ⟨b₀, hb₀, rfl⟩ := mem_updateWhere.mp hb
  split
  · next hid =>
    rw [hu.eq hb₀ ha (beq_iff_eq.mp hid)]
    exact Or.inl rfl
  · next hid => exact Or.inr ⟨hb₀, fun he => hid (beq_iff_eq.mpr he)⟩

theorem aside_parseSound (h : ParseSound s) (hmove : Aside s.tables s'.tables) (hparsing : s'.parsing = s.parsing)
    (hissued : ∀ id ∈ s.issued, id ∈ s'.issued) : ParseSound s' where
  coherent := fun a' ha' => by
    obtain ⟨a, ha, hpass⟩ := hmove.rows a' ha'
    exact hpass.coherent (h.coherent a ha)
  held := fun a' ha' token htoken => by
    obtain ⟨a, ha, hpass⟩ := hmove.rows a' ha'
    rcases hpass.change with ⟨-, hp⟩ | ⟨-, hco⟩
    · rw [hp] at htoken ⊢
      rw [hparsing, hpass.id]
      exact h.held a ha token htoken
    · rw [(hco (h.coherent a ha)).2.1] at htoken
      nomatch htoken
  tokens := fun job hjob => by
    rw [hparsing] at hjob
    exact hissued _ (h.tokens job hjob)
  distinct := by
    rw [hparsing]
    exact h.distinct
  passages := fun row hrow => by
    obtain ⟨gone, hchunks, -, hkept⟩ := hmove.chunks
    rw [hchunks] at hrow
    obtain ⟨hold, hstay⟩ := mem_deleteWhere.mp hrow
    obtain ⟨a, ha, hid, hready⟩ := h.passages row hold
    obtain ⟨a', ha', hpass⟩ := hkept a ha (by rw [hid]; exact hstay)
    rcases hpass.change with ⟨-, hp⟩ | ⟨hup, -⟩
    · exact ⟨a', ha', hpass.id.trans hid, by rw [hp]; exact hready⟩
    · exact absurd hready (Attachment.coherent_upload hup (h.coherent a ha)).2

theorem starts_parseSound (h : ParseSound s) {row : Attachment} (hup : row.uploading = true)
    (hc : row.coherent = true) (hrows : s'.tables.attachments = s.tables.attachments ++ [row])
    (hchunks : s'.tables.chunks = s.tables.chunks) (hparsing : s'.parsing = s.parsing)
    (hissued : ∀ id ∈ s.issued, id ∈ s'.issued) : ParseSound s' where
  coherent := fun a ha => by
    rw [hrows, List.mem_append, List.mem_singleton] at ha
    rcases ha with ha | rfl
    · exact h.coherent a ha
    · exact hc
  held := fun a ha token htoken => by
    rw [hrows, List.mem_append, List.mem_singleton] at ha
    rcases ha with ha | rfl
    · rw [hparsing]
      exact h.held a ha token htoken
    · rw [(Attachment.coherent_upload hup hc).1] at htoken
      nomatch htoken
  tokens := fun job hjob => by
    rw [hparsing] at hjob
    exact hissued _ (h.tokens job hjob)
  distinct := by
    rw [hparsing]
    exact h.distinct
  passages := fun row' hrow => by
    rw [hchunks] at hrow
    obtain ⟨a, ha, hid, hready⟩ := h.passages row' hrow
    refine ⟨a, ?_, hid, hready⟩
    rw [hrows]
    exact List.mem_append_left _ ha

theorem claims_parseSound (hu : UniqueOn (·.id) s.tables.attachments) (h : ParseSound s)
    {workerId : String} {token : Uuid} {a : Attachment} (hfresh : token ∉ s.issued)
    (ha : a ∈ s.tables.attachments) (hclaim : parseClaimable s.now a = true) :
    ParseSound
      { s.draw token with
        tables := s.tables.setAttachment a.id (claimedRow workerId token s.now)
        parsing := parseAttachmentJob workerId token (claimedRow workerId token s.now a) ::
          s.parsing } where
  coherent := fun b hb => by
    rcases mem_claimed hu ha hb with rfl | ⟨hb, -⟩
    · exact claimedRow_coherent hclaim
    · exact h.coherent b hb
  held := fun b hb token' htoken => by
    rcases mem_claimed hu ha hb with rfl | ⟨hb, -⟩
    · exact ⟨_, List.mem_cons_self, Option.some.inj htoken, rfl, rfl⟩
    · obtain ⟨job, hjob, hrest⟩ := h.held b hb token' htoken
      exact ⟨job, List.mem_cons_of_mem _ hjob, hrest⟩
  tokens := fun job hjob => by
    rcases List.mem_cons.mp hjob with rfl | hjob
    · exact List.mem_cons_self
    · exact List.mem_cons_of_mem _ (h.tokens job hjob)
  distinct := fun job hjob job' hjob' he => by
    rcases List.mem_cons.mp hjob with rfl | hjob <;> rcases List.mem_cons.mp hjob' with rfl | hjob'
    · rfl
    · have hold := h.tokens job' hjob'
      rw [← he] at hold
      exact absurd hold hfresh
    · have hold := h.tokens job hjob
      rw [he] at hold
      exact absurd hold hfresh
    · exact h.distinct job hjob job' hjob' he
  passages := fun row hrow => by
    obtain ⟨b, hb, hid, hready⟩ := h.passages row hrow
    have hne : b.id ≠ a.id := by
      intro he
      rw [hu.eq hb ha he] at hready
      exact (claimable_not_ready hclaim).1 hready
    refine ⟨b, mem_updateWhere.mpr ⟨b, hb, ?_⟩, hid, hready⟩
    rw [if_neg (by simpa using hne)]

theorem worked_parseSound (h : ParseSound s) {job : ChatAttachmentParseJob}
    {f : Attachment → Attachment}
    (hf : ∀ a, leasedParse job a = true → a.Worked (f a))
    (hrows : s'.tables.attachments = updateWhere (leasedParse job) f s.tables.attachments)
    (hparsing : s'.parsing = s.parsing) (hissued : s'.issued = s.issued)
    (hchunks : ∀ row ∈ s'.tables.chunks, row ∈ s.tables.chunks ∨
      ∃ a ∈ s.tables.attachments, leasedParse job a = true ∧ a.id = row.attachmentId ∧
        (f a).parse.status = .ready) : ParseSound s' where
  coherent := fun a' ha' => by
    rw [hrows] at ha'
    obtain ⟨a, ha, rfl⟩ := mem_updateWhere.mp ha'
    split
    · next hleased => exact (hf a hleased).coherent (h.coherent a ha)
    · exact h.coherent a ha
  held := fun a' ha' token htoken => by
    rw [hrows] at ha'
    rw [hparsing]
    obtain ⟨a, ha, rfl⟩ := mem_updateWhere.mp ha'
    split at htoken
    · next hleased =>
      rw [if_pos hleased]
      rcases (hf a hleased).lease with hnone | ⟨hsame, hby⟩
      · rw [hnone] at htoken
        nomatch htoken
      · rw [hsame] at htoken
        rw [hby, (hf a hleased).id]
        exact h.held a ha token htoken
    · next hno =>
      rw [if_neg hno]
      exact h.held a ha token htoken
  tokens := by
    rw [hparsing, hissued]
    exact h.tokens
  distinct := by
    rw [hparsing]
    exact h.distinct
  passages := fun row hrow => by
    rw [hrows]
    rcases hchunks row hrow with hold | ⟨a, ha, hleased, hid, hready⟩
    · obtain ⟨a, ha, hid, hready⟩ := h.passages row hold
      have hno : ¬ leasedParse job a = true := fun hleased => by
        rw [leasedParse_status hleased] at hready
        nomatch hready
      refine ⟨a, mem_updateWhere.mpr ⟨a, ha, ?_⟩, hid, hready⟩
      rw [if_neg hno]
    · refine ⟨f a, mem_updateWhere.mpr ⟨a, ha, ?_⟩, ?_, hready⟩
      · rw [if_pos hleased]
      · rw [(hf a hleased).id]
        exact hid

variable [JsString.Sha256] {action : Action}

/-- **Every kind of step keeps the invariant.** -/
theorem ParseMove.parseSound (hmove : ParseMove s action s') (hs : Sound s) (h : ParseSound s)
    (hissued : ∀ id ∈ s.issued, id ∈ s'.issued) : ParseSound s' := by
  cases hmove with
  | nothing he =>
    rw [he]
    exact h
  | aside _ haside hparsing => exact aside_parseSound h haside hparsing hissued
  | starts row _ _ hup hc hrows hchunks hparsing =>
    exact starts_parseSound h hup hc hrows hchunks hparsing hissued
  | claims workerId token a _ hfresh ha hclaim hstate =>
    rw [hstate]
    exact claims_parseSound hs.wellFormed.attachmentIds h hfresh ha hclaim
  | works job f _ _ _ hf hstate =>
    subst hstate
    exact worked_parseSound h (fun a ha => (hf a ha).1) rfl rfl rfl fun row hrow => Or.inl hrow
  | saves job source provider chunks f _ _ hcurrent _ hf hstate =>
    subst hstate
    refine worked_parseSound h (fun a ha => (hf a ha).1) rfl rfl rfl fun row hrow => ?_
    rcases List.mem_append.mp hrow with hold | hnew
    · exact Or.inl (mem_deleteWhere.mp hold).1
    · obtain ⟨chunk, -, rfl⟩ := List.mem_map.mp hnew
      obtain ⟨a, ha, hleased⟩ := hcurrent
      exact Or.inr ⟨a, ha, hleased, leasedParse_id hleased, (hf a hleased).2⟩

end Step

/-! ## 2. The rows -/

/-- The passages of an attachment. -/
def Tables.passagesOf (t : Tables) (id : Uuid) : List PrivateAttachmentChunk :=
  (t.chunks.filter fun row => row.attachmentId == id).map (·.chunk)

/-- The same rows of an attachment, the same passages. -/
theorem passagesOf_congr {t t' : Tables} {id : Uuid}
    (h : t'.chunks.filter (fun row => row.attachmentId == id) =
      t.chunks.filter fun row => row.attachmentId == id) : t'.passagesOf id = t.passagesOf id := by
  unfold Tables.passagesOf
  rw [h]

/-- Deleting the passages of others. -/
theorem filter_deleteWhere {gone : Uuid → Bool} {id : Uuid} (hno : gone id = false)
    (rows : List ChunkRow) :
    (deleteWhere (fun row => gone row.attachmentId) rows).filter
        (fun row => row.attachmentId == id) =
      rows.filter fun row => row.attachmentId == id := by
  unfold deleteWhere
  rw [List.filter_filter]
  refine List.filter_congr fun row _ => ?_
  cases hid : row.attachmentId == id with
  | false => rfl
  | true =>
    show (true && !gone row.attachmentId) = true
    rw [beq_iff_eq.mp hid, hno]
    rfl

/-- The passages after a save: those of the document are the saved ones. -/
theorem passagesOf_saved {t t' : Tables} {id : Uuid} {chunks : List PrivateAttachmentChunk}
    (h : t'.chunks = deleteWhere (fun row => row.attachmentId == id) t.chunks ++
      chunks.map fun chunk => ⟨id, chunk⟩) (other : Uuid) :
    t'.passagesOf other = if other = id then chunks else t.passagesOf other := by
  unfold Tables.passagesOf
  rw [h, List.filter_append, List.map_append]
  split
  · next he =>
    have hold : (deleteWhere (fun row => row.attachmentId == id) t.chunks).filter
        (fun row => row.attachmentId == other) = [] := by
      refine List.filter_eq_nil_iff.mpr fun row hrow => ?_
      have hgone := (mem_deleteWhere.mp hrow).2
      rw [he]
      simpa using hgone
    have hnew : (chunks.map fun chunk => (⟨id, chunk⟩ : ChunkRow)).filter
        (fun row => row.attachmentId == other) = chunks.map fun chunk => ⟨id, chunk⟩ := by
      refine List.filter_eq_self.mpr fun row hrow => ?_
      obtain ⟨chunk, -, rfl⟩ := List.mem_map.mp hrow
      exact beq_iff_eq.mpr he.symm
    rw [hold, hnew, List.map_map]
    simp [Function.comp_def]
  · next hne =>
    have hnew : (chunks.map fun chunk => (⟨id, chunk⟩ : ChunkRow)).filter
        (fun row => row.attachmentId == other) = [] := by
      refine List.filter_eq_nil_iff.mpr fun row hrow => ?_
      obtain ⟨chunk, -, rfl⟩ := List.mem_map.mp hrow
      exact fun he => hne (beq_iff_eq.mp he).symm
    have hkept : (deleteWhere (fun row => row.attachmentId == id) t.chunks).filter
        (fun row => row.attachmentId == other) =
          t.chunks.filter fun row => row.attachmentId == other :=
      @filter_deleteWhere (fun other => other == id) other (beq_false_of_ne hne) t.chunks
    rw [hnew, hkept, List.map_nil, List.append_nil]

/-- A row that is not leased is not touched by an operation of the job. -/
theorem unleased_same {s : Storage} {job : ChatAttachmentParseJob} {f : Attachment → Attachment}
    (hu : UniqueOn (·.id) s.tables.attachments)
    (hf : ∀ a, leasedParse job a = true → a.Worked (f a)) {a a' : Attachment}
    (ha : a ∈ s.tables.attachments)
    (ha' : a' ∈ updateWhere (leasedParse job) f s.tables.attachments) (hid : a'.id = a.id) :
    (leasedParse job a = true ∧ a' = f a) ∨ (leasedParse job a = false ∧ a' = a) := by
  obtain ⟨b, hb, rfl⟩ := mem_updateWhere.mp ha'
  have he : b = a := by
    refine hu.eq hb ha ?_
    split at hid
    · next hleased => exact (hf b hleased).id.symm.trans hid
    · exact hid
  subst he
  split
  · next hleased => exact Or.inl ⟨hleased, rfl⟩
  · next hno => exact Or.inr ⟨by simpa using hno, rfl⟩

section Rows

variable [JsString.Sha256] {s s' : Storage} {action : Action}

/-- How the parsing of one document may change in a step. -/
inductive RowMove (s : Storage) (action : Action) (s' : Storage) (a a' : Attachment) : Prop
  | same (hstatus : a'.status = a.status) (hparse : a'.parse = a.parse)
      (hpassages : s'.tables.passagesOf a.id = s.tables.passagesOf a.id)
  | upload (hup : a.uploading = true) (hno : a'.parse.status ≠ .ready)
  | claimed (workerId : String) (token : Uuid)
      (haction : action = .claimAttachmentParse a.id workerId token)
      (hclaim : parseClaimable s.now a = true) (hno : a'.parse.status ≠ .ready)
  | worked (job : ChatAttachmentParseJob) (haction : action.parseJob = some job)
      (hjob : job ∈ s.parsing) (hleased : leasedParse job a = true)
      (hno : a'.parse.status ≠ .ready)
  | saved (job : ChatAttachmentParseJob) (source : ChunkSource) (provider : String)
      (chunks : List PrivateAttachmentChunk)
      (haction : action = .saveChunksAndComplete job source provider) (hjob : job ∈ s.parsing)
      (hleased : leasedParse job a = true) (hchunks : chunksOf job.mimeType source = .ok chunks)
      (hpassages : s'.tables.passagesOf a.id = chunks)

/-- **Every step moves every document so.** -/
theorem ParseMove.row (hmove : ParseMove s action s') (hs : Sound s) (h : ParseSound s)
    {a a' : Attachment} (ha : a ∈ s.tables.attachments) (ha' : a' ∈ s'.tables.attachments)
    (hid : a'.id = a.id) : RowMove s action s' a a' := by
  have hu := hs.wellFormed.attachmentIds
  cases hmove with
  | nothing he =>
    subst he
    rw [hu.eq ha' ha hid]
    exact .same rfl rfl rfl
  | aside _ haside _ =>
    obtain ⟨b, hb, hpass⟩ := haside.rows a' ha'
    have he : b = a := hu.eq hb ha (hpass.id.symm.trans hid)
    subst he
    rcases hpass.change with ⟨hstatus, hparse⟩ | ⟨hup, hco⟩
    · obtain ⟨gone, hchunks, hgone, -⟩ := haside.chunks
      refine .same hstatus hparse (passagesOf_congr ?_)
      rw [hchunks]
      exact filter_deleteWhere (by rw [← hid]; exact hgone a' ha') s.tables.chunks
    · exact .upload hup (hco (h.coherent b hb)).2.2
  | starts row _ hnew _ _ hrows hchunks _ =>
    rw [hrows, List.mem_append, List.mem_singleton] at ha'
    rcases ha' with ha' | rfl
    · rw [hu.eq ha' ha hid]
      exact .same rfl rfl (passagesOf_congr (by rw [hchunks]))
    · rw [hid] at hnew
      exact absurd (hs.known.attachmentIds a ha) hnew
  | claims workerId token b haction hfresh hb hclaim hstate =>
    subst hstate
    rcases mem_claimed hu hb ha' with rfl | ⟨ha', -⟩
    · have he : b = a := hu.eq hb ha hid
      subst he
      exact .claimed workerId token haction hclaim fun hno => nomatch hno
    · rw [hu.eq ha' ha hid]
      exact .same rfl rfl rfl
  | works job f haction hjob _ hf hstate =>
    subst hstate
    rcases unleased_same hu (fun a ha => (hf a ha).1) ha ha' hid with ⟨hleased, rfl⟩ | ⟨-, rfl⟩
    · exact .worked job haction hjob hleased (hf a hleased).2
    · exact .same rfl rfl rfl
  | saves job source provider chunks f haction hjob hcurrent hchunks hf hstate =>
    subst hstate
    have hsaved := @passagesOf_saved s.tables { s.tables with
      attachments := updateWhere (leasedParse job) f s.tables.attachments
      chunks := deleteWhere (fun row => row.attachmentId == job.id) s.tables.chunks ++
        chunks.map fun chunk => ⟨job.id, chunk⟩ } job.id chunks rfl a.id
    rcases unleased_same hu (fun a ha => (hf a ha).1) ha ha' hid with ⟨hleased, rfl⟩ | ⟨hno, rfl⟩
    · rw [if_pos (leasedParse_id hleased)] at hsaved
      exact .saved job source provider chunks haction hjob hleased hchunks hsaved
    · have hne : a'.id ≠ job.id := by
        intro he
        obtain ⟨b, hb, hleased⟩ := hcurrent
        rw [hu.eq ha hb (he.trans (leasedParse_id hleased).symm), hleased] at hno
        nomatch hno
      rw [if_neg hne] at hsaved
      exact .same rfl rfl hsaved

/-- A row had a predecessor, or its id is new. -/
theorem ParseMove.stem (hmove : ParseMove s action s') {a' : Attachment}
    (ha' : a' ∈ s'.tables.attachments) :
    (∃ a ∈ s.tables.attachments, a'.id = a.id) ∨
      (a'.id ∉ s.issued ∧ a'.parse.status ≠ .ready) := by
  cases hmove with
  | nothing he => exact Or.inl ⟨a', he ▸ ha', rfl⟩
  | aside _ haside _ =>
    obtain ⟨a, ha, hpass⟩ := haside.rows a' ha'
    exact Or.inl ⟨a, ha, hpass.id⟩
  | starts row _ hnew hup hc hrows _ _ =>
    rw [hrows, List.mem_append, List.mem_singleton] at ha'
    rcases ha' with ha' | rfl
    · exact Or.inl ⟨a', ha', rfl⟩
    · exact Or.inr ⟨hnew, (Attachment.coherent_upload hup hc).2⟩
  | claims workerId token a _ _ _ _ hstate =>
    subst hstate
    obtain ⟨b, hb, rfl⟩ := mem_updateWhere.mp ha'
    refine Or.inl ⟨b, hb, ?_⟩
    split <;> rfl
  | works job f _ _ _ hf hstate =>
    subst hstate
    obtain ⟨b, hb, rfl⟩ := mem_updateWhere.mp ha'
    refine Or.inl ⟨b, hb, ?_⟩
    split
    · next hleased => exact (hf b hleased).1.id
    · rfl
  | saves job source provider chunks f _ _ _ _ hf hstate =>
    subst hstate
    obtain ⟨b, hb, rfl⟩ := mem_updateWhere.mp ha'
    refine Or.inl ⟨b, hb, ?_⟩
    split
    · next hleased => exact (hf b hleased).1.id
    · rfl

/-! ## 3. Operations of workers -/

/-- Two states differ in one attachment and its passages at most. -/
def OnlyDocument (id : Uuid) (s s' : Storage) : Prop :=
  ∃ attachments chunks,
    s' = { s with tables := { s.tables with attachments := attachments, chunks := chunks } } ∧
    deleteWhere (fun a => a.id == id) attachments =
      deleteWhere (fun a => a.id == id) s.tables.attachments ∧
    deleteWhere (fun row => row.attachmentId == id) chunks =
      deleteWhere (fun row => row.attachmentId == id) s.tables.chunks

omit [JsString.Sha256] in
/-- An update of the leased row leaves the others. -/
theorem deleteWhere_leased {job : ChatAttachmentParseJob} {f : Attachment → Attachment}
    (hf : ∀ a, leasedParse job a = true → a.Worked (f a)) (rows : List Attachment) :
    deleteWhere (fun a => a.id == job.id) (updateWhere (leasedParse job) f rows) =
      deleteWhere (fun a => a.id == job.id) rows := by
  unfold deleteWhere updateWhere
  induction rows with
  | nil => rfl
  | cons a rows ih =>
    rw [List.map_cons, List.filter_cons, List.filter_cons, ih]
    split
    · next hleased =>
      have hid : a.id = job.id := leasedParse_id hleased
      have hid' : (f a).id = job.id := (hf a hleased).id.trans hid
      simp [hid, hid']
    · rfl

/-- **An operation of a worker**: without effect, or under the current lease. -/
theorem ParseMove.operation (hmove : ParseMove s action s') {job : ChatAttachmentParseJob}
    (haction : action.parseJob = some job) :
    s' = s ∨ (job ∈ s.parsing ∧ (∃ a ∈ s.tables.attachments, leasedParse job a = true) ∧
      OnlyDocument job.id s s') := by
  cases hmove with
  | nothing he => exact Or.inl he
  | aside hparse _ _ =>
    rw [hparse] at haction
    nomatch haction
  | starts _ hparse _ _ _ _ _ _ =>
    rw [hparse] at haction
    nomatch haction
  | claims workerId token a he _ _ _ _ =>
    rw [he] at haction
    nomatch haction
  | works job' f he hjob hcurrent hf hstate =>
    obtain rfl : job' = job := Option.some.inj (he.symm.trans haction)
    exact Or.inr ⟨hjob, hcurrent, _, _, hstate, deleteWhere_leased (fun a ha => (hf a ha).1) _,
      rfl⟩
  | saves job' source provider chunks f he hjob hcurrent _ hf hstate =>
    rw [he] at haction
    obtain rfl : job' = job := Option.some.inj haction
    refine Or.inr ⟨hjob, hcurrent, _, _, hstate, deleteWhere_leased (fun a ha => (hf a ha).1) _,
      ?_⟩
    unfold deleteWhere
    rw [List.filter_append, List.filter_filter]
    simp

/-! ## 4. Runs -/

/-- What stays of a document that is ready or has failed. -/
structure Lasting (id : Uuid) (status : AttachmentStatus) (parse : ParseColumns)
    (passages : List PrivateAttachmentChunk) (s : Storage) : Prop where
  issued : id ∈ s.issued
  row : ∀ a ∈ s.tables.attachments, a.id = id →
    a.status = status ∧ a.parse = parse ∧ s.tables.passagesOf id = passages

omit [JsString.Sha256] in
/-- A settled row is no upload, cannot be claimed and is not leased. -/
theorem settled_kept {a : Attachment} (hc : a.coherent = true)
    (hs : a.status = .ready ∨ a.status = .failed) :
    a.uploading = false ∧ a.status ≠ .processing ∧ a.parse.status ≠ .processing := by
  have hno : a.status ≠ .processing := by
    intro he
    rcases hs with h | h <;> rw [he] at h <;> nomatch h
  refine ⟨?_, hno, fun hp => hno (Attachment.coherent_processing hp hc).1⟩
  unfold Attachment.uploading
  rcases hs with h | h <;> rw [h] <;> rfl

/-- **One step keeps what is settled.** -/
theorem ParseMove.lasting (hmove : ParseMove s action s') (hs : Sound s) (h : ParseSound s)
    (hissued : ∀ id ∈ s.issued, id ∈ s'.issued) {id : Uuid} {status : AttachmentStatus}
    {parse : ParseColumns} {passages : List PrivateAttachmentChunk}
    (hsettled : status = .ready ∨ status = .failed)
    (hl : Lasting id status parse passages s) : Lasting id status parse passages s' := by
  refine ⟨hissued id hl.issued, fun a' ha' hid => ?_⟩
  rcases hmove.stem ha' with ⟨a, ha, he⟩ | ⟨hnew, -⟩
  · have hida : a.id = id := he.symm.trans hid
    obtain ⟨hstatus, hparse, hpassages⟩ := hl.row a ha hida
    rw [← hstatus] at hsettled
    obtain ⟨hup, hprocessing, hleased⟩ := settled_kept (h.coherent a ha) hsettled
    cases hmove.row hs h ha ha' he with
    | same hst hpa hps =>
      rw [hida] at hps
      exact ⟨hst.trans hstatus, hpa.trans hparse, hps.trans hpassages⟩
    | upload hyes _ =>
      rw [hup] at hyes
      nomatch hyes
    | claimed _ _ _ hclaim _ => exact absurd (claimable_not_ready hclaim).2 hprocessing
    | worked job _ _ hl' _ => exact absurd (leasedParse_status hl') hleased
    | saved job _ _ _ _ _ hl' _ _ => exact absurd (leasedParse_status hl') hleased
  · -- an id that was drawn before does not come again
    rw [hid] at hnew
    exact absurd hl.issued hnew

/-- The passages of a document are those of one save under the lease. -/
def Saved (actions : List Action) (id : Uuid) (passages : List PrivateAttachmentChunk) : Prop :=
  ∃ before later job source provider,
    actions = before ++ .saveChunksAndComplete job source provider :: later ∧ job.id = id ∧
    job ∈ (Storage.after greatest before).parsing ∧
    (∃ a ∈ (Storage.after greatest before).tables.attachments, leasedParse job a = true) ∧
    chunksOf job.mimeType source = .ok passages ∧
    passages.map (·.ordinal) = List.range passages.length

theorem chunksOf_numbered {mimeType : String} {source : ChunkSource}
    {chunks : List PrivateAttachmentChunk} (h : chunksOf mimeType source = .ok chunks) :
    Numbered chunks := by
  cases source with
  | localText text => exact chunksForLocalText_numbered h
  | parsed document => exact chunksForParsedDocument_numbered h

theorem step_parse (s : Storage) (action : Action) (hs : Sound s) (h : ParseSound s) :
    ParseSound (s.step greatest action) :=
  (step_move greatest hs action).parseSound hs h (step_frame greatest s action).issued

theorem after_parseSound (actions : List Action) : ParseSound (Storage.after greatest actions) :=
  Machine.run_stable Storage.initial_sound initial_parseSound
    (fun _ action hs => Storage.step_sound greatest_exact hs action)
    (fun s action hs h => step_parse s action hs h) actions

theorem after_append (actions more : List Action) :
    Storage.after greatest (actions ++ more) =
      Machine.run (Storage.step greatest) (Storage.after greatest actions) more :=
  Machine.run_append _ _ _ _

/-- **What is settled stays**, whatever follows. -/
theorem settled_lasting (actions more : List Action) {a : Attachment}
    (ha : a ∈ (Storage.after greatest actions).tables.attachments)
    (hsettled : a.status = .ready ∨ a.status = .failed) :
    Lasting a.id a.status a.parse ((Storage.after greatest actions).tables.passagesOf a.id)
      (Storage.after greatest (actions ++ more)) := by
  have hs := Storage.after_sound greatest_exact actions
  have hstart : Lasting a.id a.status a.parse
      ((Storage.after greatest actions).tables.passagesOf a.id) (Storage.after greatest actions) :=
    ⟨hs.known.attachmentIds a ha, fun b hb he => by
      rw [hs.wellFormed.attachmentIds.eq hb ha he]
      exact ⟨rfl, rfl, rfl⟩⟩
  rw [after_append]
  refine @Machine.run_stable _ _ _ (fun s => Sound s ∧ ParseSound s) _ _
    ⟨hs, after_parseSound actions⟩ hstart (fun s action h => ?_) (fun s action h hl => ?_) more
  · exact ⟨Storage.step_sound greatest_exact h.1 action, step_parse s action h.1 h.2⟩
  · exact (step_move greatest h.1 action).lasting h.1 h.2 (step_frame greatest s action).issued
      hsettled hl

/-- **A ready document has the passages of one save.** -/
theorem ready_saved (actions : List Action) :
    ∀ a ∈ (Storage.after greatest actions).tables.attachments, a.parse.status = .ready →
      Saved actions a.id ((Storage.after greatest actions).tables.passagesOf a.id) := by
  induction actions using List.reverseRecOn with
  | nil => exact fun _ h => nomatch h
  | append_singleton actions action ih =>
    intro a' ha' hready
    rw [after_append] at ha' ⊢
    have hs := Storage.after_sound greatest_exact actions
    have h := after_parseSound actions
    have hmove := step_move greatest hs action
    rcases hmove.stem ha' with ⟨a, ha, hid⟩ | ⟨-, hno⟩
    · cases hmove.row hs h ha ha' hid with
      | same _ hparse hpassages =>
        obtain ⟨before, later, job, source, provider, he, hrest⟩ :=
          ih a ha (by rw [← hparse]; exact hready)
        rw [hid]
        refine ⟨before, later ++ [action], job, source, provider, ?_, ?_⟩
        · rw [he]
          simp
        · show job.id = a.id ∧ _
          rw [show (Machine.run (Storage.step greatest) (Storage.after greatest actions)
            [action]).tables.passagesOf a.id =
              (Storage.after greatest actions).tables.passagesOf a.id from hpassages]
          exact hrest
      | upload _ hno => exact absurd hready hno
      | claimed _ _ _ _ hno => exact absurd hready hno
      | worked _ _ _ _ hno => exact absurd hready hno
      | saved job source provider chunks haction hjob hleased hchunks hpassages =>
        rw [hid]
        refine ⟨actions, [], job, source, provider, by rw [haction],
          (leasedParse_id hleased).symm, hjob, ⟨a, ha, hleased⟩, ?_⟩
        rw [show (Machine.run (Storage.step greatest) (Storage.after greatest actions)
          [action]).tables.passagesOf a.id = chunks from hpassages]
        exact ⟨hchunks, chunksOf_numbered hchunks⟩
    · exact absurd hready hno

omit [JsString.Sha256] in
/-- A ready document has been parsed. -/
theorem coherent_ready {a : Attachment} (hc : a.coherent = true) (hkind : a.kind = .document)
    (hready : a.status = .ready) : a.parse.status = .ready := by
  unfold Attachment.coherent at hc
  rw [hready, hkind] at hc
  simp only [Bool.and_eq_true, beq_iff_eq] at hc
  exact hc.1

omit [JsString.Sha256] in
/-- A document that has been parsed is ready. -/
theorem coherent_parsed {a : Attachment} (hc : a.coherent = true)
    (hparsed : a.parse.status = .ready) : a.status = .ready ∧ a.kind = .document := by
  unfold Attachment.coherent at hc
  cases hstatus : a.status <;> cases hkind : a.kind <;> simp [hstatus, hkind, hparsed] at hc ⊢

/-- **Parse-job leases**, for every run. -/
theorem parse_leases (actions : List Action) :
    -- an operation of a worker has an effect under the current lease only, on its document only
    (∀ action job, action.parseJob = some job →
      (Storage.after greatest actions).step greatest action = Storage.after greatest actions ∨
        (job ∈ (Storage.after greatest actions).parsing ∧
          (∃ a ∈ (Storage.after greatest actions).tables.attachments, leasedParse job a = true) ∧
          OnlyDocument job.id (Storage.after greatest actions)
            ((Storage.after greatest actions).step greatest action))) ∧
    -- a document has one holder
    (∀ a ∈ (Storage.after greatest actions).tables.attachments,
      ∀ job ∈ (Storage.after greatest actions).parsing,
      ∀ job' ∈ (Storage.after greatest actions).parsing,
      leasedParse job a = true → leasedParse job' a = true → job = job') ∧
    -- after the upload, only a claim of what is free and the holder change the parsing
    (∀ action, ∀ a ∈ (Storage.after greatest actions).tables.attachments,
      ∀ a' ∈ ((Storage.after greatest actions).step greatest action).tables.attachments,
      a'.id = a.id → a.uploading = false →
      (a'.status = a.status ∧ a'.parse = a.parse ∧
        ((Storage.after greatest actions).step greatest action).tables.passagesOf a.id =
          (Storage.after greatest actions).tables.passagesOf a.id) ∨
      (parseClaimable (Storage.after greatest actions).now a = true ∧
        ∃ workerId token, action = .claimAttachmentParse a.id workerId token) ∨
      ∃ job ∈ (Storage.after greatest actions).parsing,
        action.parseJob = some job ∧ leasedParse job a = true) ∧
    -- `ready` and `failed` are terminal
    (∀ a ∈ (Storage.after greatest actions).tables.attachments,
      a.status = .ready ∨ a.status = .failed → ∀ more,
      ∀ a' ∈ (Storage.after greatest (actions ++ more)).tables.attachments, a'.id = a.id →
      a'.status = a.status ∧ a'.parse = a.parse ∧
        (Storage.after greatest (actions ++ more)).tables.passagesOf a.id =
          (Storage.after greatest actions).tables.passagesOf a.id) ∧
    -- the passages of a ready document are those of one save
    (∀ a ∈ (Storage.after greatest actions).tables.attachments, a.kind = .document →
      a.status = .ready →
      Saved actions a.id ((Storage.after greatest actions).tables.passagesOf a.id)) ∧
    -- no other attachment has passages
    (∀ row ∈ (Storage.after greatest actions).tables.chunks,
      ∃ a ∈ (Storage.after greatest actions).tables.attachments,
        a.id = row.attachmentId ∧ a.kind = .document ∧ a.status = .ready) ∧
    -- a save without the lease leaves nothing behind
    (∀ job source provider,
      (∀ a ∈ (Storage.after greatest actions).tables.attachments, leasedParse job a = false) →
      (Storage.after greatest actions).step greatest
        (.saveChunksAndComplete job source provider) = Storage.after greatest actions) := by
  have hs := Storage.after_sound greatest_exact actions
  have h := after_parseSound actions
  have hmove (action : Action) := step_move greatest hs action
  refine ⟨fun action job haction => (hmove action).operation haction, ?_, ?_, ?_, ?_, ?_, ?_⟩
  · intro a _ job hjob job' hjob' hleased hleased'
    refine h.distinct job hjob job' hjob' (Option.some.inj ?_)
    exact (leasedParse_token hleased).symm.trans (leasedParse_token hleased')
  · intro action a ha a' ha' hid hup
    cases (hmove action).row hs h ha ha' hid with
    | same hstatus hparse hpassages => exact Or.inl ⟨hstatus, hparse, hpassages⟩
    | upload hyes _ =>
      rw [hup] at hyes
      nomatch hyes
    | claimed workerId token haction hclaim _ =>
      exact Or.inr (Or.inl ⟨hclaim, workerId, token, haction⟩)
    | worked job haction hjob hleased _ => exact Or.inr (Or.inr ⟨job, hjob, haction, hleased⟩)
    | saved job source provider chunks haction hjob hleased _ _ =>
      exact Or.inr (Or.inr ⟨job, hjob, by rw [haction]; rfl, hleased⟩)
  · intro a ha hsettled more a' ha' hid
    exact (settled_lasting actions more ha hsettled).row a' ha' hid
  · intro a ha hkind hready
    exact ready_saved actions a ha (coherent_ready (h.coherent a ha) hkind hready)
  · intro row hrow
    obtain ⟨a, ha, hid, hready⟩ := h.passages row hrow
    obtain ⟨hstatus, hkind⟩ := coherent_parsed (h.coherent a ha) hready
    exact ⟨a, ha, hid, hkind, hstatus⟩
  · intro job source provider hstale
    rcases (hmove (.saveChunksAndComplete job source provider)).operation rfl with
      hsame | ⟨-, ⟨a, ha, hleased⟩, -⟩
    · exact hsame
    · rw [hstale a ha] at hleased
      nomatch hleased

/-- **The rows of the storage refer to each other as they should**, in every reachable state. -/
theorem storage_references (actions : List Action) :
    let s := Storage.after greatest actions
    (∀ a ∈ s.tables.attachments,
      a.conversationId ∈ s.tables.conversations.map (·.id) ∧ a.coherent = true ∧
        (∀ token, a.parse.leaseToken = some token →
          ∃ job ∈ s.parsing, job.leaseToken = token ∧ job.id = a.id) ∧
        (∀ f ∈ s.tables.files, f.objectKey ≠ a.objectKey) ∧
        ∀ other ∈ s.tables.attachments, other.objectKey = a.objectKey → other = a) ∧
    ∀ f ∈ s.tables.files,
      (∃ artifact ∈ s.tables.artifacts, artifact.id = f.artifactId ∧
        artifact.conversationId ∈ s.tables.conversations.map (·.id)) ∧
      ∀ other ∈ s.tables.files, other.objectKey = f.objectKey → other = f := by
  intro s
  obtain ⟨hw, -, hk, -⟩ : Sound s := Storage.after_sound greatest_exact actions
  have hp : ParseSound s := after_parseSound actions
  refine ⟨fun a ha => ⟨hw.attachmentHome a ha, hp.coherent a ha, fun token htoken => ?_,
    fun f hf e => ?_, fun other ho e => ?_⟩, fun f hf => ⟨?_, fun other ho e => ?_⟩⟩
  · obtain ⟨job, hjob, hlease, hid, -⟩ := hp.held a ha token htoken
    exact ⟨job, hjob, hlease, hid⟩
  · obtain ⟨_, hkey⟩ := hk.attachmentKeys a ha
    obtain ⟨_, _, hfile⟩ := hk.fileKeys f hf
    simp [hkey, hfile] at e
  · obtain ⟨_, hkey⟩ := hk.attachmentKeys a ha
    obtain ⟨_, hother⟩ := hk.attachmentKeys other ho
    rw [hkey, hother] at e
    exact hw.attachmentIds.eq ho ha (by simp at e; exact e.2.1)
  · obtain ⟨artifact, hartifact, hid⟩ := List.mem_map.mp (hw.fileHome f hf)
    exact ⟨artifact, hartifact, hid, hw.artifactHome artifact hartifact⟩
  · obtain ⟨_, _, hkey⟩ := hk.fileKeys f hf
    obtain ⟨_, _, hother⟩ := hk.fileKeys other ho
    rw [hkey, hother] at e
    exact hw.fileIds.eq ho hf (by simp at e; exact e.2.2.1)

end Rows

end OpenVac.ChatStorage
